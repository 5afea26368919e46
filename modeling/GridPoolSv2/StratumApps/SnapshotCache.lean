import GridPoolSv2.Lib.Runs
import GridPoolSv2.Lib.Series
import Mathlib

/-!
# StratumApps.SnapshotCache: the metrics of a monitoring server

The model of `SnapshotCache::refresh` and `update_metrics`
(`stratum-apps/src/monitoring/snapshot_cache.rs`). A background task copies the data of its sources
into a snapshot and brings the Prometheus gauges up to date in place: it sets every gauge of the
new snapshot, removes the label combinations that only the snapshot before it had, and publishes
the snapshot last.

* A gauge is a key, its metric with the values of its labels. Requests may look at the registry
  between any two writes.
* The extended and the standard channels of a server have the same gauges, as have those of a
  client; a `ChannelSeries` is what the two loops make of a channel.
* `HashSet::difference` gives the stale labels in any order: each removal picks one of them.

A server channel without a nominal hashrate keeps the hashrate gauge it had, since its labels are
not stale: `Metric.Exact` leaves that metric out.

Proof shape: a refresh is an instance of `Lib.Series`, where the store is the registry and the
writes are those of the new snapshot. What is left to show here is which keys a snapshot
writes, and that the keys of the old labels are the ones to be removed.
-/

namespace GridPoolSv2.StratumApps

open Runs (exec)
open Series (Underway rebuild)

/-- `SHARE_REJECTION_CODES`. -/
def shareRejectionCodes : List String :=
  ["invalid-channel-id", "invalid-share", "stale-share", "invalid-job-id", "difficulty-too-low",
    "duplicate-share", "bad-extranonce-size"]

variable {H : Type*}

/-- What the gauges show of a `ServerExtendedChannelInfo` or a `ServerStandardChannelInfo`. -/
structure ServerChannelInfo (H : Type*) where
  channelId : UInt32
  userIdentity : String
  nominalHashrate : Option H
  sharesAcknowledged : UInt32
  sharesRejectedByReason : List (String × UInt32)
  blocksFound : UInt32

structure ServerInfo (H : Type*) where
  extendedChannels : List (ServerChannelInfo H)
  standardChannels : List (ServerChannelInfo H)

structure ServerSummary (H : Type*) where
  extendedChannels : Nat
  standardChannels : Nat
  totalHashrate : H

/-- What the gauges show of an `ExtendedChannelInfo` or a `StandardChannelInfo`. -/
structure ClientChannelInfo (H : Type*) where
  channelId : UInt32
  userIdentity : String
  nominalHashrate : H
  sharesAccepted : UInt32
  sharesRejectedByReason : List (String × UInt32)
  blocksFound : UInt32

structure Sv2ClientInfo (H : Type*) where
  clientId : Nat
  extendedChannels : List (ClientChannelInfo H)
  standardChannels : List (ClientChannelInfo H)

structure Sv2ClientsSummary (H : Type*) where
  totalClients : Nat
  extendedChannels : Nat
  standardChannels : Nat
  totalHashrate : H

structure Sv1ClientsSummary (H : Type*) where
  totalClients : Nat
  totalHashrate : H

structure MonitoringSnapshot (H : Type*) where
  serverInfo : Option (ServerInfo H) := none
  serverSummary : Option (ServerSummary H) := none
  sv2Clients : Option (List (Sv2ClientInfo H)) := none
  sv2ClientsSummary : Option (Sv2ClientsSummary H) := none
  sv1ClientsSummary : Option (Sv1ClientsSummary H) := none

/-- The metrics that exist for the server and for the clients. -/
inductive Side where
  | server
  | client
  deriving Repr, DecidableEq

inductive Metric where
  | channels (side : Side)
  | hashrateTotal (side : Side)
  | channelHashrate (side : Side)
  | sharesAcceptedTotal (side : Side)
  | sharesRejectedTotal (side : Side)
  | blocksFoundTotal (side : Side)
  | clientsTotal
  | sv1ClientsTotal
  | sv1HashrateTotal
  deriving Repr, DecidableEq

/-- A metric and the values of its labels. -/
abbrev GaugeKey := Metric × List String

inductive GaugeValue (H : Type*) where
  | count (n : Nat)
  | hashrate (h : H)
  deriving Repr, DecidableEq

/-- `PrometheusMetrics`: which groups of metrics were registered. -/
structure PrometheusMetrics where
  server : Bool
  clients : Bool
  sv1 : Bool
  deriving Repr, DecidableEq

def PrometheusMetrics.side (m : PrometheusMetrics) : Side → Bool
  | .server => m.server
  | .client => m.clients

def PrometheusMetrics.has (m : PrometheusMetrics) : Metric → Bool
  | .channels s | .hashrateTotal s | .channelHashrate s | .sharesAcceptedTotal s
  | .sharesRejectedTotal s | .blocksFoundTotal s => m.side s
  | .clientsTotal => m.clients
  | .sv1ClientsTotal | .sv1HashrateTotal => m.sv1

/-- A channel as its gauges show it. -/
structure ChannelSeries (H : Type*) where
  labels : List String
  sharesAccepted : UInt32
  sharesRejectedByReason : List (String × UInt32)
  nominalHashrate : Option H

namespace MonitoringSnapshot

def serverChannels (s : MonitoringSnapshot H) : List (ServerChannelInfo H) :=
  match s.serverInfo with
  | some info => info.extendedChannels ++ info.standardChannels
  | none => []

/-- The clients are looked at only if there is a summary. -/
def clientChannels (s : MonitoringSnapshot H) : List (Nat × ClientChannelInfo H) :=
  match s.sv2ClientsSummary with
  | some _ => (s.sv2Clients.getD []).flatMap fun c =>
      (c.extendedChannels ++ c.standardChannels).map fun ch => (c.clientId, ch)
  | none => []

/-- The channels in the order of the loops. -/
def series (s : MonitoringSnapshot H) : Side → List (ChannelSeries H)
  | .server => s.serverChannels.map fun c =>
      { labels := [toString c.channelId, c.userIdentity]
        sharesAccepted := c.sharesAcknowledged
        sharesRejectedByReason := c.sharesRejectedByReason
        nominalHashrate := c.nominalHashrate }
  | .client => s.clientChannels.map fun (id, c) =>
      { labels := [toString id, toString c.channelId, c.userIdentity]
        sharesAccepted := c.sharesAccepted
        sharesRejectedByReason := c.sharesRejectedByReason
        nominalHashrate := some c.nominalHashrate }

end MonitoringSnapshot

/-- What a loop sets for a channel: the codes of the table are set to zero first. -/
def ChannelSeries.settings (side : Side) (c : ChannelSeries H) :
    List (GaugeKey × GaugeValue H) :=
  [((.sharesAcceptedTotal side, c.labels), .count c.sharesAccepted.toNat)] ++
    shareRejectionCodes.map (fun reason =>
      ((.sharesRejectedTotal side, c.labels ++ [reason]), .count 0)) ++
    c.sharesRejectedByReason.map (fun r =>
      ((.sharesRejectedTotal side, c.labels ++ [r.1]), .count r.2.toNat)) ++
    c.nominalHashrate.toList.map fun h => ((.channelHashrate side, c.labels), .hashrate h)

namespace MonitoringSnapshot

def serverSummarySettings (s : MonitoringSnapshot H) : List (GaugeKey × GaugeValue H) :=
  match s.serverSummary with
  | some t =>
      [((.channels .server, ["extended"]), .count t.extendedChannels),
        ((.channels .server, ["standard"]), .count t.standardChannels),
        ((.hashrateTotal .server, []), .hashrate t.totalHashrate)]
  | none => []

def serverBlocksSettings (s : MonitoringSnapshot H) : List (GaugeKey × GaugeValue H) :=
  match s.serverInfo with
  | some _ =>
      [((.blocksFoundTotal .server, []),
        .count (s.serverChannels.map (·.blocksFound.toNat)).sum)]
  | none => []

def clientsSummarySettings (s : MonitoringSnapshot H) : List (GaugeKey × GaugeValue H) :=
  match s.sv2ClientsSummary with
  | some t =>
      [((.clientsTotal, []), .count t.totalClients),
        ((.channels .client, ["extended"]), .count t.extendedChannels),
        ((.channels .client, ["standard"]), .count t.standardChannels),
        ((.hashrateTotal .client, []), .hashrate t.totalHashrate)]
  | none => []

def clientBlocksSettings (s : MonitoringSnapshot H) : List (GaugeKey × GaugeValue H) :=
  match s.sv2ClientsSummary with
  | some _ =>
      [((.blocksFoundTotal .client, []),
        .count (s.clientChannels.map (·.2.blocksFound.toNat)).sum)]
  | none => []

def sv1Settings (s : MonitoringSnapshot H) : List (GaugeKey × GaugeValue H) :=
  match s.sv1ClientsSummary with
  | some t =>
      [((.sv1ClientsTotal, []), .count t.totalClients),
        ((.sv1HashrateTotal, []), .hashrate t.totalHashrate)]
  | none => []

/-- All that `update_metrics` sets, in its order. -/
def settings (m : PrometheusMetrics) (s : MonitoringSnapshot H) :
    List (GaugeKey × GaugeValue H) :=
  (s.serverSummarySettings ++ (s.series .server).flatMap (·.settings .server) ++
    s.serverBlocksSettings ++ s.clientsSummarySettings ++
    (s.series .client).flatMap (·.settings .client) ++ s.clientBlocksSettings ++
    s.sv1Settings).filter fun x => m.has x.1.1

end MonitoringSnapshot

/-- `PreviousPrometheusLabelSets`, for the server or for the clients. -/
structure LabelSets where
  channel : List (List String) := []
  rejectedShare : List (List String) := []
  deriving Repr, DecidableEq

/-- The label combinations of a snapshot. -/
def MonitoringSnapshot.labels (m : PrometheusMetrics) (s : MonitoringSnapshot H) (side : Side) :
    LabelSets where
  channel := (s.series side).map (·.labels)
  rejectedShare :=
    if m.side side then
      (s.series side).flatMap fun c =>
        (shareRejectionCodes ++ c.sharesRejectedByReason.map (·.1)).map fun reason =>
          c.labels ++ [reason]
    else []

/-- `HashSet::difference`. -/
def labelDifference (previous current : List (List String)) : List (List String) :=
  previous.filter (· ∉ current)

/-- The gauges that `update_metrics` removes. -/
def staleKeys (m : PrometheusMetrics) (previous current : Side → LabelSets) : List GaugeKey :=
  ([Side.server, Side.client].flatMap fun side =>
    (labelDifference (previous side).channel (current side).channel).flatMap (fun labels =>
      [(.sharesAcceptedTotal side, labels), (.channelHashrate side, labels)]) ++
    (labelDifference (previous side).rejectedShare (current side).rejectedShare).map fun labels =>
      (.sharesRejectedTotal side, labels)).filter fun k => m.has k.1

/-- The cache in the middle of a refresh or between two of them. -/
structure SnapshotCache (H : Type*) where
  snapshot : MonitoringSnapshot H := {}
  registry : GaugeKey → Option (GaugeValue H) := fun _ => none
  previousMetricsLabels : Side → LabelSets := fun _ => {}
  /-- The snapshot that is being collected or was collected last. -/
  newSnapshot : MonitoringSnapshot H := {}
  toSet : List (GaugeKey × GaugeValue H) := []
  toRemove : List GaugeKey := []
  refreshing : Bool := false

namespace SnapshotCache

inductive Event (H : Type*) where
  /-- The sources were read. -/
  | refresh (new : MonitoringSnapshot H)
  /-- One gauge is set or removed, or the snapshot is published; `i` picks the removal. -/
  | advance (i : Nat)

def step (m : PrometheusMetrics) (c : SnapshotCache H) : Event H → SnapshotCache H
  | .refresh new =>
      if c.refreshing then c
      else
        { c with
          newSnapshot := new
          toSet := new.settings m
          toRemove := staleKeys m c.previousMetricsLabels (new.labels m)
          refreshing := true }
  | .advance i =>
      if c.refreshing then
        match c.toSet, c.toRemove with
        | x :: rest, _ => { c with registry := Series.write c.registry x, toSet := rest }
        | [], k :: ks =>
            let stale := (k :: ks).getD i k
            { c with
              registry := Function.update c.registry stale none
              toRemove := (k :: ks).filter (· ≠ stale) }
        | [], [] =>
            { c with
              previousMetricsLabels := c.newSnapshot.labels m
              snapshot := c.newSnapshot
              refreshing := false }
      else c

end SnapshotCache

/-! ### Labels and gauges -/

/-- The label combinations that a metric has, according to the label sets. -/
def LabelSets.of (l : Side → LabelSets) : Metric → List (List String)
  | .sharesAcceptedTotal side | .channelHashrate side => (l side).channel
  | .sharesRejectedTotal side => (l side).rejectedShare
  | _ => []

/-- The metrics with labels of channels. -/
def Metric.Tracked : Metric → Prop
  | .sharesAcceptedTotal _ | .channelHashrate _ | .sharesRejectedTotal _ => True
  | _ => False

/-- The tracked metrics that are set whenever their labels are there. -/
def Metric.Exact : Metric → Prop
  | .sharesAcceptedTotal _ | .channelHashrate .client | .sharesRejectedTotal _ => True
  | _ => False

theorem Metric.Exact.tracked {k : Metric} (h : k.Exact) : k.Tracked := by
  cases k <;> simp_all [Exact, Tracked]

/-- A stale gauge has labels that the snapshot before had and this one has not. -/
theorem mem_staleKeys {m : PrometheusMetrics} {previous current : Side → LabelSets}
    {k : GaugeKey} (hk : k.1.Tracked) :
    k ∈ staleKeys m previous current ↔ m.has k.1 = true ∧
      k.2 ∈ LabelSets.of previous k.1 ∧ k.2 ∉ LabelSets.of current k.1 := by
  obtain ⟨metric, labels⟩ := k
  cases metric with
  | sharesAcceptedTotal side =>
      cases side <;> simp [staleKeys, labelDifference, LabelSets.of, and_comm]
  | channelHashrate side =>
      cases side <;> simp [staleKeys, labelDifference, LabelSets.of, and_comm]
  | sharesRejectedTotal side =>
      cases side <;> simp [staleKeys, labelDifference, LabelSets.of, and_comm]
  | _ => exact absurd hk (by simp [Metric.Tracked])

/-- Only gauges with labels of channels are removed. -/
theorem tracked_of_mem_staleKeys {m : PrometheusMetrics} {previous current : Side → LabelSets}
    {k : GaugeKey} (hk : k ∈ staleKeys m previous current) : k.1.Tracked := by
  simp only [staleKeys, List.mem_filter, List.mem_flatMap, List.mem_append, List.mem_map] at hk
  obtain ⟨⟨side, -, ⟨labels, -, hk⟩ | ⟨labels, -, rfl⟩⟩, -⟩ := hk
  · simp only [List.mem_cons, List.not_mem_nil, or_false] at hk
    rcases hk with rfl | rfl <;> trivial
  · trivial

/-- The gauges that a channel sets. -/
theorem mem_channelSettings {side : Side} {c : ChannelSeries H} {k : GaugeKey} :
    (∃ v, (k, v) ∈ c.settings side) ↔
      (k = (.sharesAcceptedTotal side, c.labels)) ∨
      (∃ reason ∈ shareRejectionCodes ++ c.sharesRejectedByReason.map (·.1),
        k = (.sharesRejectedTotal side, c.labels ++ [reason])) ∨
      (c.nominalHashrate.isSome ∧ k = (.channelHashrate side, c.labels)) := by
  simp only [ChannelSeries.settings, List.mem_append, List.mem_map, List.mem_singleton,
    Prod.mk.injEq, Option.mem_toList]
  constructor
  · rintro ⟨v, ((⟨rfl, -⟩ | ⟨reason, hr, rfl, -⟩) | ⟨r, hr, rfl, -⟩) | ⟨h, hh, rfl, -⟩⟩
    · exact .inl rfl
    · exact .inr (.inl ⟨reason, .inl hr, rfl⟩)
    · exact .inr (.inl ⟨r.1, .inr ⟨r, hr, rfl⟩, rfl⟩)
    · exact .inr (.inr ⟨Option.isSome_of_mem hh, rfl⟩)
  · rintro (rfl | ⟨reason, hr | ⟨r, hr, rfl⟩, rfl⟩ | ⟨hh, rfl⟩)
    · exact ⟨_, .inl (.inl (.inl ⟨rfl, rfl⟩))⟩
    · exact ⟨_, .inl (.inl (.inr ⟨reason, hr, rfl, rfl⟩))⟩
    · exact ⟨_, .inl (.inr ⟨r, hr, rfl, rfl⟩)⟩
    · obtain ⟨h, hh⟩ := Option.isSome_iff_exists.mp hh
      exact ⟨_, .inr ⟨h, hh, rfl, rfl⟩⟩

/-- The gauges of the summaries and totals have no labels of channels. -/
theorem not_tracked_summary {s : MonitoringSnapshot H} {x : GaugeKey × GaugeValue H}
    (hx : x ∈ s.serverSummarySettings ∨ x ∈ s.serverBlocksSettings ∨
      x ∈ s.clientsSummarySettings ∨ x ∈ s.clientBlocksSettings ∨ x ∈ s.sv1Settings) :
    ¬ x.1.1.Tracked := by
  unfold MonitoringSnapshot.serverSummarySettings MonitoringSnapshot.serverBlocksSettings
    MonitoringSnapshot.clientsSummarySettings MonitoringSnapshot.clientBlocksSettings
    MonitoringSnapshot.sv1Settings at hx
  rcases hx with hx | hx | hx | hx | hx
  all_goals
    split at hx <;> simp only [List.mem_cons, List.not_mem_nil, or_false] at hx
  · rcases hx with rfl | rfl | rfl <;> exact id
  · subst hx
    exact id
  · rcases hx with rfl | rfl | rfl | rfl <;> exact id
  · subst hx
    exact id
  · rcases hx with rfl | rfl <;> exact id

/-- A gauge is set if its labels are in the snapshot. -/
theorem mem_settings {m : PrometheusMetrics} {s : MonitoringSnapshot H} {k : GaugeKey}
    (hk : k.1.Tracked) :
    (∃ v, (k, v) ∈ s.settings m) ↔ m.has k.1 = true ∧
      ∃ side, ∃ c ∈ s.series side, ∃ v, (k, v) ∈ c.settings side := by
  simp only [MonitoringSnapshot.settings, List.mem_filter, List.mem_append, List.mem_flatMap]
  constructor
  · rintro ⟨v, hmem, hhas⟩
    refine ⟨hhas, ?_⟩
    have hno : ∀ {p : Prop}, ¬ k.1.Tracked → p := fun h => absurd hk h
    rcases hmem with (((((h | ⟨c, hc, h⟩) | h) | h) | ⟨c, hc, h⟩) | h) | h
    · exact hno (not_tracked_summary (x := (k, v)) (.inl h))
    · exact ⟨.server, c, hc, v, h⟩
    · exact hno (not_tracked_summary (x := (k, v)) (.inr (.inl h)))
    · exact hno (not_tracked_summary (x := (k, v)) (.inr (.inr (.inl h))))
    · exact ⟨.client, c, hc, v, h⟩
    · exact hno (not_tracked_summary (x := (k, v)) (.inr (.inr (.inr (.inl h)))))
    · exact hno (not_tracked_summary (x := (k, v)) (.inr (.inr (.inr (.inr h)))))
  · rintro ⟨hhas, side, c, hc, v, h⟩
    refine ⟨v, ?_, hhas⟩
    cases side with
    | server => exact .inl (.inl (.inl (.inl (.inl (.inr ⟨c, hc, h⟩)))))
    | client => exact .inl (.inl (.inr ⟨c, hc, h⟩))

variable {m : PrometheusMetrics} {s : MonitoringSnapshot H} {k : GaugeKey}

/-- A gauge that is set has labels of the snapshot. -/
theorem labels_of_set (hk : k.1.Tracked) (h : (rebuild (s.settings m) k).isSome) :
    m.has k.1 = true ∧ k.2 ∈ LabelSets.of (s.labels m) k.1 := by
  obtain ⟨hhas, side, c, hc, hv⟩ := (mem_settings hk).mp (Series.rebuild_isSome.mp h)
  refine ⟨hhas, ?_⟩
  obtain rfl | ⟨reason, hr, rfl⟩ | ⟨-, rfl⟩ := mem_channelSettings.mp hv
  · exact List.mem_map_of_mem hc
  · have hside : m.side side = true := hhas
    simp only [LabelSets.of, MonitoringSnapshot.labels, hside, if_true]
    exact List.mem_flatMap.mpr ⟨c, hc, List.mem_map_of_mem hr⟩
  · exact List.mem_map_of_mem hc

theorem series_client_hashrate {c : ChannelSeries H} (hc : c ∈ s.series .client) :
    c.nominalHashrate.isSome := by
  obtain ⟨x, -, rfl⟩ := List.mem_map.mp hc
  rfl

/-- Labels of the snapshot have their gauge, the hashrate of a server channel apart. -/
theorem set_of_labels (hk : k.1.Exact) (hhas : m.has k.1 = true)
    (h : k.2 ∈ LabelSets.of (s.labels m) k.1) : (rebuild (s.settings m) k).isSome := by
  refine Series.rebuild_isSome.mpr ((mem_settings hk.tracked).mpr ⟨hhas, ?_⟩)
  obtain ⟨metric, labels⟩ := k
  cases metric with
  | sharesAcceptedTotal side =>
      obtain ⟨c, hc, rfl⟩ := List.mem_map.mp h
      exact ⟨side, c, hc, mem_channelSettings.mpr (.inl rfl)⟩
  | sharesRejectedTotal side =>
      have hside : m.side side = true := hhas
      simp only [LabelSets.of, MonitoringSnapshot.labels, hside, if_true] at h
      obtain ⟨c, hc, hmem⟩ := List.mem_flatMap.mp h
      obtain ⟨reason, hr, rfl⟩ := List.mem_map.mp hmem
      exact ⟨side, c, hc, mem_channelSettings.mpr (.inr (.inl ⟨reason, hr, rfl⟩))⟩
  | channelHashrate side =>
      cases side with
      | server => exact absurd hk (by simp [Metric.Exact])
      | client =>
          obtain ⟨c, hc, rfl⟩ := List.mem_map.mp h
          exact ⟨.client, c, hc, mem_channelSettings.mpr
            (.inr (.inr ⟨series_client_hashrate hc, rfl⟩))⟩
  | _ => exact absurd hk (by simp [Metric.Exact])

/-- What is set is not stale. -/
theorem not_stale_of_set {previous : Side → LabelSets}
    (h : (rebuild (s.settings m) k).isSome) : k ∉ staleKeys m previous (s.labels m) := by
  intro hstale
  have hk := tracked_of_mem_staleKeys hstale
  exact ((mem_staleKeys hk).mp hstale).2.2 (labels_of_set hk h).2

/-! ### Refreshes

The writes of a refresh in the order of the source. The registry is looked at after each. -/

namespace SnapshotCache

/-- The registry shows the snapshot, and no gauge of channels that are not in it. -/
structure Shows (m : PrometheusMetrics) (s : MonitoringSnapshot H)
    (registry : GaugeKey → Option (GaugeValue H)) : Prop where
  exact : ∀ k : GaugeKey, k.1.Exact → registry k = rebuild (s.settings m) k
  set : ∀ k : GaugeKey, (rebuild (s.settings m) k).isSome →
    registry k = rebuild (s.settings m) k
  labels : ∀ k : GaugeKey, k.1.Tracked → (registry k).isSome →
    m.has k.1 = true ∧ k.2 ∈ LabelSets.of (s.labels m) k.1

/-- Between two refreshes the registry shows the published snapshot, and during one the registry
is on its way from there. -/
structure Follows (m : PrometheusMetrics) (c : SnapshotCache H) : Prop where
  remembered : ∀ metric, LabelSets.of (c.snapshot.labels m) metric ⊆
    LabelSets.of c.previousMetricsLabels metric
  idle : c.refreshing = false → Shows m c.snapshot c.registry
  busy : c.refreshing = true → ∃ base, Shows m c.snapshot base ∧
    Underway base (c.newSnapshot.settings m)
      (staleKeys m c.previousMetricsLabels (c.newSnapshot.labels m)) c.registry c.toSet c.toRemove

/-- A refresh leaves what its snapshot asks for. -/
theorem Shows.refresh {previous : Side → LabelSets} {new : MonitoringSnapshot H}
    {base registry : GaugeKey → Option (GaugeValue H)} (h : Shows m s base)
    (hprevious : ∀ metric, LabelSets.of (s.labels m) metric ⊆ LabelSets.of previous metric)
    (hu : Underway base (new.settings m) (staleKeys m previous (new.labels m)) registry [] []) :
    Shows m new registry := by
  have hset : ∀ k : GaugeKey, (rebuild (new.settings m) k).isSome →
      registry k = rebuild (new.settings m) k := by
    intro k hk
    rw [hu.finish k, if_neg (not_stale_of_set hk)]
    obtain ⟨v, hv⟩ := Option.isSome_iff_exists.mp hk
    rw [hv, Option.some_or]
  have hlabels : ∀ k : GaugeKey, k.1.Tracked → (registry k).isSome →
      m.has k.1 = true ∧ k.2 ∈ LabelSets.of (new.labels m) k.1 := by
    intro k hk hsome
    by_cases hnew : (rebuild (new.settings m) k).isSome
    · exact labels_of_set hk hnew
    · -- an old gauge that was not removed
      have hnone : rebuild (new.settings m) k = none := by simpa using hnew
      rw [hu.finish k, hnone, Option.none_or] at hsome
      split at hsome
      case isTrue => simp at hsome
      case isFalse hstale =>
        obtain ⟨hhas, hold⟩ := h.labels k hk hsome
        refine ⟨hhas, ?_⟩
        by_contra hgone
        exact hstale ((mem_staleKeys hk).mpr ⟨hhas, hprevious k.1 hold, hgone⟩)
  refine ⟨fun k hk => ?_, hset, hlabels⟩
  by_cases hnew : (rebuild (new.settings m) k).isSome
  · exact hset k hnew
  · have hnone : rebuild (new.settings m) k = none := by simpa using hnew
    rw [hnone]
    by_contra hsome
    obtain ⟨hhas, hmem⟩ := hlabels k hk.tracked (Option.isSome_iff_ne_none.mpr hsome)
    exact hnew (set_of_labels hk hhas hmem)

/-- Every event keeps the registry in step with the snapshots. -/
theorem Follows.step {c : SnapshotCache H} (h : c.Follows m) (e : Event H) :
    (c.step m e).Follows m := by
  cases e with
  | refresh new =>
      show Follows m (if _ then _ else _)
      split
      case isTrue => exact h
      case isFalse hidle =>
        have hshows := h.idle (by simpa using hidle)
        exact ⟨h.remembered, (fun hr => nomatch hr), fun _ => ⟨c.registry, hshows,
          Series.underway_start ..⟩⟩
  | advance i =>
      show Follows m (if _ then _ else _)
      split
      case isFalse => exact h
      case isTrue hbusy =>
        obtain ⟨base, hshows, hu⟩ := h.busy hbusy
        split
        case h_1 _ x rest hset =>
          refine ⟨h.remembered, fun hr => absurd (hbusy.symm.trans hr) (by simp),
            fun _ => ⟨base, hshows, ?_⟩⟩
          rw [hset] at hu
          refine hu.write (not_stale_of_set ?_)
          obtain ⟨done, hdone, -⟩ := hu
          exact Series.rebuild_isSome.mpr ⟨x.2, hdone ▸ by simp⟩
        case h_2 k ks hset hremove =>
          refine ⟨h.remembered, fun hr => absurd (hbusy.symm.trans hr) (by simp),
            fun _ => ⟨base, hshows, ?_⟩⟩
          rw [hset, hremove] at hu
          rw [hset]
          refine hu.remove ?_
          by_cases hi : i < (k :: ks).length
          · rw [List.getD_eq_getElem _ _ hi]
            exact List.getElem_mem hi
          · rw [List.getD_eq_default _ _ (Nat.le_of_not_lt hi)]
            exact List.mem_cons_self ..
        case h_3 hset hremove =>
          rw [hset, hremove] at hu
          exact ⟨fun _ => List.Subset.refl _, fun _ => hshows.refresh h.remembered hu,
            (fun hr => nomatch hr)⟩

/-- A cache whose registry is new; `with_metrics` keeps the labels of the registry before. -/
def withMetrics (previous : Side → LabelSets) : SnapshotCache H :=
  { previousMetricsLabels := previous }

theorem follows_withMetrics (m : PrometheusMetrics) (previous : Side → LabelSets) :
    (withMetrics previous : SnapshotCache H).Follows m := by
  have hnone : ∀ k, rebuild (({} : MonitoringSnapshot H).settings m) k = none := fun _ => rfl
  refine ⟨fun metric => ?_, fun _ => ⟨fun k _ => (hnone k).symm, fun k _ => (hnone k).symm,
    fun k _ hk => nomatch hk⟩, (fun hr => nomatch hr)⟩
  have hempty : LabelSets.of (({} : MonitoringSnapshot H).labels m) metric = [] := by
    rcases metric with s | s | s | s | s | s | _ | _ | _ <;> try cases s
    all_goals simp [LabelSets.of, MonitoringSnapshot.labels, MonitoringSnapshot.series,
      MonitoringSnapshot.serverChannels, MonitoringSnapshot.clientChannels]
  show LabelSets.of (({} : MonitoringSnapshot H).labels m) metric ⊆ _
  rw [hempty]
  exact List.nil_subset _

end SnapshotCache

/-- Between two refreshes, after any history, the gauges of the channels are those of a registry
that was emptied and set to the published snapshot: no gauge of a channel that is gone is left and
none is missing. A server channel that announces a hashrate shows it, and the hashrate gauge of a
server channel is there only while the channel is. -/
theorem gauges_rebuilt (m : PrometheusMetrics) (previous : Side → LabelSets)
    (es : List (SnapshotCache.Event H)) :
    let c := exec (SnapshotCache.step m) (SnapshotCache.withMetrics previous) es
    c.refreshing = false →
      (∀ k : GaugeKey, k.1.Exact → c.registry k = rebuild (c.snapshot.settings m) k) ∧
      (∀ k : GaugeKey, (rebuild (c.snapshot.settings m) k).isSome →
        c.registry k = rebuild (c.snapshot.settings m) k) ∧
      ∀ k : GaugeKey, k.1.Tracked → (c.registry k).isSome →
        k.2 ∈ LabelSets.of (c.snapshot.labels m) k.1 := by
  intro c hidle
  have h : c.Follows m :=
    Runs.exec_invariant (fun _ e h => h.step e) (SnapshotCache.follows_withMetrics m previous) es
  obtain ⟨hexact, hset, hlabels⟩ := h.idle hidle
  exact ⟨hexact, hset, fun k hk hsome => (hlabels k hk hsome).2⟩

/-- At every moment of every refresh: a gauge that both the published snapshot and the new one have
is there, and a gauge that is there shows its value of the published snapshot or one that is set
for the new one. -/
theorem gauges_without_gap (m : PrometheusMetrics) (previous : Side → LabelSets)
    (es : List (SnapshotCache.Event H)) :
    let c := exec (SnapshotCache.step m) (SnapshotCache.withMetrics previous) es
    ∀ k : GaugeKey, k.1.Exact →
      ((rebuild (c.snapshot.settings m) k).isSome →
        (rebuild (c.newSnapshot.settings m) k).isSome → (c.registry k).isSome) ∧
      ∀ v, c.registry k = some v → rebuild (c.snapshot.settings m) k = some v ∨
        (k, v) ∈ c.newSnapshot.settings m := by
  intro c k hk
  have h : c.Follows m :=
    Runs.exec_invariant (fun _ e h => h.step e) (SnapshotCache.follows_withMetrics m previous) es
  cases hr : c.refreshing with
  | false =>
      have hshows := (h.idle hr).exact k hk
      exact ⟨fun hold _ => hshows ▸ hold, fun v hv => .inl (hshows ▸ hv)⟩
  | true =>
      obtain ⟨base, hshows, hu⟩ := h.busy hr
      have hbase := hshows.exact k hk
      refine ⟨fun hold hnew => hu.present (hbase ▸ hold) (not_stale_of_set hnew), fun v hv => ?_⟩
      exact (hu.shown hv).imp (fun hb => hbase ▸ hb) id

end GridPoolSv2.StratumApps
