import GridPoolSv2.Pool.Effects
import GridPoolSv2.Pool.FeeRotation

/-!
# Pool.FeeMessages: whether a fee tick tells the channels it rotated

`refresh_gridpool_fee_jobs` goes through all channels first, collects a message for each one it
gives a new job, and forwards the messages afterwards. The model of `ChannelManager` leaves out
that a queue can be closed; here the same call is given the senders of `downstream_sender`:

* a channel that fails ends the loops, and the messages collected so far are dropped;
* a closed queue ends the forwarding, and the messages after it are dropped. The task of a
  downstream closes its queue before it has the downstream removed.

Either way the channels keep the new jobs. `Undisturbed` is the exact condition under which the
call still tells every connected channel of its new job.

Proof shape: the nested loops over downstreams and channels are one sweep over the list `slots`
(`rotateChannels_sweep`), in which the first slot that `stops` ends the call. Each slot is due or
not, independently of the others, so what the call did to a channel can be told from its position:
`replaced_iff` says which channels have a new job, `messages_rotateChannels` which messages were
collected. Forwarding is a second sweep over these messages. `Undisturbed` compares the two, and
`tells_iff_undisturbed` is the equivalence for one call; `fee_tick_tells_connected` is the same for
the tick, with the cases in which no call is made.
-/

namespace GridPoolSv2.Pool

open Consensus (Bytes TxOut)
open Runs (exec)
open Visit

/-- The queue behind a sender of `downstream_sender`. -/
inductive Queue where
  | live
  | closed
  deriving Repr, DecidableEq

/-- `RouteMessageTo::forward`: what is sent. Without a sender the message is dropped. -/
def forward (queue : DownstreamId → Option Queue) (m : Sent) : Except PoolErrorKind (List Sent) :=
  match queue m.downstream with
  | none => .ok []
  | some .live => .ok [m]
  | some .closed => .error .channelErrorSender

/-- Forward the messages from the left until one fails. -/
def forwardAll (queue : DownstreamId → Option Queue) :
    List Sent → List Sent × Option PoolErrorKind
  | [] => ([], none)
  | m :: rest =>
      match forward queue m with
      | .error e => ([], some e)
      | .ok sent =>
          let r := forwardAll queue rest
          (sent ++ r.1, r.2)

/-- The messages of these notes. -/
def messages (notes : List Note) : List Sent :=
  notes.filterMap fun
    | .sent m => some m
    | .built _ => none

/-- The messages before the first closed queue are forwarded. -/
theorem forwardAll_sent (queue : DownstreamId → Option Queue) (ms : List Sent) :
    (forwardAll queue ms).1 =
      (ms.takeWhile fun m => queue m.downstream ≠ some .closed).filter
        fun m => queue m.downstream = some .live := by
  induction ms with
  | nil => rfl
  | cons m rest ih =>
      rw [forwardAll, forward]
      cases hq : queue m.downstream with
      | none => simp [hq, ih]
      | some q => cases q <;> simp [hq, ih]

theorem forwardAll_of_live {queue : DownstreamId → Option Queue} {ms : List Sent}
    (h : ∀ m ∈ ms, queue m.downstream = some .live) : forwardAll queue ms = (ms, none) := by
  induction ms with
  | nil => rfl
  | cons m rest ih =>
      rw [forwardAll, forward, h m List.mem_cons_self,
        ih fun x hx => h x (List.mem_cons_of_mem _ hx)]
      rfl

/-- In a list without repetitions: every `live` element comes before the first `closed` one exactly
if no `closed` element comes before a `live` one. -/
theorem live_before_closed {A : Type*} (live closed : A → Prop) [DecidablePred closed]
    (hne : ∀ x, live x → ¬ closed x) {xs : List A} (hxs : xs.Nodup) :
    (∀ x ∈ xs, live x → x ∈ xs.takeWhile fun x => ¬ closed x) ↔
      xs.Pairwise fun x y => closed x → ¬ live y := by
  induction xs with
  | nil => simp
  | cons x xs ih =>
      obtain ⟨hx, hxs⟩ := List.nodup_cons.mp hxs
      by_cases hc : closed x
      · rw [List.takeWhile_cons_of_neg (by simpa using hc), List.pairwise_cons]
        constructor
        · intro h
          refine ⟨fun y hy _ hl => ?_, ?_⟩
          · exact absurd (h y (List.mem_cons_of_mem _ hy) hl) List.not_mem_nil
          · refine List.pairwise_of_forall_mem_list fun y _ z hz _ hl => ?_
            exact absurd (h z (List.mem_cons_of_mem _ hz) hl) List.not_mem_nil
        · rintro ⟨h, -⟩ y hy hl
          rcases List.mem_cons.mp hy with rfl | hy
          · exact absurd hc (hne _ hl)
          · exact absurd hl (h y hy hc)
      · rw [List.takeWhile_cons_of_pos (by simpa using hc), List.pairwise_cons, ← ih hxs]
        constructor
        · intro h
          refine ⟨fun y _ hcx => absurd hcx hc, fun y hy hl => ?_⟩
          rcases List.mem_cons.mp (h y (List.mem_cons_of_mem _ hy) hl) with rfl | hmem
          · exact absurd hy hx
          · exact hmem
        · rintro ⟨-, h⟩ y hy hl
          rcases List.mem_cons.mp hy with rfl | hy
          · exact List.mem_cons_self
          · exact List.mem_cons_of_mem _ (h y hy hl)

/-! ### The call -/

namespace ChannelManager

variable {env : Env}

/-- What a call of `refresh_gridpool_fee_jobs` leaves behind. -/
structure FeeCall (env : Env) where
  downstreams : AList fun _ : DownstreamId => Downstream env.channels
  sent : List Sent
  error : Option PoolError

/-- The loops of `refresh_gridpool_fee_jobs`. -/
def rotateChannels (s : ChannelManager env.channels) (g : GridPoolClient) (t : NewTemplate)
    (clock : DownstreamId → ChannelId → UInt64) :
    Outcome (AList fun _ : DownstreamId => Downstream env.channels) Note PoolErrorKind :=
  visit (fun d ds => ds.visitBoth .standard .extended (s.refreshChannel g t clock d)) s.downstreams

/-- `refresh_gridpool_fee_jobs` over these senders. -/
def refreshGridpoolFeeJobsOver (s : ChannelManager env.channels)
    (queue : DownstreamId → Option Queue) (now : UInt64)
    (clock : DownstreamId → ChannelId → UInt64) : FeeCall env :=
  match s.gridpool, s.lastFutureTemplate with
  | some g, some template =>
      match commitGridpoolJobRefresh { template with futureTemplate := false } now with
      | .error e => ⟨s.downstreams, [], some (.shutdown e)⟩
      | .ok t =>
          let o := s.rotateChannels g t clock
          match o.error with
          | some e => ⟨o.value, [], some (.shutdown e)⟩
          | none =>
              let r := forwardAll queue (messages o.notes)
              ⟨o.value, r.1, r.2.map .shutdown⟩
  | _, _ => ⟨s.downstreams, [], none⟩

/-- Over live queues this is the call of `refreshGridpoolFeeJobs`. -/
theorem refreshGridpoolFeeJobsOver_of_live (s : ChannelManager env.channels)
    {queue : DownstreamId → Option Queue} (h : ∀ d, queue d = some .live) (now : UInt64)
    (clock : DownstreamId → ChannelId → UInt64) :
    let r := s.refreshGridpoolFeeJobsOver queue now clock
    (s.refreshGridpoolFeeJobs now clock).1.downstreams = r.downstreams ∧
      messages (s.refreshGridpoolFeeJobs now clock).1.history = messages s.history ++ r.sent ∧
      (s.refreshGridpoolFeeJobs now clock).2 = r.error := by
  dsimp only
  cases hg : s.gridpool with
  | none => simp [refreshGridpoolFeeJobs, refreshGridpoolFeeJobsOver, hg]
  | some g =>
      cases hlast : s.lastFutureTemplate with
      | none => simp [refreshGridpoolFeeJobs, refreshGridpoolFeeJobsOver, hg, hlast]
      | some template =>
          cases ht : commitGridpoolJobRefresh { template with futureTemplate := false } now with
          | error e => simp [refreshGridpoolFeeJobs, refreshGridpoolFeeJobsOver, hg, hlast, ht]
          | ok t =>
              have hloops : visit (fun d ds => ds.visitBoth .standard .extended
                  (s.refreshChannel g t clock d)) s.downstreams = s.rotateChannels g t clock := rfl
              simp only [refreshGridpoolFeeJobs, refreshGridpoolFeeJobsOver, hg, hlast, ht, hloops,
                conclude_fst]
              cases he : (s.rotateChannels g t clock).error with
              | none =>
                  simp only [forwardAll_of_live fun m _ => h m.downstream]
                  exact ⟨trivial, by simp [messages, keptNotes, he], by simp [conclude, he]⟩
              | some e =>
                  refine ⟨rfl, ?_, by simp [conclude, he]⟩
                  simp only [keptNotes, he, messages, List.filterMap_append]
                  congr 1
                  rw [List.filterMap_eq_nil_iff]
                  intro x hx
                  cases x with
                  | built b => rfl
                  | sent m => simp [Note.isBuilt] at hx

/-! ### The order of the visits

`slots` are the channels in the order the loops visit them. A slot is `due` if its outputs differ,
and it `stops` the loops if they cannot be computed or the channel refuses the template. -/

/-- One channel of the loops, with its state before the call. -/
structure Slot (api : ChannelsSv2) where
  downstream : DownstreamId
  kind : ChannelKind
  channel : ChannelId
  state : api.Channel

/-- The channels of one downstream, in the order of the loops. -/
def downstreamSlots (d : DownstreamId) (ds : Downstream env.channels) : List (Slot env.channels) :=
  ((ds.channels .standard).entries.map fun x => ⟨d, .standard, x.1, x.2⟩) ++
    (ds.channels .extended).entries.map fun x => ⟨d, .extended, x.1, x.2⟩

/-- All channels, in the order of the loops. -/
def slots (s : ChannelManager env.channels) : List (Slot env.channels) :=
  s.downstreams.entries.flatMap fun x => downstreamSlots x.1 x.2

section Order

variable (s : ChannelManager env.channels) (g : GridPoolClient) (t : NewTemplate)
  (clock : DownstreamId → ChannelId → UInt64)

/-- The outputs the tick computes for a channel with a recorded payout. -/
def feeOutputs (x : Slot env.channels) : Option (Except String (List TxOut)) :=
  (s.gridpoolChannels (x.downstream, x.channel)).map fun payout =>
    g.coinbaseOutputs env.readAddress payout t.coinbaseTxValueRemaining
      (clock x.downstream x.channel)

/-- The active job of the channel does not have the outputs the tick computes. -/
def due (x : Slot env.channels) : Bool :=
  match s.feeOutputs g t clock x with
  | some (.ok outputs) =>
      !(env.channels.channel.activeJob x.state).any fun j => outputs.isPrefixOf j.coinbaseOutputs
  | _ => false

/-- The channel ends the loops: its outputs cannot be computed, or it is due and does not take the
template. -/
def stops (x : Slot env.channels) : Bool :=
  match s.feeOutputs g t clock x with
  | none => false
  | some (.error _) => true
  | some (.ok outputs) =>
      s.due g t clock x && !(env.channels.channel.onNewTemplate x.state t outputs).isOk

/-- No connected channel is rotated and then forgotten. If a channel ends the loops, none of the
channels before it may be due; if none does, no due channel of a closed queue may come before a due
channel of a live one. -/
def Undisturbed (queue : DownstreamId → Option Queue) : Prop :=
  if ∀ x ∈ s.slots, s.stops g t clock x = false then
    (s.slots.filter (s.due g t clock)).Pairwise fun x y =>
      queue x.downstream = some .closed → ¬ queue y.downstream = some .live
  else
    ∀ x ∈ s.slots.takeWhile fun x => !s.stops g t clock x,
      s.due g t clock x = true → ¬ queue x.downstream = some .live

end Order

instance (s : ChannelManager env.channels) (g : GridPoolClient) (t : NewTemplate)
    (clock : DownstreamId → ChannelId → UInt64) (queue : DownstreamId → Option Queue) :
    Decidable (s.Undisturbed g t clock queue) := by
  unfold Undisturbed
  infer_instance

/-- The call gave the channel the new active job `job`. -/
def Replaced (s : ChannelManager env.channels) (r : FeeCall env) (d : DownstreamId)
    (k : ChannelKind) (c : ChannelId) (job : Job) : Prop :=
  ∃ ds ch ds' ch', s.downstreams.lookup d = some ds ∧ (ds.channels k).lookup c = some ch ∧
    r.downstreams.lookup d = some ds' ∧ (ds'.channels k).lookup c = some ch' ∧
    env.channels.channel.activeJob ch' = some job ∧ env.channels.channel.activeJob ch ≠ some job

/-- Every channel of a connected downstream whose active job the call replaced is sent the message
of its new job. -/
def TellsConnected (s : ChannelManager env.channels) (queue : DownstreamId → Option Queue)
    (now : UInt64) (clock : DownstreamId → ChannelId → UInt64) : Prop :=
  let r := s.refreshGridpoolFeeJobsOver queue now clock
  ∀ d k c job, queue d = some .live → Replaced s r d k c job → ⟨d, .job k c job, [c]⟩ ∈ r.sent

/-! ### The loops as one sweep -/

section Loops

variable {s : ChannelManager env.channels} {g : GridPoolClient} {t : NewTemplate}
  {clock : DownstreamId → ChannelId → UInt64}

/-- What the loops do to one channel. -/
def rotate (s : ChannelManager env.channels) (g : GridPoolClient) (t : NewTemplate)
    (clock : DownstreamId → ChannelId → UInt64) (x : Slot env.channels) :
    Outcome env.channels.Channel Note PoolErrorKind :=
  s.refreshChannel g t clock x.downstream x.kind x.channel x.state

/-- The spec of a visit: it fails exactly on the channels that end the loops, and changes exactly
the due ones. -/
theorem rotate_spec (s : ChannelManager env.channels) (g : GridPoolClient)
    (clock : DownstreamId → ChannelId → UInt64) (law : env.channels.Lawful)
    (htick : t.futureTemplate = false) (x : Slot env.channels) :
    let o := s.rotate g t clock x
    (s.stops g t clock x = true ∧ o.error ≠ none ∧ o.value = x.state) ∨
      (s.stops g t clock x = false ∧ s.due g t clock x = false ∧ o.error = none ∧
        o.value = x.state ∧ messages o.notes = []) ∨
      (s.stops g t clock x = false ∧ s.due g t clock x = true ∧ o.error = none ∧
        ∃ job, env.channels.channel.activeJob o.value = some job ∧
          env.channels.channel.activeJob x.state ≠ some job ∧
          messages o.notes = [⟨x.downstream, .job x.kind x.channel job, [x.channel]⟩]) := by
  dsimp only
  unfold rotate refreshChannel stops due feeOutputs
  cases hpayout : s.gridpoolChannels (x.downstream, x.channel) with
  | none => exact .inr (.inl ⟨rfl, rfl, rfl, rfl, rfl⟩)
  | some payout =>
      simp only [Option.map_some]
      cases houtputs : g.coinbaseOutputs env.readAddress payout t.coinbaseTxValueRemaining
        (clock x.downstream x.channel) with
      | error e => exact .inl ⟨rfl, by simp, rfl⟩
      | ok outputs =>
          dsimp only
          by_cases hsame : (env.channels.channel.activeJob x.state).any
            (fun j => outputs.isPrefixOf j.coinbaseOutputs) = true
          · rw [if_pos hsame]
            exact .inr (.inl ⟨by simp [hsame], by simp [hsame], rfl, rfl, rfl⟩)
          · rw [if_neg hsame]
            have hdue : (env.channels.channel.activeJob x.state).any
              (fun j => outputs.isPrefixOf j.coinbaseOutputs) = false := by simpa using hsame
            unfold giveTemplate
            cases hgive : env.channels.channel.onNewTemplate x.state t outputs with
            | error e => exact .inl ⟨by simp [hdue, Except.isOk, Except.toBool], by simp, rfl⟩
            | ok ch' =>
                obtain ⟨job, hb, hactive, -⟩ := law.channel.onNewTemplate_active hgive htick
                refine .inr (.inr ⟨by simp [Except.isOk, Except.toBool], by simp [hdue], ?_⟩)
                simp only [jobOf, htick, Bool.false_eq_true, if_false, hactive]
                refine ⟨trivial, job, rfl, ?_, by simp [messages, builtNote]⟩
                -- the new job has the computed outputs, the old one has not
                intro hold
                obtain ⟨rest, hrest⟩ := hb.outputs
                rw [hold, Option.any_some, hrest,
                  List.isPrefixOf_iff_prefix.mpr (List.prefix_append _ _)] at hdue
                cases hdue

theorem rotate_error (s : ChannelManager env.channels) (g : GridPoolClient)
    (clock : DownstreamId → ChannelId → UInt64) (law : env.channels.Lawful)
    (htick : t.futureTemplate = false) (x : Slot env.channels) :
    (s.rotate g t clock x).error.isNone = !s.stops g t clock x := by
  rcases rotate_spec s g clock law htick x with
    ⟨hstop, herr, -⟩ | ⟨hstop, -, herr, -⟩ | ⟨hstop, -, herr, -⟩
  · cases he : (s.rotate g t clock x).error with
    | none => exact absurd he herr
    | some e => simp [hstop]
  · simp [hstop, herr]
  · simp [hstop, herr]

/-- A due channel that does not end the loops gets a new active job. -/
theorem exists_newJob (law : env.channels.Lawful) (htick : t.futureTemplate = false)
    {x : Slot env.channels} (hok : s.stops g t clock x = false) (hdue : s.due g t clock x = true) :
    ∃ job, env.channels.channel.activeJob (s.rotate g t clock x).value = some job ∧
      env.channels.channel.activeJob x.state ≠ some job := by
  rcases rotate_spec s g clock law htick x with
    ⟨hstop, -⟩ | ⟨-, hnot, -⟩ | ⟨-, -, -, job, hactive, hold, -⟩
  · rw [hok] at hstop
    cases hstop
  · rw [hdue] at hnot
    cases hnot
  · exact ⟨job, hactive, hold⟩

/-- The loops over one downstream sweep its channels. -/
theorem visitBoth_sweep (law : env.channels.Lawful) (htick : t.futureTemplate = false)
    (d : DownstreamId) (ds : Downstream env.channels) :
    Sweep (downstreamSlots d ds) (s.rotate g t clock) (fun x => x.state)
      (fun ds' x => (ds'.channels x.kind).lookup x.channel)
      (ds.visitBoth .standard .extended (s.refreshChannel g t clock d)) := by
  have hkind : ∀ (k : ChannelKind) (ds' : Downstream env.channels),
      Sweep ((ds'.channels k).entries.map fun x => (⟨d, k, x.1, x.2⟩ : Slot env.channels))
        (s.rotate g t clock) (fun x => x.state) (fun ds' x =>
          (ds'.channels x.kind).lookup x.channel)
        (ds'.visitChannels k (s.refreshChannel g t clock d k)) := by
    intro k ds'
    have hsweep : Sweep ((ds'.channels k).entries.flatMap fun x =>
          [(⟨d, k, x.1, x.2⟩ : Slot env.channels)])
        (s.rotate g t clock) (fun x => x.state) (fun m x => (m.lookup x.channel).bind some)
        (visit (s.refreshChannel g t clock d k) (ds'.channels k)) := by
      refine visit_sweep (f := s.refreshChannel g t clock d k)
        (fun c ch => [(⟨d, k, c, ch⟩ : Slot env.channels)]) (fun x : Slot env.channels => x.channel)
        (fun ch _ => some ch) ?_ ?_
      · intro c ch x hx
        obtain rfl := List.mem_singleton.mp hx
        exact ⟨rfl, rfl⟩
      · intro x _
        refine Sweep.single (s.rotate g t clock) ⟨d, k, x.1, x.2⟩ rfl fun hfail => ?_
        rcases rotate_spec s g clock law htick ⟨d, k, x.1, x.2⟩ with
          ⟨-, -, hval⟩ | ⟨-, -, herr, -⟩ | ⟨-, -, herr, -⟩
        · exact hval
        · exact absurd herr hfail
        · exact absurd herr hfail
    rw [← List.map_eq_flatMap] at hsweep
    refine hsweep.congr rfl rfl fun x hx => ?_
    obtain ⟨y, -, rfl⟩ := List.mem_map.mp hx
    rw [Downstream.visitChannels_self, Option.bind_fun_some]
  have hmem : ∀ {k : ChannelKind} {ds' : Downstream env.channels} {x : Slot env.channels},
      x ∈ ((ds'.channels k).entries.map fun x => (⟨d, k, x.1, x.2⟩ : Slot env.channels)) →
        x.kind = k ∧ (ds'.channels k).lookup x.channel = some x.state := by
    intro k ds' x hx
    obtain ⟨y, hy, rfl⟩ := List.mem_map.mp hx
    exact ⟨rfl, AList.mem_lookup_iff.mpr hy⟩
  have hne : ChannelKind.extended ≠ .standard := by decide
  refine Sweep.append (hkind .standard ds) (fun _ => ?_) ?_ ?_
  · have hext := hkind .extended
      (ds.visitChannels .standard (s.refreshChannel g t clock d .standard)).value
    rwa [Downstream.visitChannels_of_ne hne] at hext
  · intro x hx
    rw [(hmem hx).1, Downstream.visitChannels_of_ne hne.symm]
  · intro x hx _
    rw [(hmem hx).1, Downstream.visitChannels_of_ne hne]
    exact (hmem hx).2

/-- **The loops of the fee tick are one sweep** over the channels, in the order of `slots`. -/
theorem rotateChannels_sweep (s : ChannelManager env.channels) (g : GridPoolClient)
    (clock : DownstreamId → ChannelId → UInt64) (law : env.channels.Lawful)
    (htick : t.futureTemplate = false) :
    Sweep s.slots (s.rotate g t clock) (fun x => x.state)
      (fun m x => (m.lookup x.downstream).bind fun ds => (ds.channels x.kind).lookup x.channel)
      (s.rotateChannels g t clock) := by
  refine visit_sweep downstreamSlots (fun x => x.downstream)
    (fun ds x => (ds.channels x.kind).lookup x.channel) ?_ ?_
  · intro d ds x hx
    rcases List.mem_append.mp hx with hx | hx
    · obtain ⟨y, hy, rfl⟩ := List.mem_map.mp hx
      exact ⟨rfl, AList.mem_lookup_iff.mpr hy⟩
    · obtain ⟨y, hy, rfl⟩ := List.mem_map.mp hx
      exact ⟨rfl, AList.mem_lookup_iff.mpr hy⟩
  · intro x _
    exact visitBoth_sweep law htick x.1 x.2

end Loops

/-! ### Who is told

What was collected comes from the slots before the first one that stops the loops, and what is
forwarded before the first one with a closed queue. -/

section Told

variable {s : ChannelManager env.channels}

theorem mem_slots {x : Slot env.channels} :
    x ∈ s.slots ↔ ∃ ds, s.downstreams.lookup x.downstream = some ds ∧
      (ds.channels x.kind).lookup x.channel = some x.state := by
  rw [slots, List.mem_flatMap]
  constructor
  · rintro ⟨⟨d, ds⟩, hds, hx⟩
    rcases List.mem_append.mp hx with hx | hx
    · obtain ⟨y, hy, rfl⟩ := List.mem_map.mp hx
      exact ⟨ds, AList.mem_lookup_iff.mpr hds, AList.mem_lookup_iff.mpr hy⟩
    · obtain ⟨y, hy, rfl⟩ := List.mem_map.mp hx
      exact ⟨ds, AList.mem_lookup_iff.mpr hds, AList.mem_lookup_iff.mpr hy⟩
  · rintro ⟨ds, hds, hch⟩
    refine ⟨⟨x.downstream, ds⟩, AList.mem_lookup_iff.mp hds, ?_⟩
    have hmem := AList.mem_lookup_iff.mp hch
    obtain ⟨d, k, c, ch⟩ := x
    cases k with
    | standard => exact List.mem_append_left _ (List.mem_map.mpr ⟨⟨c, ch⟩, hmem, rfl⟩)
    | extended => exact List.mem_append_right _ (List.mem_map.mpr ⟨⟨c, ch⟩, hmem, rfl⟩)

/-- The ids of a slot determine it. -/
theorem slots_ext {x y : Slot env.channels} (hx : x ∈ s.slots) (hy : y ∈ s.slots)
    (hd : x.downstream = y.downstream) (hk : x.kind = y.kind) (hc : x.channel = y.channel) :
    x = y := by
  obtain ⟨ds, hds, hch⟩ := mem_slots.mp hx
  obtain ⟨ds', hds', hch'⟩ := mem_slots.mp hy
  obtain ⟨d, k, c, ch⟩ := x
  obtain ⟨d', k', c', ch'⟩ := y
  dsimp only at hd hk hc hds hch hds' hch'
  subst hd hk hc
  obtain rfl := Option.some.inj (hds.symm.trans hds')
  obtain rfl := Option.some.inj (hch.symm.trans hch')
  rfl

theorem slots_nodup (s : ChannelManager env.channels) : s.slots.Nodup := by
  rw [slots, List.nodup_flatMap]
  constructor
  · intro ⟨d, ds⟩ _
    have hkind : ∀ k : ChannelKind,
        ((ds.channels k).entries.map fun x => (⟨d, k, x.1, x.2⟩ : Slot env.channels)).Nodup := by
      intro k
      refine (ds.channels k).nodupKeys.nodup.map ?_
      rintro ⟨c, ch⟩ ⟨c', ch'⟩ heq
      cases heq
      rfl
    refine (hkind .standard).append (hkind .extended) ?_
    intro x hx hx'
    obtain ⟨y, -, rfl⟩ := List.mem_map.mp hx
    obtain ⟨z, -, hz⟩ := List.mem_map.mp hx'
    cases hz
  · refine (List.nodupKeys_iff_pairwise.mp s.downstreams.nodupKeys).imp ?_
    intro x y hne z hzx hzy
    have hof : ∀ {w : Sigma fun _ : DownstreamId => Downstream env.channels},
        z ∈ downstreamSlots w.1 w.2 → z.downstream = w.1 := by
      intro w hz
      rcases List.mem_append.mp hz with hz | hz
      · obtain ⟨v, -, rfl⟩ := List.mem_map.mp hz
        rfl
      · obtain ⟨v, -, rfl⟩ := List.mem_map.mp hz
        rfl
    exact hne ((hof hzx).symm.trans (hof hzy))

variable {g : GridPoolClient} {t : NewTemplate} {clock : DownstreamId → ChannelId → UInt64}

/-- The message of a due channel that does not end the loops. -/
theorem exists_message (s : ChannelManager env.channels) (g : GridPoolClient)
    (clock : DownstreamId → ChannelId → UInt64) (law : env.channels.Lawful)
    (htick : t.futureTemplate = false) (x : Slot env.channels) :
    ∃ m : Sent, m.downstream = x.downstream ∧ (s.stops g t clock x = false →
      messages (s.rotate g t clock x).notes = if s.due g t clock x then [m] else []) ∧
      ∀ job, s.stops g t clock x = false → s.due g t clock x = true →
        (env.channels.channel.activeJob (s.rotate g t clock x).value = some job ↔
          m = ⟨x.downstream, .job x.kind x.channel job, [x.channel]⟩) := by
  rcases rotate_spec s g clock law htick x with
    ⟨hstop, -⟩ | ⟨-, hdue, -, -, hn⟩ | ⟨-, hdue, -, job, hjob, -, hn⟩
  · exact ⟨⟨x.downstream, .openMiningChannelError 0 .invalidUserIdentity, []⟩, rfl,
      by simp [hstop], by simp [hstop]⟩
  · exact ⟨⟨x.downstream, .openMiningChannelError 0 .invalidUserIdentity, []⟩, rfl,
      by simp [hdue, hn], by simp [hdue]⟩
  · refine ⟨⟨x.downstream, .job x.kind x.channel job, [x.channel]⟩, rfl, by simp [hdue, hn], ?_⟩
    intro job' _ _
    rw [hjob]
    cases x.kind <;> simp [Mining.job]

/-- The loops reached the channels before the first one that stops them. -/
theorem reached_eq (s : ChannelManager env.channels) (g : GridPoolClient)
    (clock : DownstreamId → ChannelId → UInt64) (law : env.channels.Lawful)
    (htick : t.futureTemplate = false) :
    (s.slots.takeWhile fun x => (s.rotate g t clock x).error.isNone) =
      s.slots.takeWhile fun x => !s.stops g t clock x := by
  simp only [rotate_error s g clock law htick]

/-- The loops left a channel as it was, or it is due and they reached it. -/
theorem rotateChannels_channel (law : env.channels.Lawful) (htick : t.futureTemplate = false)
    {x : Slot env.channels} (hx : x ∈ s.slots) {ch' : env.channels.Channel}
    (h : ((s.rotateChannels g t clock).value.lookup x.downstream).bind
      (fun ds => (ds.channels x.kind).lookup x.channel) = some ch') :
    ch' = x.state ∨ x ∈ s.slots.takeWhile (fun x => !s.stops g t clock x) ∧
      s.due g t clock x = true ∧ ch' = (s.rotate g t clock x).value := by
  have hsweep := rotateChannels_sweep s g clock law htick
  by_cases hreached : x ∈ s.slots.takeWhile fun x => (s.rotate g t clock x).error.isNone
  · obtain rfl := Option.some.inj ((hsweep.reached x hreached).symm.trans h)
    rcases rotate_spec s g clock law htick x with
      ⟨-, -, hsame⟩ | ⟨-, -, -, hsame, -⟩ | ⟨-, hdue, -⟩
    · exact .inl hsame
    · exact .inl hsame
    · exact .inr ⟨reached_eq s g clock law htick ▸ hreached, hdue, rfl⟩
  · exact .inl (Option.some.inj ((hsweep.unreached x hx hreached).symm.trans h)).symm

/-- The channels the call replaced a job of are the due ones among those it reached. -/
theorem replaced_iff (law : env.channels.Lawful) (htick : t.futureTemplate = false)
    {r : FeeCall env} (hr : r.downstreams = (s.rotateChannels g t clock).value) {d : DownstreamId}
    {k : ChannelKind} {c : ChannelId} {job : Job} :
    Replaced s r d k c job ↔
      ∃ x ∈ s.slots.takeWhile fun x => !s.stops g t clock x, s.due g t clock x = true ∧
        x.downstream = d ∧ x.kind = k ∧ x.channel = c ∧
        env.channels.channel.activeJob (s.rotate g t clock x).value = some job := by
  constructor
  · rintro ⟨ds, ch, ds', ch', hds, hch, hds', hch', hjob, hold⟩
    have hmem : (⟨d, k, c, ch⟩ : Slot env.channels) ∈ s.slots := mem_slots.mpr ⟨ds, hds, hch⟩
    have hlook : ((r.downstreams.lookup d).bind fun ds => (ds.channels k).lookup c) = some ch' := by
      rw [hds', Option.bind_some, hch']
    rw [hr] at hlook
    rcases rotateChannels_channel law htick hmem hlook with rfl | ⟨hreached, hdue, rfl⟩
    · exact absurd hjob hold
    · exact ⟨_, hreached, hdue, rfl, rfl, rfl, hjob⟩
  · rintro ⟨x, hx, hdue, rfl, rfl, rfl, hjob⟩
    obtain ⟨ds, hds, hch⟩ := mem_slots.mp ((List.takeWhile_sublist _).mem hx)
    rw [← reached_eq s g clock law htick] at hx
    have hok : (s.rotate g t clock x).error.isNone = true :=
      List.mem_takeWhile_imp (p := fun x => (s.rotate g t clock x).error.isNone) hx
    have hlook := (rotateChannels_sweep s g clock law htick).reached x hx
    rw [← hr] at hlook
    obtain ⟨ds', hds', hch'⟩ := Option.bind_eq_some_iff.mp hlook
    refine ⟨ds, x.state, ds', _, hds, hch, hds', hch', hjob, ?_⟩
    rw [rotate_error s g clock law htick] at hok
    obtain ⟨job', hjob', hold⟩ := exists_newJob law htick (by simpa using hok) hdue
    rw [hjob] at hjob'
    rwa [Option.some.inj hjob']

/-- The messages of loops without an error are those of the due channels, in their order. -/
theorem messages_rotateChannels (law : env.channels.Lawful) (htick : t.futureTemplate = false)
    (hok : ∀ x ∈ s.slots, s.stops g t clock x = false) {msg : Slot env.channels → Sent}
    (hmsg : ∀ x, s.stops g t clock x = false →
      messages (s.rotate g t clock x).notes = if s.due g t clock x then [msg x] else []) :
    (s.rotateChannels g t clock).error = none ∧
      messages (s.rotateChannels g t clock).notes =
        (s.slots.filter (s.due g t clock)).map msg := by
  have hsweep := rotateChannels_sweep s g clock law htick
  have herr : (s.rotateChannels g t clock).error = none := by
    rw [hsweep.error]
    intro x hx
    rw [← Option.isNone_iff_eq_none, rotate_error s g clock law htick, hok x hx]
    rfl
  refine ⟨herr, ?_⟩
  rw [hsweep.notes herr, messages, List.filterMap_flatMap]
  generalize s.slots = xs at hok
  induction xs with
  | nil => rfl
  | cons x xs ih =>
      have hx := hmsg x (hok x List.mem_cons_self)
      rw [messages] at hx
      rw [List.flatMap_cons, hx, ih fun y hy => hok y (List.mem_cons_of_mem _ hy)]
      cases hdue : s.due g t clock x with
      | true => simp [hdue]
      | false => simp [hdue]

/-- A call that reaches its loops tells the connected channels exactly if they are undisturbed. -/
theorem tells_iff_undisturbed (law : env.channels.Lawful) {queue : DownstreamId → Option Queue}
    {last : NewTemplate} {now : UInt64} (hg : s.gridpool = some g)
    (hlast : s.lastFutureTemplate = some last)
    (ht : commitGridpoolJobRefresh { last with futureTemplate := false } now = .ok t) :
    TellsConnected s queue now clock ↔ s.Undisturbed g t clock queue := by
  have htick : t.futureTemplate = false := (isTick_of_commit ht).futureTemplate
  unfold TellsConnected
  dsimp only
  generalize hcall : s.refreshGridpoolFeeJobsOver queue now clock = r
  simp only [refreshGridpoolFeeJobsOver, hg, hlast, ht] at hcall
  have hr : r.downstreams = (s.rotateChannels g t clock).value := by
    rw [← hcall]
    cases (s.rotateChannels g t clock).error <;> rfl
  have hsent : r.sent = if (s.rotateChannels g t clock).error = none then
      (forwardAll queue (messages (s.rotateChannels g t clock).notes)).1 else [] := by
    rw [← hcall]
    cases (s.rotateChannels g t clock).error <;> rfl
  unfold Undisturbed
  split
  · rename_i hok
    choose msg hdown hmsg hjob using exists_message s g clock law htick
    obtain ⟨herr, hn⟩ := messages_rotateChannels law htick hok hmsg
    have hall : (s.slots.takeWhile fun x => !s.stops g t clock x) = s.slots :=
      List.takeWhile_eq_self_iff.mpr fun x hx => by simp [hok x hx]
    have hforwarded : r.sent = (((s.slots.filter (s.due g t clock)).takeWhile
        fun x => ¬ queue x.downstream = some .closed).map msg).filter
          fun m => queue m.downstream = some .live := by
      rw [hsent, if_pos herr, forwardAll_sent, hn, List.takeWhile_map]
      simp only [Function.comp_def, hdown, ne_eq]
    rw [← live_before_closed (fun x => queue x.downstream = some .live)
      (fun x => queue x.downstream = some .closed) (by simp +contextual) ((slots_nodup s).filter _)]
    constructor
    · -- the message of a due channel is its own, so it is the channel that was reached
      intro h x hx hlive
      obtain ⟨hxs, hdue⟩ := List.mem_filter.mp hx
      obtain ⟨job, hactive, -⟩ := exists_newJob law htick (hok x hxs) hdue
      have hreplaced : Replaced s r x.downstream x.kind x.channel job :=
        (replaced_iff law htick hr).mpr ⟨x, by rw [hall]; exact hxs, hdue, rfl, rfl, rfl, hactive⟩
      have hmem := h _ _ _ _ hlive hreplaced
      rw [hforwarded] at hmem
      obtain ⟨y, hy, hmy⟩ := List.mem_map.mp (List.mem_filter.mp hmem).1
      obtain ⟨hys, hdueY⟩ := List.mem_filter.mp ((List.takeWhile_sublist _).mem hy)
      obtain ⟨jobY, hactiveY, -⟩ := exists_newJob law htick (hok y hys) hdueY
      have hown := (hjob y jobY (hok y hys) hdueY).mp hactiveY
      rw [hmy] at hown
      obtain ⟨hd, hm, hc⟩ := Sent.mk.inj hown
      rwa [slots_ext hxs hys hd (Mining.job_inj hm).1 (List.singleton_inj.mp hc)]
    · intro h d k c job hlive hreplaced
      obtain ⟨x, hx, hdue, rfl, rfl, rfl, hactive⟩ := (replaced_iff law htick hr).mp hreplaced
      rw [hall] at hx
      have hmsgx := (hjob x job (hok x hx) hdue).mp hactive
      rw [hforwarded, List.mem_filter]
      refine ⟨List.mem_map.mpr ⟨x, h x (List.mem_filter.mpr ⟨hx, hdue⟩) hlive, hmsgx⟩, ?_⟩
      simpa using hlive
  · rename_i hfail
    have herr : (s.rotateChannels g t clock).error ≠ none := by
      rw [ne_eq, (rotateChannels_sweep s g clock law htick).error]
      intro hnone
      refine hfail fun x hx => ?_
      have hisNone := rotate_error s g clock law htick x
      rw [hnone x hx] at hisNone
      simpa using hisNone.symm
    rw [hsent, if_neg herr]
    constructor
    · intro h x hx hdue hlive
      have hnot : s.stops g t clock x = false := by
        simpa using List.mem_takeWhile_imp (p := fun x => !s.stops g t clock x) hx
      obtain ⟨job, hactive, -⟩ := exists_newJob law htick hnot hdue
      exact absurd (h _ _ _ _ hlive ((replaced_iff law htick hr).mpr
        ⟨x, hx, hdue, rfl, rfl, rfl, hactive⟩)) List.not_mem_nil
    · intro h d k c job hlive hreplaced
      obtain ⟨x, hx, hdue, rfl, rfl, rfl, -⟩ := (replaced_iff law htick hr).mp hreplaced
      exact absurd hlive (h x hx hdue)

end Told

/-- A call of `refresh_gridpool_fee_jobs`, over any senders, tells every connected channel whose
active job it replaced exactly if its channels are undisturbed. -/
theorem fee_tick_tells_connected (law : env.channels.Lawful) (s : ChannelManager env.channels)
    (queue : DownstreamId → Option Queue) (now : UInt64)
    (clock : DownstreamId → ChannelId → UInt64) :
    TellsConnected s queue now clock ↔
      ∀ g last t, s.gridpool = some g → s.lastFutureTemplate = some last →
        commitGridpoolJobRefresh { last with futureTemplate := false } now = .ok t →
        s.Undisturbed g t clock queue := by
  -- without a loop no job is replaced
  have hidle : (s.refreshGridpoolFeeJobsOver queue now clock).downstreams = s.downstreams →
      TellsConnected s queue now clock := by
    rintro hsame d k c job - ⟨ds, ch, ds', ch', hds, hch, hds', hch', hjob, hold⟩
    rw [hsame] at hds'
    obtain rfl := Option.some.inj (hds.symm.trans hds')
    obtain rfl := Option.some.inj (hch.symm.trans hch')
    exact absurd hjob hold
  cases hg : s.gridpool with
  | none =>
      refine iff_of_true (hidle ?_) fun g last t h => by cases h
      simp [refreshGridpoolFeeJobsOver, hg]
  | some g =>
      cases hlast : s.lastFutureTemplate with
      | none =>
          refine iff_of_true (hidle ?_) fun g last t _ h => by cases h
          simp [refreshGridpoolFeeJobsOver, hg, hlast]
      | some last =>
          cases ht : commitGridpoolJobRefresh { last with futureTemplate := false } now with
          | error e =>
              refine iff_of_true (hidle ?_) ?_
              · simp [refreshGridpoolFeeJobsOver, hg, hlast, ht]
              · rintro g last' t - h htick
                obtain rfl := Option.some.inj h
                rw [ht] at htick
                cases htick
          | ok t =>
              rw [tells_iff_undisturbed law hg hlast ht]
              constructor
              · rintro h g' last' t' hg' hlast' ht'
                obtain rfl := Option.some.inj hg'
                obtain rfl := Option.some.inj hlast'
                rw [ht] at ht'
                rwa [← Except.ok.inj ht']
              · exact fun h => h g last t rfl rfl ht

/-! ### Two downstreams and a new work selection -/

/-- Two downstreams open a channel each, and then the node has a new selection. The loops visit the
second downstream first. -/
def newSelection : List Event :=
  [.newTemplate (Reference.template 1 true 5000000000) (fun _ => .error "unreachable")
      (fun _ _ => 0),
    .setNewPrevHash (Reference.prevHash 1 1), .connect false false, .connect false false,
    .openChannel .extended 1 Reference.openRequest (.ok [1, 2, 3, 4]) 0,
    .openChannel .extended 2 Reference.openRequest (.ok [1, 2, 3, 5]) 0,
    .poll (.ok (Reference.selection "tip" [Reference.suffixOutput 200]))]

/-- The queue of one of them is closed. -/
def oneClosed (d : DownstreamId) : DownstreamId → Option Queue :=
  fun d' => some (if d' = d then .closed else .live)

/-- The number of the active job of a channel. -/
def activeJobIn (m : AList fun _ : DownstreamId => Downstream Reference.env.channels)
    (d : DownstreamId) : Option JobId :=
  (m.lookup d).bind fun ds => ((ds.channels .extended).lookup 2).bind fun ch =>
    (Reference.env.channels.channel.activeJob ch).map (·.jobId)

/-- Downstream 1 is visited last. With its queue closed, downstream 2 is told. -/
theorem first_closed_tells_second :
    let s := exec ChannelManager.step Reference.manager newSelection
    TellsConnected s (oneClosed 1) 0 (fun _ _ => 0) ∧
      ((s.refreshGridpoolFeeJobsOver (oneClosed 1) 0 fun _ _ => 0).sent.map (·.downstream)) =
        [2] := by
  refine ⟨(fee_tick_tells_connected Reference.channels_lawful _ _ _ _).mpr ?_, by decide +kernel⟩
  intro g last t hg hlast ht
  have hgridpool : (exec ChannelManager.step Reference.manager newSelection).gridpool =
      some { Reference.client "tip" [Reference.suffixOutput 100] with
        work := Reference.selection "tip" [Reference.suffixOutput 200] } := by
    decide +kernel
  have hlastFuture : (exec ChannelManager.step Reference.manager newSelection).lastFutureTemplate =
      some (Reference.template 1 true 5000000000) := by
    decide +kernel
  obtain rfl := Option.some.inj (hgridpool.symm.trans hg)
  obtain rfl := Option.some.inj (hlastFuture.symm.trans hlast)
  cases ht
  decide +kernel

theorem second_closed_forgets_first :
    let s := exec ChannelManager.step Reference.manager newSelection
    start Reference.env Reference.gridpoolConfig 0 = .ok Reference.manager ∧
      ¬ TellsConnected s (oneClosed 2) 0 fun _ _ => 0 := by
  refine ⟨Reference.start_manager, fun h => ?_⟩
  have hbefore :
      activeJobIn (exec ChannelManager.step Reference.manager newSelection).downstreams 1 =
        some 1 := by
    decide +kernel
  have hafter : activeJobIn ((exec ChannelManager.step Reference.manager
      newSelection).refreshGridpoolFeeJobsOver (oneClosed 2) 0 fun _ _ => 0).downstreams 1 =
      some 2 := by
    decide +kernel
  have hsent : ((exec ChannelManager.step Reference.manager
      newSelection).refreshGridpoolFeeJobsOver (oneClosed 2) 0 fun _ _ => 0).sent = [] := by
    decide +kernel
  obtain ⟨ds, hds, hin⟩ := Option.bind_eq_some_iff.mp hbefore
  obtain ⟨ch, hch, hold⟩ := Option.bind_eq_some_iff.mp hin
  obtain ⟨ds', hds', hin'⟩ := Option.bind_eq_some_iff.mp hafter
  obtain ⟨ch', hch', hnew⟩ := Option.bind_eq_some_iff.mp hin'
  obtain ⟨job, hjob, hid⟩ := Option.map_eq_some_iff.mp hnew
  have htold := h 1 .extended 2 job rfl ⟨ds, ch, ds', ch', hds, hch, hds', hch', hjob, ?_⟩
  · rw [hsent] at htold
    cases htold
  · intro hsame
    rw [hsame, Option.map_some, hid] at hold
    cases hold

end ChannelManager

end GridPoolSv2.Pool
