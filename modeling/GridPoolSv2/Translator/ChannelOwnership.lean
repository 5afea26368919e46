import GridPoolSv2.Translator.ChannelMap
import GridPoolSv2.Translator.Tproxy

/-!
# Translator.ChannelOwnership: every channel belongs to a connected miner

A miner's channel is opened in two steps: its request travels to the channel manager, perhaps on
to the upstream, and the `OpenExtendedMiningChannelSuccess` travels back. When a miner leaves,
`handle_downstream_disconnect` closes the channel whose id it was given; a miner that leaves
before the answer has arrived has no id yet, and nothing closes the channel that is set up for it.
The answer finds no downstream and is only logged, where the sibling path for a target
sends a `CloseChannel`.

* `Belongs` says whose a channel is, `ChannelsOwned` that none is left over.
* `InTime` is the condition on a step: nobody leaves while an answer is on its way to it, and a
  request is answered only while its miner is connected and has no other answer under way.

Proof shape: the map of channels changes by `Opens`, of `Translator.ChannelMap`, and the
connections by a few steps of the server; the others are `SameConnections`. `Owned` follows a
request from the miner to the channel and the answer back to the miner.
-/

namespace GridPoolSv2.Translator

open Runs
open Function (update)

namespace Sv1Server

/-- Whether a miner is connected, and its channel. -/
def channelOf (s : Sv1Server) (d : DownstreamId) : Option (Option ChannelId) :=
  (s.downstreams d).map (·.channelId)

/-- No connection comes or goes, and no channel is asked for or opened. -/
structure SameConnections (s s' : Sv1Server) : Prop where
  requests : s'.requestIdToDownstreamId = s.requestIdToDownstreamId
  channelOf : s'.channelOf = s.channelOf

theorem SameConnections.refl (s : Sv1Server) : SameConnections s s := ⟨rfl, rfl⟩

theorem SameConnections.of_downstreams {s s' : Sv1Server}
    (hrequests : s'.requestIdToDownstreamId = s.requestIdToDownstreamId)
    (hdown : s'.downstreams = s.downstreams) : SameConnections s s' where
  requests := hrequests
  channelOf := by
    funext d
    simp only [Sv1Server.channelOf, hdown]

section Frame

variable (s : Sv1Server)

/-- The data of a miner may change, but not its channel. -/
theorem sameConnections_setData {d : DownstreamId} {data data' : DownstreamData}
    (hd : s.downstreams d = some data) (hchannel : data'.channelId = data.channelId) :
    SameConnections s (s.setData d data') where
  requests := rfl
  channelOf := by
    funext d'
    by_cases heq : d' = d
    · subst heq
      simp [channelOf, setData, hd, hchannel]
    · simp [channelOf, setData, heq]

theorem sameConnections_sendToChannel (ch : ChannelId) (n : Notification) :
    SameConnections s (s.sendToChannel ch n) := by
  unfold sendToChannel
  split
  · exact ⟨rfl, rfl⟩
  · split <;> exact ⟨rfl, rfl⟩

theorem sameConnections_newExtendedMiningJob (lib : Sv1Lib) (m : NewExtendedMiningJob) :
    SameConnections s (s.handleNewExtendedMiningJob lib m) := by
  unfold handleNewExtendedMiningJob
  split
  · exact .refl s
  · dsimp only
    split
    · exact .refl s
    · obtain ⟨hrequests, hchannel⟩ := sameConnections_sendToChannel _ (s.jobChannel m.channelId) _
      exact ⟨hrequests, hchannel⟩

theorem sameConnections_keepalive (now : Nat) (d : DownstreamId) :
    SameConnections s (s.keepalive now d) := by
  unfold keepalive
  split
  · exact .refl s
  · rename_i data hd
    split
    · split
      · exact .refl s
      · dsimp only
        split
        · exact .refl s
        · have hpush : ∀ (t : Sv1Server) (n : Notify), t.downstreams = s.downstreams →
              t.requestIdToDownstreamId = s.requestIdToDownstreamId →
              SameConnections s (if (t.queues d).isSome then (t.enqueue d (.notify n)).setData d
                { data with lastJobReceivedTime := some now } else t) := by
            intro t n hdown hrequests
            split
            · have hd' : (t.enqueue d (.notify n)).downstreams d = some data :=
                (congrFun hdown d).trans hd
              have hset : SameConnections (t.enqueue d (.notify n))
                ((t.enqueue d (.notify n)).setData d
                  { data with lastJobReceivedTime := some now }) :=
                    sameConnections_setData _ hd' rfl
              obtain ⟨hreq, hchannel⟩ := hset
              obtain ⟨-, hchannel'⟩ := SameConnections.of_downstreams hrequests hdown
              exact ⟨hreq.trans hrequests, hchannel.trans hchannel'⟩
            · exact .of_downstreams hrequests hdown
          unfold pushKeepalive
          split <;> exact hpush _ _ rfl rfl
    · exact .refl s

theorem sameConnections_deliver (now : Nat) (d : DownstreamId) :
    SameConnections s (s.deliver now d) := by
  unfold deliver
  split
  · rename_i data n rest hd _
    obtain ⟨hrequests, hchannel⟩ := sameConnections_setData s hd
      (VardiffServer.forwards_message now data n).channelId
    exact ⟨hrequests, hchannel⟩
  · exact .refl s

theorem sameConnections_configure (d : DownstreamId) (mask minBit : Option UInt32) :
    SameConnections s (s.handleConfigure d mask minBit) := by
  unfold handleConfigure
  split
  · exact .refl s
  · rename_i hd
    exact sameConnections_setData s hd rfl

theorem sameConnections_authorize (now : Nat) (d : DownstreamId) (name : List Char) :
    SameConnections s (s.handleAuthorize now d name) := by
  unfold handleAuthorize
  split
  · exact .refl s
  · rename_i hd
    exact sameConnections_setData s hd (VardiffServer.forwards_completion now _).channelId

theorem sameConnections_submit (lib : Sv1Lib) (d : DownstreamId) (request : Submit) :
    SameConnections s (s.handleSubmit lib d request) := by
  unfold handleSubmit
  split
  · exact .refl s
  · rename_i hd
    split
    · exact .refl s
    · split
      · exact .refl s
      · dsimp only
        split
        · exact sameConnections_setData s hd rfl
        · exact .refl s

theorem sameConnections_flush (lib : Sv1Lib) (d : DownstreamId) :
    SameConnections s (s.flushPending lib d) := by
  unfold flushPending
  split
  · exact .refl s
  · rename_i data hd
    split
    · exact .refl s
    · rename_i share _
      obtain ⟨hdown, -, hrequests⟩ := VardiffServer.handleSubmitShares_connections lib
        (s.setData d { data with pendingShare := none, accepted := none }) share data.accepted
      have hset : SameConnections s
          (s.setData d { data with pendingShare := none, accepted := none }) :=
        sameConnections_setData s hd rfl
      obtain ⟨-, hchannel⟩ := hset
      refine ⟨hrequests, Eq.trans ?_ hchannel⟩
      funext d'
      simp only [channelOf, hdown]

theorem sameConnections_withoutVardiff (m : SetTarget) :
    SameConnections s (s.handleSetTargetWithoutVardiff m).1 := by
  unfold handleSetTargetWithoutVardiff
  dsimp only
  split
  · refine ⟨rfl, ?_⟩
    funext d
    simp only [channelOf]
    split
    · cases s.downstreams d <;> rfl
    · rfl
  · split
    · exact .refl s
    · split
      · exact .refl s
      · rename_i d _ _ data hd
        have hset : SameConnections s (s.setData d { data with
            upstreamTarget := some m.maximumTarget, pendingTarget := some m.maximumTarget }) :=
          sameConnections_setData s hd rfl
        obtain ⟨hrequests, hchannel⟩ := hset
        exact ⟨hrequests, hchannel⟩

theorem sameConnections_sendSetDifficulty (builds : Nat → Bool) (u : PendingTargetUpdate) :
    SameConnections s (VardiffServer.sendSetDifficulty builds s u) := by
  unfold VardiffServer.sendSetDifficulty
  split <;> exact ⟨rfl, rfl⟩

end Frame

end Sv1Server

namespace VardiffServer

open Sv1Server

/-- No connection comes or goes, and no channel is asked for or opened. -/
structure SameConnections (s s' : VardiffServer) : Prop where
  factory : s'.downstreamIdFactory = s.downstreamIdFactory
  queued : s'.queuedHandshake = s.queuedHandshake
  server : Sv1Server.SameConnections s.server s'.server

theorem SameConnections.refl (s : VardiffServer) : SameConnections s s := ⟨rfl, rfl, .refl _⟩

section VardiffFrame

variable (s : VardiffServer)

theorem sameConnections_vardiff (d : DownstreamId) (newTarget : Nat) :
    SameConnections s (s.handleVardiffUpdate d newTarget) := by
  unfold handleVardiffUpdate
  split
  · exact .refl s
  · rename_i data hd
    split
    · exact .refl s
    · have hserver : Sv1Server.SameConnections s.server
          (s.server.setData d { data with pendingTarget := some newTarget }) :=
        sameConnections_setData s.server hd rfl
      dsimp only
      split
      · split <;> exact ⟨rfl, rfl, hserver⟩
      · exact ⟨rfl, rfl, hserver⟩

theorem sameConnections_sendImmediate (builds : Nat → Bool) :
    SameConnections s (s.sendImmediate builds) := by
  unfold sendImmediate
  split
  · exact .refl s
  · exact ⟨rfl, rfl, sameConnections_sendSetDifficulty s.server builds _⟩

theorem sameConnections_sendApplicable (builds : Nat → Bool) :
    SameConnections s (s.sendApplicable builds) := by
  unfold sendApplicable
  split
  · exact .refl s
  · exact ⟨rfl, rfl, sameConnections_sendSetDifficulty s.server builds _⟩

theorem sameConnections_setTarget (channelId : ChannelId) (target : Nat) :
    SameConnections s (s.handleSetTargetMessage channelId target) := by
  unfold handleSetTargetMessage
  split
  · refine ⟨rfl, rfl, rfl, ?_⟩
    funext d
    simp only [getPendingDifficultyUpdates, channelOf]
    cases s.server.downstreams d <;> rfl
  · split
    · exact .refl s
    · split
      · exact .refl s
      · rename_i hd
        exact ⟨rfl, rfl, sameConnections_setData s.server hd rfl⟩

end VardiffFrame

/-! ### Requests -/

/-- A channel is asked for once, and only while it is not open; no id that is still to be given
out is in use. -/
structure Asked (s : VardiffServer) : Prop where
  fresh : ∀ d, s.downstreamIdFactory ≤ d → s.server.channelOf d = none ∧
    ∀ r, s.server.requestIdToDownstreamId r ≠ some d
  requests : ∀ r d c, s.server.requestIdToDownstreamId r = some d →
    s.server.channelOf d = some c → c = none ∧ s.queuedHandshake d = true
  distinct : ∀ r r' d, s.server.requestIdToDownstreamId r = some d →
    s.server.requestIdToDownstreamId r' = some d → r = r'

section Asking

variable {s s' : VardiffServer}

theorem Asked.same (h : Asked s) (hs : SameConnections s s') : Asked s' := by
  obtain ⟨hfactory, hqueued, hrequests, hchannel⟩ := hs
  refine ⟨?_, ?_, ?_⟩
  · rw [hfactory, hchannel, hrequests]
    exact h.fresh
  · rw [hrequests, hchannel, hqueued]
    exact h.requests
  · rw [hrequests]
    exact h.distinct

theorem Asked.accept (h : Asked s) (firstTarget : Nat) : Asked (s.accept firstTarget) := by
  have hrequests : (s.accept firstTarget).server.requestIdToDownstreamId =
      s.server.requestIdToDownstreamId := by
    unfold VardiffServer.accept connect
    dsimp only
    split <;> rfl
  have hchannel : ∀ d, d ≠ s.downstreamIdFactory →
      (s.accept firstTarget).server.channelOf d = s.server.channelOf d := by
    intro d hd
    unfold VardiffServer.accept connect
    dsimp only
    split
    · rfl
    · simp [channelOf, setData, hd]
  refine ⟨fun d hd => ?_, fun r d c hr hc => ?_, ?_⟩
  · have hne : d ≠ s.downstreamIdFactory := Nat.ne_of_gt hd
    rw [hchannel d hne, hrequests]
    exact h.fresh d (Nat.le_of_lt hd)
  · rw [hrequests] at hr
    -- the id of the new connection was not in use
    have hne : d ≠ s.downstreamIdFactory := by
      rintro rfl
      exact (h.fresh _ (Nat.le_refl _)).2 r hr
    rw [hchannel d hne] at hc
    exact h.requests r d c hr hc
  · rw [hrequests]
    exact h.distinct

/-- The first message of a miner registers its request; it can only be lost to a newer one. -/
theorem handshakeMessage_requests (s : VardiffServer) (d : DownstreamId) :
    (s.handleHandshakeMessage d).server.channelOf = s.server.channelOf ∧
      (s.handleHandshakeMessage d).downstreamIdFactory = s.downstreamIdFactory ∧
      ((s.handleHandshakeMessage d).server.requestIdToDownstreamId =
          s.server.requestIdToDownstreamId ∧
          (∀ d', s.queuedHandshake d' = true →
            (s.handleHandshakeMessage d).queuedHandshake d' = true) ∨
        s.queuedHandshake d = false ∧ s.server.channelOf d = some none ∧
          (s.handleHandshakeMessage d).queuedHandshake = update s.queuedHandshake d true ∧
          (s.handleHandshakeMessage d).server.requestIdToDownstreamId =
            update s.server.requestIdToDownstreamId s.server.requestIdFactory (some d)) := by
  unfold handleHandshakeMessage
  cases hd : s.server.downstreams d with
  | none => exact ⟨rfl, rfl, .inl ⟨rfl, fun _ h => h⟩⟩
  | some data =>
      dsimp only
      cases hc : data.channelId with
      | some c => exact ⟨rfl, rfl, .inl ⟨rfl, fun _ h => h⟩⟩
      | none =>
          cases hq : s.queuedHandshake d with
          | true =>
              refine ⟨rfl, rfl, .inl ⟨rfl, fun d' hd' => ?_⟩⟩
              by_cases heq : d' = d
              · subst heq
                exact Function.update_self ..
              · exact (Function.update_of_ne heq ..).trans hd'
          | false => exact ⟨rfl, rfl, .inr ⟨rfl, by simp [channelOf, hd, hc], rfl, rfl⟩⟩

theorem Asked.handshakeMessage (h : Asked s) (d : DownstreamId) :
    Asked (s.handleHandshakeMessage d) := by
  obtain ⟨hchannel, hfactory, ⟨hrequests, hqueued⟩ | ⟨hnew, hopen, hqueued, hrequests⟩⟩ :=
    handshakeMessage_requests s d
  · refine ⟨?_, fun r d' c hr hc => ?_, ?_⟩
    · rw [hfactory, hchannel, hrequests]
      exact h.fresh
    · rw [hrequests] at hr
      rw [hchannel] at hc
      exact (h.requests r d' c hr hc).imp_right (hqueued d')
    · rw [hrequests]
      exact h.distinct
  · have hold : ∀ r d', update s.server.requestIdToDownstreamId s.server.requestIdFactory
      (some d) r = some d' → r = s.server.requestIdFactory ∧ d' = d ∨
          r ≠ s.server.requestIdFactory ∧ s.server.requestIdToDownstreamId r = some d' := by
      intro r d' hr
      by_cases heq : r = s.server.requestIdFactory
      · subst heq
        rw [Function.update_self] at hr
        exact .inl ⟨rfl, (Option.some.inj hr).symm⟩
      · rw [Function.update_of_ne heq] at hr
        exact .inr ⟨heq, hr⟩
    -- a miner that asks has not asked before
    have hfirst : ∀ r, s.server.requestIdToDownstreamId r ≠ some d := by
      intro r hr
      rw [(h.requests r d none hr hopen).2] at hnew
      cases hnew
    refine ⟨fun d' hd' => ?_, fun r d' c hr hc => ?_, fun r r' d' hr hr' => ?_⟩
    · rw [hfactory] at hd'
      obtain ⟨hnone, hnever⟩ := h.fresh d' hd'
      refine ⟨hchannel ▸ hnone, fun r hr => ?_⟩
      rw [hrequests] at hr
      rcases hold r d' hr with ⟨-, rfl⟩ | ⟨-, hr⟩
      · rw [hnone] at hopen
        cases hopen
      · exact hnever r hr
    · rw [hrequests] at hr
      rw [hchannel] at hc
      rw [hqueued]
      rcases hold r d' hr with ⟨-, rfl⟩ | ⟨-, hr⟩
      · rw [hopen] at hc
        exact ⟨(Option.some.inj hc).symm, Function.update_self ..⟩
      · obtain ⟨hnone, hq⟩ := h.requests r d' c hr hc
        refine ⟨hnone, ?_⟩
        by_cases heq : d' = d
        · subst heq
          exact Function.update_self ..
        · rw [Function.update_of_ne heq]
          exact hq
    · rw [hrequests] at hr hr'
      rcases hold r d' hr with ⟨rfl, rfl⟩ | ⟨-, hold₁⟩
      · rcases hold r' d' hr' with ⟨rfl, -⟩ | ⟨-, hold₂⟩
        · rfl
        · exact absurd hold₂ (hfirst r')
      · rcases hold r' d' hr' with ⟨-, rfl⟩ | ⟨-, hold₂⟩
        · exact absurd hold₁ (hfirst r)
        · exact h.distinct r r' d' hold₁ hold₂

/-- The answer to a request takes it off the books, and opens the channel of its miner if that is
still connected. -/
theorem openSuccess_requests (s : VardiffServer) (firstTarget : Nat)
    (m : OpenExtendedMiningChannelSuccess) :
    (s.handleOpenSuccess firstTarget m).server.requestIdToDownstreamId =
        update s.server.requestIdToDownstreamId m.requestId none ∧
      (s.handleOpenSuccess firstTarget m).downstreamIdFactory = s.downstreamIdFactory ∧
      ∀ d, (s.server.requestIdToDownstreamId m.requestId ≠ some d ∨ s.server.channelOf d = none) ∧
            (s.handleOpenSuccess firstTarget m).server.channelOf d = s.server.channelOf d ∧
            (s.handleOpenSuccess firstTarget m).queuedHandshake d = s.queuedHandshake d ∨
          s.server.requestIdToDownstreamId m.requestId = some d ∧
            (s.handleOpenSuccess firstTarget m).server.channelOf d = some (some m.channelId) := by
  unfold handleOpenSuccess handleOpenExtendedMiningChannelSuccess
  cases hr : s.server.requestIdToDownstreamId m.requestId with
  | none =>
      refine ⟨?_, rfl, fun d => .inl ⟨.inl nofun, rfl, rfl⟩⟩
      exact (Function.update_eq_self_iff.mpr hr.symm).symm
  | some d₀ =>
      dsimp only
      cases hd : s.server.downstreams d₀ with
      | none =>
          refine ⟨rfl, rfl, fun d => .inl ⟨?_, rfl, ?_⟩⟩
          · by_cases heq : d = d₀
            · subst heq
              exact .inr (by simp [channelOf, hd])
            · exact .inl fun h => heq (Option.some.inj h).symm
          · rw [if_neg (by simp)]
      | some data =>
          refine ⟨rfl, rfl, fun d => ?_⟩
          by_cases heq : d = d₀
          · subst heq
            exact .inr ⟨rfl, by simp [channelOf, enqueue, setData]⟩
          · refine .inl ⟨.inl fun h => heq (Option.some.inj h).symm, ?_, ?_⟩
            · simp [channelOf, enqueue, setData, heq]
            · rw [if_pos Option.isSome_some, Function.update_of_ne heq]

theorem Asked.openSuccess (h : Asked s) (firstTarget : Nat)
    (m : OpenExtendedMiningChannelSuccess) : Asked (s.handleOpenSuccess firstTarget m) := by
  obtain ⟨hrequests, hfactory, heach⟩ := openSuccess_requests s firstTarget m
  have hold : ∀ r d, (s.handleOpenSuccess firstTarget m).server.requestIdToDownstreamId r = some d →
      r ≠ m.requestId ∧ s.server.requestIdToDownstreamId r = some d := by
    intro r d hr
    rw [hrequests] at hr
    by_cases heq : r = m.requestId
    · subst heq
      rw [Function.update_self] at hr
      cases hr
    · rw [Function.update_of_ne heq] at hr
      exact ⟨heq, hr⟩
  refine ⟨fun d hd => ?_, fun r d c hr hc => ?_, fun r r' d hr hr' => ?_⟩
  · rw [hfactory] at hd
    obtain ⟨hnone, hnever⟩ := h.fresh d hd
    refine ⟨?_, fun r hr => hnever r (hold r d hr).2⟩
    rcases heach d with ⟨-, hsame, -⟩ | ⟨hr, -⟩
    · exact hsame.trans hnone
    · exact absurd hr (hnever _)
  · obtain ⟨hne, hr⟩ := hold r d hr
    rcases heach d with ⟨-, hsame, hqueued⟩ | ⟨hr', -⟩
    · rw [hsame] at hc
      rw [hqueued]
      exact h.requests r d c hr hc
    · exact absurd (h.distinct r _ d hr hr') hne
  · exact h.distinct r r' d (hold r d hr).2 (hold r' d hr').2

theorem channelOf_disconnect (s : Sv1Server) (d d' : DownstreamId) :
    (s.handleDownstreamDisconnect d).channelOf d' = if d' = d then none else s.channelOf d' := by
  by_cases heq : d' = d
  · subst heq
    simp [handleDownstreamDisconnect, channelOf]
  · simp [handleDownstreamDisconnect, channelOf, heq]

theorem Asked.disconnect (h : Asked s) (d : DownstreamId) :
    Asked { s with server := s.server.handleDownstreamDisconnect d } := by
  refine ⟨fun d' hd' => ?_, fun r d' c hr hc => ?_, h.distinct⟩
  · obtain ⟨hnone, hnever⟩ := h.fresh d' hd'
    refine ⟨?_, hnever⟩
    rw [channelOf_disconnect, hnone, ite_self]
  · dsimp only at hc
    rw [channelOf_disconnect] at hc
    split at hc
    · cases hc
    · exact h.requests r d' c hr hc

end Asking

end VardiffServer

namespace Tproxy

open Sv1Server ChannelManager VardiffServer

variable {env : Env}

/-! ### Whose a channel is

A channel that is there belongs to a miner, or a message that closes it is on its way. -/

/-- It is the channel of a connected miner, or the answer that names it is on its way to one. -/
def Belongs (s : Tproxy env) (d : DownstreamId) (c : ChannelId) : Prop :=
  s.sv1.server.channelOf d = some (some c) ∨
    s.sv1.server.channelOf d ≠ none ∧ ∃ m ∈ successes s.toSv1Server,
      m.channelId = c ∧ s.sv1.server.requestIdToDownstreamId m.requestId = some d

instance (s : Tproxy env) (d : DownstreamId) (c : ChannelId) : Decidable (s.Belongs d c) :=
  inferInstanceAs (Decidable (_ ∨ _ ∧ _))

/-- Every channel of the channel manager belongs to a connected miner or is about to be closed,
and a miner has at most one. -/
structure ChannelsOwned (s : Tproxy env) : Prop where
  held : ∀ manager, s.manager = some manager → ∀ c ∈ manager.extendedChannels,
    ¬IsSentinel manager.mode c → (∃ d, s.Belongs d c) ∨ .closeChannel c ∈ s.toManager
  one : ∀ d c c', s.Belongs d c → s.Belongs d c' → c = c'

/-- The miner that made a request is connected, and no answer to the request is under way. -/
def Awaits (s : Tproxy env) (r : RequestId) : Prop :=
  match s.sv1.server.requestIdToDownstreamId r with
  | none => False
  | some d =>
      s.sv1.server.channelOf d ≠ none ∧ r ∉ (successes s.toSv1Server).map (·.requestId)

instance (s : Tproxy env) (r : RequestId) : Decidable (s.Awaits r) :=
  match h : s.sv1.server.requestIdToDownstreamId r with
  | none => isFalse (by simp [Awaits, h])
  | some d =>
      decidable_of_iff (s.sv1.server.channelOf d ≠ none ∧
        r ∉ (successes s.toSv1Server).map (·.requestId)) (by simp [Awaits, h])

/-- The requests the next message of the `Sv1Server` is answered for. -/
def servedNext (s : Tproxy env) : List RequestId :=
  match s.manager, s.toManager with
  | some manager, m :: _ => manager.servedBy m
  | _, _ => []

/-- The requests a frame can be answered for. -/
def servedByFrame (s : Tproxy env) (hash : UInt32 → Nat) (m : UpstreamMessage) : List RequestId :=
  match s.manager with
  | some manager => manager.servedByFrame hash m
  | none => []

/-- The condition on a step. -/
def InTime (s : Tproxy env) : Event → Prop
  | .disconnect d => ∀ m ∈ successes s.toSv1Server,
      s.sv1.server.requestIdToDownstreamId m.requestId ≠ some d
  | .receiveDownstream => ∀ r ∈ s.servedNext, s.Awaits r
  | .frame hash m => ∀ r ∈ s.servedByFrame hash m, s.Awaits r
  | _ => True

instance (s : Tproxy env) : ∀ e, Decidable (s.InTime e)
  | .disconnect d =>
      inferInstanceAs (Decidable (∀ m ∈ successes s.toSv1Server,
        s.sv1.server.requestIdToDownstreamId m.requestId ≠ some d))
  -- the ids are finitely many, but the requests are looked through
  | .receiveDownstream => List.decidableBAll s.Awaits s.servedNext
  | .frame hash m => List.decidableBAll s.Awaits (s.servedByFrame hash m)
  | .accept | .handshakeMessage _ | .vardiff _ _ | .sendUpdateChannelMessages | .sendImmediate
  | .sendApplicable | .sv1 _ _ | .receiveUpstream => isTrue trivial

/-! ### Steps -/

/-- The invariant: an answer is under way to a connected miner, and to each at most one. -/
structure Owned (s : Tproxy env) : Prop where
  asked : Asked s.sv1
  answers : ∀ m ∈ successes s.toSv1Server,
    ∃ d, s.sv1.server.requestIdToDownstreamId m.requestId = some d ∧
      s.sv1.server.channelOf d ≠ none
  nodup : ((successes s.toSv1Server).map (·.requestId)).Nodup
  held : ∀ manager, s.manager = some manager → ∀ c ∈ manager.extendedChannels,
    ¬IsSentinel manager.mode c → (∃ d, s.Belongs d c) ∨ .closeChannel c ∈ s.toManager

section Steps

variable {s s' : Tproxy env}

/-- Two channels of one miner are one. -/
theorem Owned.channelsOwned (h : Owned s) : s.ChannelsOwned where
  held := h.held
  one := by
    have hunopened : ∀ d c, ∀ m ∈ successes s.toSv1Server,
        s.sv1.server.requestIdToDownstreamId m.requestId = some d →
        s.sv1.server.channelOf d ≠ some (some c) := by
      intro d c m _ hr hc
      cases (h.asked.requests m.requestId d (some c) hr hc).1
    rintro d c c' (hc | ⟨-, m, hm, rfl, hr⟩) (hc' | ⟨-, m', hm', rfl, hr'⟩)
    · exact Option.some.inj (Option.some.inj (hc.symm.trans hc'))
    · exact absurd hc (hunopened d c m' hm' hr')
    · exact absurd hc' (hunopened d c' m hm hr)
    · have hid := h.asked.distinct _ _ d hr hr'
      rw [List.inj_on_of_nodup_map h.nodup hm hm' hid]

/-- The connections and the answers under way are the same, and nothing is taken off the queue to
the channel manager. -/
theorem Owned.same (h : Owned s) (hs : SameConnections s.sv1 s'.sv1)
    (hsuccesses : successes s'.toSv1Server = successes s.toSv1Server)
    (hmanager : s'.manager = s.manager) (hqueue : ∀ m ∈ s.toManager, m ∈ s'.toManager) :
    Owned s' := by
  have hbelongs : ∀ d c, s'.Belongs d c ↔ s.Belongs d c := by
    intro d c
    rw [Belongs, Belongs, hs.server.channelOf, hs.server.requests, hsuccesses]
  refine ⟨h.asked.same hs, ?_, ?_, ?_⟩
  · rw [hsuccesses, hs.server.requests, hs.server.channelOf]
    exact h.answers
  · rw [hsuccesses]
    exact h.nodup
  · intro manager hm c hc hsentinel
    rw [hmanager] at hm
    refine (h.held manager hm c hc hsentinel).imp ?_ (hqueue _)
    rintro ⟨d, hd⟩
    exact ⟨d, (hbelongs d c).mpr hd⟩

theorem Owned.accept (h : Owned s) : Owned (s.step .accept) := by
  have hasked := h.asked.accept env.firstTarget
  have hrequests : (s.step .accept).sv1.server.requestIdToDownstreamId =
      s.sv1.server.requestIdToDownstreamId := by
    dsimp only [step, VardiffServer.accept]
    unfold connect
    split <;> rfl
  have hchannel : ∀ d, s.sv1.server.channelOf d ≠ none →
      (s.step .accept).sv1.server.channelOf d = s.sv1.server.channelOf d := by
    intro d hd
    have hne : d ≠ s.sv1.downstreamIdFactory := by
      rintro rfl
      exact hd (h.asked.fresh _ (Nat.le_refl _)).1
    dsimp only [step, VardiffServer.accept]
    unfold connect
    split
    · rfl
    · simp [channelOf, setData, hne]
  refine ⟨hasked, fun m hm => ?_, h.nodup, fun manager hm c hc hsentinel => ?_⟩
  · obtain ⟨d, hr, hd⟩ := h.answers m hm
    exact ⟨d, hrequests ▸ hr, (hchannel d hd).symm ▸ hd⟩
  · refine (h.held manager hm c hc hsentinel).imp_left ?_
    rintro ⟨d, hd | ⟨hd, m, hmem, heq, hr⟩⟩
    · exact ⟨d, .inl ((hchannel d (by rw [hd]; exact Option.some_ne_none _)).trans hd)⟩
    · exact ⟨d, .inr ⟨(hchannel d hd).symm ▸ hd, m, hmem, heq, hrequests ▸ hr⟩⟩

/-- A request that is registered under the id of an older one takes over its answer. -/
theorem Owned.handshakeMessage (h : Owned s) (d : DownstreamId) :
    Owned (s.step (.handshakeMessage d)) := by
  have hsv1 := handleHandshakeMessage_sv1 s d
  have hasked : Asked (s.step (.handshakeMessage d)).sv1 := by
    rw [step, hsv1]
    exact h.asked.handshakeMessage d
  have hmanager : (s.step (.handshakeMessage d)).manager = s.manager ∧
      (s.step (.handshakeMessage d)).toSv1Server = s.toSv1Server ∧
      ∀ m ∈ s.toManager, m ∈ (s.step (.handshakeMessage d)).toManager := by
    dsimp only [step, handleHandshakeMessage]
    split
    · exact ⟨rfl, rfl, fun m hm => List.mem_append_left _ hm⟩
    · exact ⟨rfl, rfl, fun m hm => hm⟩
  obtain ⟨hmanager, hout, hqueue⟩ := hmanager
  obtain ⟨hchannel, -, hrequests⟩ := handshakeMessage_requests s.sv1 d
  rw [← hsv1] at hchannel hrequests
  change (s.step (.handshakeMessage d)).sv1.server.channelOf = _ at hchannel
  have hanswered : ∀ r d', s.sv1.server.requestIdToDownstreamId r = some d' →
      s.sv1.server.channelOf d' ≠ none →
      ∃ d'', (s.step (.handshakeMessage d)).sv1.server.requestIdToDownstreamId r = some d'' ∧
        s.sv1.server.channelOf d'' ≠ none := by
    intro r d' hr hd'
    rcases hrequests with ⟨hsame, -⟩ | ⟨-, hopen, -, hnew⟩
    · exact ⟨d', (congrFun hsame r).trans hr, hd'⟩
    · by_cases heq : r = s.sv1.server.requestIdFactory
      · refine ⟨d, ?_, by rw [hopen]; exact Option.some_ne_none _⟩
        exact (congrFun hnew r).trans (by rw [heq, Function.update_self])
      · refine ⟨d', ?_, hd'⟩
        exact (congrFun hnew r).trans (by rw [Function.update_of_ne heq, hr])
  refine ⟨hasked, fun m hm => ?_, ?_, fun manager hm c hc hsentinel => ?_⟩
  · rw [hout] at hm
    obtain ⟨d', hr, hd'⟩ := h.answers m hm
    rw [hchannel]
    exact hanswered m.requestId d' hr hd'
  · rw [hout]
    exact h.nodup
  · rw [hmanager] at hm
    refine (h.held manager hm c hc hsentinel).imp ?_ (hqueue _)
    rintro ⟨d', hd' | ⟨hd', m, hmem, heq, hr⟩⟩
    · exact ⟨d', .inl (hchannel ▸ hd')⟩
    · obtain ⟨d'', hr', hd''⟩ := hanswered m.requestId d' hr hd'
      exact ⟨d'', .inr ⟨hchannel ▸ hd'', m, hout ▸ hmem, heq, hr'⟩⟩

/-- The channel of a miner that leaves is closed, if the miner knew it. -/
theorem Owned.disconnect (h : Owned s) {d : DownstreamId} (htime : s.InTime (.disconnect d)) :
    Owned (s.step (.disconnect d)) := by
  have hchannel : ∀ d', (s.step (.disconnect d)).sv1.server.channelOf d' =
      if d' = d then none else s.sv1.server.channelOf d' := channelOf_disconnect s.sv1.server d
  have hstays : ∀ r d', s.sv1.server.requestIdToDownstreamId r = some d' →
      r ∈ (successes s.toSv1Server).map (·.requestId) → d' ≠ d := by
    rintro r d' hr hmem rfl
    obtain ⟨m, hm, rfl⟩ := List.mem_map.mp hmem
    exact htime m hm hr
  refine ⟨h.asked.disconnect d, fun m hm => ?_, h.nodup, fun manager hm c hc hsentinel => ?_⟩
  · obtain ⟨d', hr, hd'⟩ := h.answers m hm
    refine ⟨d', hr, ?_⟩
    rw [hchannel, if_neg (hstays _ _ hr (List.mem_map.mpr ⟨m, hm, rfl⟩))]
    exact hd'
  · rcases h.held manager hm c hc hsentinel with ⟨d', hd' | ⟨hd', m, hmem, heq, hr⟩⟩ | hclose
    · by_cases heq : d' = d
      · subst heq
        -- the channel id is known: a `CloseChannel` goes out
        right
        obtain ⟨data, hdata, hid⟩ := Option.map_eq_some_iff.mp hd'
        refine List.mem_append_right _ ?_
        rw [hdata]
        refine List.mem_append_right _ ?_
        rw [hid]
        exact List.mem_cons_self
      · exact .inl ⟨d', .inl ((hchannel d').trans (by rw [if_neg heq, hd']))⟩
    · have hne := hstays _ _ hr (List.mem_map.mpr ⟨m, hmem, rfl⟩)
      refine .inl ⟨d', .inr ⟨?_, m, hmem, heq, hr⟩⟩
      rw [hchannel, if_neg hne]
      exact hd'
    · exact .inr (List.mem_append_left _ hclose)

/-- An answer arrives: its channel is now the miner's own. -/
theorem Owned.openSuccess (h : Owned s) {m : OpenExtendedMiningChannelSuccess}
    {rest : List Sv1Message} (hs : s.toSv1Server = .openExtendedMiningChannelSuccess m :: rest) :
    Owned (s.step .receiveUpstream) := by
  have hstep : s.step .receiveUpstream = { s with
      toSv1Server := rest, sv1 := s.sv1.handleOpenSuccess env.firstTarget m } := by
    simp [step, receiveUpstream, hs, handleUpstreamMessage]
  have hsuccesses : successes s.toSv1Server = m :: successes rest := by rw [hs]; rfl
  have hnodup := h.nodup
  rw [hsuccesses, List.map_cons, List.nodup_cons] at hnodup
  obtain ⟨hfresh, hnodup⟩ := hnodup
  obtain ⟨hrequests, -, heach⟩ := openSuccess_requests s.sv1 env.firstTarget m
  obtain ⟨d₀, hr₀, hd₀⟩ := h.answers m (hsuccesses ▸ List.mem_cons_self)
  have hother : ∀ m' ∈ successes rest,
      (s.sv1.handleOpenSuccess env.firstTarget m).server.requestIdToDownstreamId m'.requestId =
        s.sv1.server.requestIdToDownstreamId m'.requestId := by
    intro m' hm'
    have hne : m'.requestId ≠ m.requestId := fun heq =>
      hfresh (heq ▸ List.mem_map.mpr ⟨m', hm', rfl⟩)
    rw [hrequests, Function.update_of_ne hne]
  have hconnected : ∀ d, s.sv1.server.channelOf d ≠ none →
      (s.sv1.handleOpenSuccess env.firstTarget m).server.channelOf d ≠ none := by
    intro d hd
    rcases heach d with ⟨-, hsame, -⟩ | ⟨-, hopen⟩
    · rw [hsame]
      exact hd
    · rw [hopen]
      exact Option.some_ne_none _
  rw [hstep]
  refine ⟨h.asked.openSuccess env.firstTarget m, fun m' hm' => ?_, hnodup,
    fun manager hm c hc hsentinel => ?_⟩
  · obtain ⟨d, hr, hd⟩ := h.answers m' (hsuccesses ▸ List.mem_cons_of_mem _ hm')
    exact ⟨d, (hother m' hm').trans hr, hconnected d hd⟩
  · rcases h.held manager hm c hc hsentinel with ⟨d, hd | ⟨hd, m', hm', heq, hr⟩⟩ | hclose
    · -- the miner that gets the answer had no channel
      rcases heach d with ⟨-, hsame, -⟩ | ⟨hr, -⟩
      · exact .inl ⟨d, .inl (hsame.trans hd)⟩
      · cases (h.asked.requests _ d (some c) hr hd).1
    · rw [hsuccesses] at hm'
      rcases List.mem_cons.mp hm' with rfl | hm'
      · rcases heach d with ⟨hnot | hnone, -, -⟩ | ⟨-, hopen⟩
        · exact absurd hr hnot
        · exact absurd hnone hd
        · exact .inl ⟨d, .inl (heq ▸ hopen)⟩
      · exact .inl ⟨d, .inr ⟨hconnected d hd, m', hm', heq, (hother m' hm').trans hr⟩⟩
    · exact .inr hclose

/-- The channel manager has handled a message: what it opened goes with an answer to a miner that
waits for it. -/
theorem Owned.managed (h : Owned s) {manager : ChannelManager env.channels} {rs : List RequestId}
    {t : Tproxy env} (hm : s.manager = some manager) (ht : t.sv1 = s.sv1)
    (hout : t.toSv1Server = s.toSv1Server) {r : Except Fatal (Handled env.channels)}
    (hopens : ∀ hd, r = .ok hd → Opens manager rs hd) (hrs : rs.Nodup)
    (hawaits : ∀ r ∈ rs, s.Awaits r)
    (hqueue : ∀ hd, r = .ok hd → ∀ c ∈ hd.manager.extendedChannels, ¬IsSentinel manager.mode c →
      .closeChannel c ∈ s.toManager → .closeChannel c ∈ t.toManager) :
    Owned (t.managed r) := by
  cases r with
  | error e =>
      refine ⟨?_, ?_, ?_, fun _ hnone => by cases hnone⟩
      · change Asked t.sv1
        exact ht ▸ h.asked
      · change ∀ m ∈ successes t.toSv1Server, _
        rw [hout]
        change ∀ m ∈ successes s.toSv1Server, ∃ d, t.sv1.server.requestIdToDownstreamId _ = _ ∧
          t.sv1.server.channelOf d ≠ none
        rw [ht]
        exact h.answers
      · change ((successes t.toSv1Server).map _).Nodup
        rw [hout]
        exact h.nodup
  | ok hd =>
      obtain ⟨hmode, hopened, hanswered⟩ := hopens hd rfl
      have hsv1 : (t.managed (.ok hd)).sv1 = s.sv1 := ht
      have hsuccesses : successes (t.managed (.ok hd)).toSv1Server =
          successes s.toSv1Server ++ successes hd.toSv1Server := by
        change successes (t.toSv1Server ++ hd.toSv1Server) = _
        rw [successes_append, hout]
      -- every new answer goes to a miner that waits
      have hnew : ∀ m ∈ successes hd.toSv1Server, s.Awaits m.requestId := fun m hmem =>
        hawaits _ (hanswered.subset (List.mem_map.mpr ⟨m, hmem, rfl⟩))
      have hwaiting : ∀ m ∈ successes hd.toSv1Server,
          ∃ d, s.sv1.server.requestIdToDownstreamId m.requestId = some d ∧
            s.sv1.server.channelOf d ≠ none ∧
            m.requestId ∉ (successes s.toSv1Server).map (·.requestId) := by
        intro m hmem
        have hw := hnew m hmem
        unfold Awaits at hw
        cases hr : s.sv1.server.requestIdToDownstreamId m.requestId with
        | none => simp [hr] at hw
        | some d =>
            rw [hr] at hw
            exact ⟨d, rfl, hw.1, hw.2⟩
      refine ⟨hsv1 ▸ h.asked, ?_, ?_, ?_⟩
      · rw [hsuccesses, hsv1]
        intro m hmem
        rcases List.mem_append.mp hmem with hold | hmem
        · exact h.answers m hold
        · obtain ⟨d, hr, hd', -⟩ := hwaiting m hmem
          exact ⟨d, hr, hd'⟩
      · rw [hsuccesses, List.map_append, List.nodup_append]
        refine ⟨h.nodup, hrs.sublist hanswered, ?_⟩
        rintro r hr r' hr' rfl
        obtain ⟨m, hmem, rfl⟩ := List.mem_map.mp hr'
        obtain ⟨-, -, -, hnot⟩ := hwaiting m hmem
        exact hnot hr
      · intro manager' hm' c hc hsentinel
        obtain rfl : hd.manager = manager' := Option.some.inj hm'
        rw [hmode] at hsentinel
        have hbelongs : ∀ d, s.Belongs d c → (t.managed (.ok hd)).Belongs d c := by
          intro d hbelongs
          rw [Belongs, hsv1, hsuccesses]
          exact hbelongs.imp_right fun ⟨hd', m, hmem, hrest⟩ =>
            ⟨hd', m, List.mem_append_left _ hmem, hrest⟩
        rcases hopened c hc with hold | hsent | ⟨m, hmem, rfl⟩
        · rcases h.held manager hm c hold hsentinel with ⟨d, hd'⟩ | hclose
          · exact .inl ⟨d, hbelongs d hd'⟩
          · exact .inr (hqueue hd rfl c hc hsentinel hclose)
        · exact absurd hsent hsentinel
        · obtain ⟨d, hr, hd', -⟩ := hwaiting m hmem
          refine .inl ⟨d, .inr ?_⟩
          rw [hsv1, hsuccesses]
          exact ⟨hd', m, List.mem_append_right _ hmem, rfl, hr⟩

theorem Owned.receiveDownstream (h : Owned s) (htime : s.InTime .receiveDownstream) :
    Owned (s.step .receiveDownstream) := by
  cases hm : s.manager with
  | none =>
      have hsame : s.step .receiveDownstream = s := by
        simp [step, Tproxy.receiveDownstream, hm]
      rw [hsame]
      exact h
  | some manager =>
      cases hq : s.toManager with
      | nil =>
          have hsame : s.step .receiveDownstream = s := by
            simp [step, Tproxy.receiveDownstream, hm, hq]
          rw [hsame]
          exact h
      | cons m rest =>
          have hstep : s.step .receiveDownstream =
              { s with toManager := rest }.managed (manager.handleDownstreamMessage m) := by
            simp [step, Tproxy.receiveDownstream, hm, hq]
          rw [hstep]
          refine h.managed (t := { s with toManager := rest }) hm rfl rfl (fun hd hr =>
            opens_downstreamMessage hr) (servedBy_nodup manager m) ?_ ?_
          · intro r hr
            exact htime r (by rw [servedNext, hm, hq]; exact hr)
          · intro hd hr c hc hsentinel hclose
            rw [hq] at hclose
            rcases List.mem_cons.mp hclose with rfl | hrest
            · -- this very message has closed the channel
              obtain rfl := Except.ok.inj hr
              exact absurd ((closes_closeChannel manager c).2 hc) hsentinel
            · exact hrest

theorem Owned.frame (h : Owned s) {hash : UInt32 → Nat} {m : UpstreamMessage}
    (htime : s.InTime (.frame hash m)) : Owned (s.step (.frame hash m)) := by
  cases hm : s.manager with
  | none =>
      have hsame : s.step (.frame hash m) = s := by
        simp [step, receiveFrame, hm]
      rw [hsame]
      exact h
  | some manager =>
      have hstep : s.step (.frame hash m) = s.managed (manager.handleUpstreamFrame hash m) := by
        simp [step, receiveFrame, hm]
      rw [hstep]
      refine h.managed hm rfl rfl (fun hd hr => opens_upstreamFrame hr)
        (servedByFrame_nodup manager hash m) ?_ fun _ _ _ _ _ hclose => hclose
      intro r hr
      exact htime r (by rw [Tproxy.servedByFrame, hm]; exact hr)

/-- The steps in which connections come and go, and channels are asked for and opened. -/
def connects (s : Tproxy env) : Event → Bool
  | .accept | .handshakeMessage _ | .disconnect _ => true
  | .receiveUpstream =>
      match s.toSv1Server with
      | .openExtendedMiningChannelSuccess _ :: _ => true
      | _ => false
  | _ => false

theorem sameConnections_handleLocal (s : Tproxy env) {e : Sv1Server.Event} (he : e.isLocal = true) :
    SameConnections s.sv1 (s.handleLocal e).sv1 := by
  refine ⟨rfl, rfl, ?_⟩
  cases e with
  | keepalive now d => exact sameConnections_keepalive _ now d
  | deliver now d => exact sameConnections_deliver _ now d
  | configure d mask minBit => exact sameConnections_configure _ d mask minBit
  | authorize now d name => exact sameConnections_authorize _ now d name
  | submit d request => exact sameConnections_submit _ env.sv1 d request
  | flush d => exact sameConnections_flush _ env.sv1 d
  | connect | disconnect | openChannelRequest | openSuccess | setNewPrevHash |
      newExtendedMiningJob | pendingTarget => cases he

theorem sameConnections_step (s : Tproxy env) (e : Event) (he : s.connects e = false) :
    SameConnections s.sv1 (s.step e).sv1 := by
  cases e with
  | accept | handshakeMessage | disconnect => cases he
  | sv1 e hlocal => exact sameConnections_handleLocal s hlocal
  | vardiff d newTarget =>
      dsimp only [step]
      split
      · exact sameConnections_vardiff s.sv1 d newTarget
      · exact .refl _
  | sendUpdateChannelMessages => exact .refl _
  | sendImmediate => exact sameConnections_sendImmediate s.sv1 env.builds
  | sendApplicable => exact sameConnections_sendApplicable s.sv1 env.builds
  | receiveDownstream =>
      rw [step, receiveDownstream_sv1]
      exact .refl _
  | frame hash m =>
      rw [step, receiveFrame_sv1]
      exact .refl _
  | receiveUpstream =>
      dsimp only [step]
      unfold Tproxy.receiveUpstream
      cases hs : s.toSv1Server with
      | nil => exact .refl _
      | cons m rest =>
          cases m with
          | openExtendedMiningChannelSuccess m => simp [connects, hs] at he
          | newExtendedMiningJob m =>
              exact ⟨rfl, rfl, sameConnections_newExtendedMiningJob _ env.sv1 m⟩
          | setNewPrevHash m => exact ⟨rfl, rfl, rfl, rfl⟩
          | setTarget m =>
              dsimp only [handleUpstreamMessage]
              split
              · exact sameConnections_setTarget s.sv1 m.channelId m.maximumTarget
              · exact ⟨rfl, rfl, sameConnections_withoutVardiff s.sv1.server m⟩

/-- The requests of every run are in order. -/
theorem asked_step (s : Tproxy env) (e : Event) (h : Asked s.sv1) : Asked (s.step e).sv1 := by
  cases he : s.connects e with
  | false => exact h.same (sameConnections_step s e he)
  | true =>
      cases e with
      | accept => exact h.accept env.firstTarget
      | handshakeMessage d =>
          rw [step, handleHandshakeMessage_sv1]
          exact h.handshakeMessage d
      | disconnect d => exact h.disconnect d
      | receiveUpstream =>
          cases hs : s.toSv1Server with
          | nil => simp [connects, hs] at he
          | cons m rest =>
              cases m with
              | openExtendedMiningChannelSuccess m =>
                  have hstep : (s.step .receiveUpstream).sv1 =
                      s.sv1.handleOpenSuccess env.firstTarget m := by
                    simp [step, Tproxy.receiveUpstream, hs, handleUpstreamMessage]
                  rw [hstep]
                  exact h.openSuccess env.firstTarget m
              | newExtendedMiningJob m => simp [connects, hs] at he
              | setNewPrevHash m => simp [connects, hs] at he
              | setTarget m => simp [connects, hs] at he
      | _ => cases he

theorem Owned.receiveUpstream (h : Owned s) : Owned (s.step .receiveUpstream) := by
  cases hs : s.toSv1Server with
  | nil =>
      have hsame : s.step .receiveUpstream = s := by
        simp [step, Tproxy.receiveUpstream, hs]
      rw [hsame]
      exact h
  | cons m rest =>
      have hstep : s.step .receiveUpstream =
          { s with toSv1Server := rest }.handleUpstreamMessage m := by
        simp [step, Tproxy.receiveUpstream, hs]
      cases m with
      | openExtendedMiningChannelSuccess m => exact h.openSuccess hs
      | newExtendedMiningJob m =>
          refine h.same (sameConnections_step s _ (by simp [connects, hs])) ?_ ?_ fun _ hm => ?_
          · rw [hstep, hs]
            rfl
          · rw [hstep]
            rfl
          · rw [hstep]
            exact hm
      | setNewPrevHash m =>
          refine h.same (sameConnections_step s _ (by simp [connects, hs])) ?_ ?_ fun _ hm => ?_
          · rw [hstep, hs]
            rfl
          · rw [hstep]
            rfl
          · rw [hstep]
            exact hm
      | setTarget m =>
          have hout : (({ s with toSv1Server := rest } : Tproxy env).handleUpstreamMessage
                (.setTarget m)).toSv1Server = rest ∧
              (({ s with toSv1Server := rest } : Tproxy env).handleUpstreamMessage
                (.setTarget m)).manager = s.manager ∧
              ∀ x ∈ s.toManager, x ∈ (({ s with toSv1Server := rest } :
                Tproxy env).handleUpstreamMessage (.setTarget m)).toManager := by
            dsimp only [handleUpstreamMessage]
            split
            · exact ⟨rfl, rfl, fun _ hx => hx⟩
            · exact ⟨rfl, rfl, fun _ hx => List.mem_append_left _ hx⟩
          obtain ⟨hrest, hmanager, hqueue⟩ := hout
          refine h.same (sameConnections_step s _ (by simp [connects, hs])) ?_ ?_ fun x hx => ?_
          · rw [hstep, hrest, hs]
            rfl
          · rw [hstep, hmanager]
          · rw [hstep]
            exact hqueue x hx

/-- A step that meets the condition leaves no channel over. -/
theorem owned_step (s : Tproxy env) (e : Event) (h : Owned s) (htime : s.InTime e) :
    Owned (s.step e) := by
  cases e with
  | accept => exact h.accept
  | handshakeMessage d => exact h.handshakeMessage d
  | disconnect d => exact h.disconnect htime
  | receiveUpstream => exact h.receiveUpstream
  | receiveDownstream => exact h.receiveDownstream htime
  | frame hash m => exact h.frame htime
  | sv1 e he =>
      exact h.same (sameConnections_step s _ rfl) rfl rfl fun m hm => List.mem_append_left _ hm
  | vardiff d newTarget =>
      have hrest : (s.step (.vardiff d newTarget)).toSv1Server = s.toSv1Server ∧
          (s.step (.vardiff d newTarget)).manager = s.manager ∧
          (s.step (.vardiff d newTarget)).toManager = s.toManager := by
        dsimp only [step]
        split <;> exact ⟨rfl, rfl, rfl⟩
      obtain ⟨hout, hmanager, hqueue⟩ := hrest
      refine h.same (sameConnections_step s _ rfl) ?_ hmanager fun m hm => hqueue ▸ hm
      rw [hout]
  | sendUpdateChannelMessages =>
      exact h.same (sameConnections_step s _ rfl) rfl rfl fun m hm => List.mem_append_left _ hm
  | sendImmediate => exact h.same (sameConnections_step s _ rfl) rfl rfl fun _ hm => hm
  | sendApplicable => exact h.same (sameConnections_step s _ rfl) rfl rfl fun _ hm => hm

theorem asked_initial (env : Env) : Asked (initial env).sv1 := by
  refine ⟨fun d _ => ⟨rfl, fun r h => by cases h⟩, fun r d c h => ?_, fun r r' d h => ?_⟩
  · cases h
  · cases h

theorem owned_initial (env : Env) : Owned (initial env) where
  asked := asked_initial env
  answers := by
    intro m hm
    cases hm
  nodup := List.nodup_nil
  held := by
    intro manager hm c hc
    obtain rfl := Option.some.inj hm
    cases hc

/-- A channel that only an answer on its way ties to a miner is left over when the miner leaves. -/
theorem late_disconnect_leaves {d : DownstreamId} {c : ChannelId}
    {manager : ChannelManager env.channels} (hmanager : s.manager = some manager)
    (hc : c ∈ manager.extendedChannels) (hsentinel : ¬IsSentinel manager.mode c)
    (hunknown : s.sv1.server.channelOf d ≠ some (some c)) (hother : ∀ d', d' ≠ d → ¬s.Belongs d' c)
    (hclose : .closeChannel c ∉ s.toManager) : ¬(s.step (.disconnect d)).ChannelsOwned := by
  have hchannel : ∀ d', (s.step (.disconnect d)).sv1.server.channelOf d' =
      if d' = d then none else s.sv1.server.channelOf d' := channelOf_disconnect s.sv1.server d
  intro howned
  rcases howned.held manager hmanager c hc hsentinel with ⟨d', hd'⟩ | hmem
  · by_cases heq : d' = d
    · subst heq
      rw [Belongs, hchannel, if_pos rfl] at hd'
      rcases hd' with hnone | ⟨hnone, -⟩
      · cases hnone
      · exact hnone rfl
    · rw [Belongs, hchannel, if_neg heq] at hd'
      exact hother d' heq hd'
  · rcases List.mem_append.mp hmem with hold | hnew
    · exact hclose hold
    · cases hdata : s.sv1.server.downstreams d with
      | none => simp [hdata] at hnew
      | some data =>
          have hid : data.channelId ≠ some c := by
            intro hid
            exact hunknown (by simp [channelOf, hdata, hid])
          rw [hdata] at hnew
          rcases List.mem_append.mp hnew with hupdate | hnew
          · split at hupdate
            · cases List.mem_singleton.mp hupdate
            · cases hupdate
          · obtain ⟨c', hknown, heq⟩ := List.mem_map.mp hnew
            obtain rfl : c' = c := by injection heq
            exact hid (Option.mem_toList.mp hknown)

end Steps

/-- In every run in which no miner leaves while an answer is on its way to it, and requests are
answered only for miners that still wait, every channel belongs to a connected miner or is about to
be closed, and each miner has at most one. -/
theorem channels_owned (env : Env) (es : List Event)
    (htime : Along step InTime (initial env) es) : (exec step (initial env) es).ChannelsOwned :=
  (exec_induct owned_step (owned_initial env) htime).channelsOwned

/-- A miner asks for its channel, and the request goes on to the upstream. -/
def channelAsked : List Event :=
  [.accept, .handshakeMessage 1, .receiveDownstream]

/-- The upstream opens the channel 3. -/
def channelAnswered : List Event :=
  [.frame UInt32.toNat (.openExtendedMiningChannelSuccess (sampleOpenSuccess 3 4))]

/-- A miner that stays until its answer, and then leaves. -/
theorem channels_owned_until_closed :
    (exec step (initial (referenceEnv .nonAggregated true 50))
      (channelAsked ++ channelAnswered ++
        [.receiveUpstream, .disconnect 1, .receiveDownstream])).ChannelsOwned :=
  channels_owned (referenceEnv .nonAggregated true 50) _ (by decide +kernel)

/-- A miner that leaves between its request and the answer. -/
def leftBeforeAnswer : List Event :=
  channelAsked ++ [.disconnect 1] ++ channelAnswered ++ [.receiveUpstream]

/-- The channel 3 stays open for nobody. -/
theorem channel_left_over :
    ¬∀ (env : Env) (es : List Event), (exec step (initial env) es).ChannelsOwned := by
  intro h
  have howned := h (referenceEnv .nonAggregated true 50) leftBeforeAnswer
  have hmode : (exec step (initial (referenceEnv .nonAggregated true 50))
      leftBeforeAnswer).manager.map (fun manager =>
        (manager.mode, decide ((3 : ChannelId) ∈ manager.extendedChannels))) =
          some (.nonAggregated, true) := by decide +kernel
  have hempty : (exec step (initial (referenceEnv .nonAggregated true 50))
      leftBeforeAnswer).toManager = [] := by decide +kernel
  have hasked : Asked (exec step (initial (referenceEnv .nonAggregated true 50))
      leftBeforeAnswer).sv1 := exec_invariant asked_step (asked_initial _) _
  have hfactory : (exec step (initial (referenceEnv .nonAggregated true 50))
      leftBeforeAnswer).sv1.downstreamIdFactory = 2 := by decide +kernel
  have hfew : ∀ d, d < 2 → (exec step (initial (referenceEnv .nonAggregated true 50))
      leftBeforeAnswer).sv1.server.channelOf d = none := by decide +kernel
  have hgone : ∀ d, (exec step (initial (referenceEnv .nonAggregated true 50))
      leftBeforeAnswer).sv1.server.channelOf d = none := by
    intro d
    rcases Nat.lt_or_ge d 2 with hlt | hge
    · exact hfew d hlt
    · exact (hasked.fresh d (hfactory ▸ hge)).1
  obtain ⟨manager, hm, hmap⟩ := Option.map_eq_some_iff.mp hmode
  obtain ⟨hmode, hmem⟩ := Prod.mk.inj hmap
  have hsentinel : ¬IsSentinel manager.mode 3 := by
    rw [hmode]
    decide
  rcases howned.held manager hm 3 (of_decide_eq_true hmem) hsentinel with ⟨d, hd⟩ | hclose
  · rcases hd with hd | ⟨hd, -⟩
    · rw [hgone] at hd
      cases hd
    · exact hd (hgone d)
  · rw [hempty] at hclose
    cases hclose

end Tproxy

end GridPoolSv2.Translator
