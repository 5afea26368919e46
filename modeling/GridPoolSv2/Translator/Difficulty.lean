import GridPoolSv2.Translator.ShareFidelity

/-!
# Translator.Difficulty: the difficulty a miner was told

With vardiff enabled a new target reaches a miner in two halves. `handle_vardiff_updates` writes it
to `pending_target` and builds a `mining.set_difficulty`, which may wait: for the other iterations
of the round, for the `SetTarget` of the upstream, in the queue of the connection, and in
`cached_set_difficulty` until the next job. Whichever task sends a cached `set_difficulty` moves
`pending_target` into `target`, the value `handle_submit` checks shares against.

* One iteration of the vardiff loop, one send of a `set_difficulty` to a queue, one delivery and
  one handshake completion is one step, and a run interleaves them in any order.
* What vardiff computes (`try_vardiff`, `hash_rate_to_target`) is part of the event, and
  `builds` says for which targets a `mining.set_difficulty` can be built.
* `Announced` is the condition on a run: a new target is set only when no `set_difficulty` with
  another target is on its way to the miner.

A delivery and a completion are steps with their sends. The source moves the target under the lock
of the connection and sends after it, so that inside one of them the target in force is that of a
message which is still to be sent. What is said here is said of the states between the steps; the
order of the sends themselves is the subject of `Translator.Handshake`.

Left out: `UpdateChannel` messages, hashrates and `stable_hashrate`.

Proof shape: `Passes` collects what most steps have in common, so that `Kept.sv1` covers them
at once. What is left are the steps that write a target or send a `set_difficulty`: the three
parts of a round, the handler of a `SetTarget`, the first message of a miner and the opening of
its channel.
-/

namespace GridPoolSv2.Translator

open Runs Sv1Server
open Function (update)

/-- `sv1_server::PendingTargetUpdate`. -/
structure PendingTargetUpdate where
  downstreamId : DownstreamId
  newTarget : Nat
  deriving Repr, DecidableEq

/-- The server with vardiff enabled. -/
structure VardiffServer where
  server : Sv1Server
  downstreamIdFactory : DownstreamId := 1
  /-- The connections with `queued_sv1_handshake_messages`. -/
  queuedHandshake : DownstreamId → Bool := fun _ => false
  pendingTargetUpdates : List PendingTargetUpdate := []
  /-- The `immediate_updates` of `handle_vardiff_updates` that were not sent yet. -/
  immediateUpdates : List PendingTargetUpdate := []
  /-- The `applicable_updates` of `handle_set_target_message` that were not sent yet. -/
  applicableUpdates : List PendingTargetUpdate := []

namespace VardiffServer

/-! ### Connections -/

/-- A connection is accepted in `start`. -/
def accept (s : VardiffServer) (firstTarget : Nat) : VardiffServer :=
  { s with
    downstreamIdFactory := s.downstreamIdFactory + 1
    server := s.server.connect s.downstreamIdFactory firstTarget }

/-- `handle_downstream_message` while the channel is not open: the first message asks for it. -/
def handleHandshakeMessage (s : VardiffServer) (d : DownstreamId) : VardiffServer :=
  match s.server.downstreams d with
  | none => s
  | some data =>
      match data.channelId with
      | some _ => s
      | none =>
          { s with
            server := if s.queuedHandshake d then s.server else s.server.handleOpenChannelRequest d
            queuedHandshake := update s.queuedHandshake d true }

/-- The `OpenExtendedMiningChannelSuccess` arm of `handle_upstream_message`. -/
def handleOpenSuccess (s : VardiffServer) (firstTarget : Nat)
    (m : OpenExtendedMiningChannelSuccess) : VardiffServer :=
  { s with
    server := s.server.handleOpenExtendedMiningChannelSuccess firstTarget m
    queuedHandshake := match s.server.requestIdToDownstreamId m.requestId with
      | none => s.queuedHandshake
      | some d =>
          if (s.server.downstreams d).isSome then update s.queuedHandshake d false
          else s.queuedHandshake }

/-! ### Vardiff

The three parts of a round: write the pending target, send what can be sent at once, and send the
rest. -/

/-- One iteration of `handle_vardiff_updates` that has found a new target. -/
def handleVardiffUpdate (s : VardiffServer) (d : DownstreamId) (newTarget : Nat) : VardiffServer :=
  match s.server.downstreams d with
  | none => s
  | some data =>
      match data.channelId with
      | none => s
      | some _ =>
          let s := { s with
            server := s.server.setData d { data with pendingTarget := some newTarget } }
          match data.upstreamTarget with
          | some upstreamTarget =>
              if newTarget ≥ upstreamTarget then
                { s with immediateUpdates := s.immediateUpdates ++ [⟨d, newTarget⟩] }
              else { s with pendingTargetUpdates := s.pendingTargetUpdates ++ [⟨d, newTarget⟩] }
          | none => { s with immediateUpdates := s.immediateUpdates ++ [⟨d, newTarget⟩] }

/-- Build the `mining.set_difficulty` of an update and queue it for its connection. -/
def sendSetDifficulty (builds : Nat → Bool) (server : Sv1Server) (u : PendingTargetUpdate) :
    Sv1Server :=
  if builds u.newTarget then server.enqueue u.downstreamId (.setDifficulty u.newTarget) else server

/-- The next immediate update is sent. -/
def sendImmediate (builds : Nat → Bool) (s : VardiffServer) : VardiffServer :=
  match s.immediateUpdates with
  | [] => s
  | u :: rest => { s with immediateUpdates := rest, server := sendSetDifficulty builds s.server u }

/-- Whether `get_pending_difficulty_updates` looks at an update. -/
def shouldProcess (d : Option DownstreamId) (u : PendingTargetUpdate) : Bool :=
  match d with
  | some d => u.downstreamId = d
  | none => true

/-- `get_pending_difficulty_updates`: the acceptable updates are handed over, and what was looked
at is no longer pending. -/
def getPendingDifficultyUpdates (s : VardiffServer) (newUpstreamTarget : Nat)
    (d : Option DownstreamId) : VardiffServer :=
  { s with
    applicableUpdates := s.applicableUpdates ++ s.pendingTargetUpdates.filter fun u =>
      shouldProcess d u && decide (u.newTarget ≥ newUpstreamTarget)
    pendingTargetUpdates := s.pendingTargetUpdates.filter fun u => !shouldProcess d u }

/-- `handle_set_target_message`. -/
def handleSetTargetMessage (s : VardiffServer) (channelId : ChannelId) (newUpstreamTarget : Nat) :
    VardiffServer :=
  match s.server.mode with
  | .aggregated =>
      let server := { s.server with
        downstreams := fun d => (s.server.downstreams d).map fun data =>
          { data with upstreamTarget := some newUpstreamTarget } }
      getPendingDifficultyUpdates { s with server := server } newUpstreamTarget none
  | .nonAggregated =>
      match s.server.channelIdToDownstreamId channelId with
      | none => s
      | some d =>
          match s.server.downstreams d with
          | none => s
          | some data =>
              let server :=
                s.server.setData d { data with upstreamTarget := some newUpstreamTarget }
              getPendingDifficultyUpdates { s with server := server } newUpstreamTarget (some d)

/-- `send_pending_set_difficulty_messages_to_downstream`, one update. -/
def sendApplicable (builds : Nat → Bool) (s : VardiffServer) : VardiffServer :=
  match s.applicableUpdates with
  | [] => s
  | u :: rest => { s with applicableUpdates := rest, server := sendSetDifficulty builds s.server u }

/-! ### Runs -/

/-- The steps of `Sv1Server` that open no channel and set no target. -/
def setsNoTarget : Sv1Server.Event → Bool
  | .connect _ _ | .openChannelRequest _ | .openSuccess _ _ | .pendingTarget _ _ => false
  | _ => true

inductive Event where
  | accept
  | handshakeMessage (d : DownstreamId)
  | openSuccess (m : OpenExtendedMiningChannelSuccess)
  | vardiff (d : DownstreamId) (newTarget : Nat)
  | sendImmediate
  | setTarget (channelId : ChannelId) (target : Nat)
  | sendApplicable
  | sv1 (e : Sv1Server.Event) (h : setsNoTarget e = true)

/-- One step; every connection starts with the target `firstTarget`. -/
def step (lib : Sv1Lib) (builds : Nat → Bool) (firstTarget : Nat) (s : VardiffServer) :
    Event → VardiffServer
  | .accept => s.accept firstTarget
  | .handshakeMessage d => s.handleHandshakeMessage d
  | .openSuccess m => s.handleOpenSuccess firstTarget m
  | .vardiff d newTarget => s.handleVardiffUpdate d newTarget
  | .sendImmediate => s.sendImmediate builds
  | .setTarget channelId target => s.handleSetTargetMessage channelId target
  | .sendApplicable => s.sendApplicable builds
  | .sv1 e _ => { s with server := Sv1Server.step lib s.server e }

/-- The server before its first connection. -/
def initial (mode : TproxyMode) (keepaliveIntervalSecs : UInt16) : VardiffServer :=
  { server := Sv1Server.initial mode keepaliveIntervalSecs }

/-! ### What a miner was told -/

/-- The target of a `mining.set_difficulty`. -/
def difficulty? : Notification → Option Nat
  | .setDifficulty t => some t
  | .notify _ => none

/-- The target of the last `mining.set_difficulty` sent to a miner. -/
def lastDifficulty (toMiner : List Notification) : Option Nat :=
  (toMiner.filterMap difficulty?).getLast?

/-- The target in force is the one the miner was told last. -/
def Told (data : DownstreamData) : Prop :=
  ∀ t, lastDifficulty data.toMiner = some t → data.target = t

/-- The targets of the updates for one connection. -/
def targetsOf (us : List PendingTargetUpdate) (d : DownstreamId) : List Nat :=
  (us.filter (·.downstreamId = d)).map (·.newTarget)

/-- The targets of the `set_difficulty` messages that are queued or cached for a connection. -/
def announced (s : Sv1Server) (d : DownstreamId) : List Nat :=
  ((s.queues d).getD []).filterMap difficulty? ++
    ((s.downstreams d).bind (·.cachedSetDifficulty)).toList

/-- The targets of all `set_difficulty` messages on their way to a connection. -/
def outstanding (s : VardiffServer) (d : DownstreamId) : List Nat :=
  announced s.server d ++
    (targetsOf s.immediateUpdates d ++ targetsOf s.applicableUpdates d ++
      targetsOf s.pendingTargetUpdates d)

/-- The condition on a step. -/
def Announced (s : VardiffServer) : Event → Prop
  | .vardiff d newTarget => ∀ t ∈ s.outstanding d, t = newTarget
  | _ => True

instance (s : VardiffServer) : ∀ e, Decidable (Announced s e)
  | .vardiff d newTarget => inferInstanceAs (Decidable (∀ t ∈ s.outstanding d, t = newTarget))
  | .accept | .handshakeMessage _ | .openSuccess _ | .sendImmediate | .setTarget _ _
  | .sendApplicable | .sv1 _ _ => isTrue trivial

/-! ### The invariant -/

/-- The target that is in force after the pending one is committed. -/
def nextTarget (data : DownstreamData) : Nat :=
  data.pendingTarget.getD data.target

structure Kept (firstTarget : Nat) (s : VardiffServer) : Prop where
  /-- Every `set_difficulty` on its way carries the target its sending puts in force. -/
  outstanding : ∀ d data, s.server.downstreams d = some data →
    ∀ t ∈ s.outstanding d, t = nextTarget data
  told : ∀ d data, s.server.downstreams d = some data → Told data
  unopened : ∀ d data, s.server.downstreams d = some data → data.channelId = none →
    nextTarget data = firstTarget
  /-- No id that is still to be given out is in use. -/
  fresh : ∀ d, s.downstreamIdFactory ≤ d →
    s.server.downstreams d = none ∧ s.server.queues d = none ∧ s.outstanding d = [] ∧
      ∀ r, s.server.requestIdToDownstreamId r ≠ some d
  /-- A channel is asked for once, and only while it is not open. -/
  requests : ∀ r d, s.server.requestIdToDownstreamId r = some d →
    ∀ data, s.server.downstreams d = some data →
      data.channelId = none ∧ s.queuedHandshake d = true
  distinct : ∀ r r' d, s.server.requestIdToDownstreamId r = some d →
    s.server.requestIdToDownstreamId r' = some d → r = r'

theorem kept_initial (firstTarget : Nat) (mode : TproxyMode) (k : UInt16) :
    Kept firstTarget (initial mode k) where
  outstanding := by
    intro d data h
    cases h
  told := by
    intro d data h
    cases h
  unopened := by
    intro d data h
    cases h
  fresh := fun d _ => ⟨rfl, rfl, rfl, nofun⟩
  requests := by
    intro r d h
    cases h
  distinct := by
    intro r r' d h
    cases h

/-! ### Steps that set no target

`Passes` is what all of them do: no new difficulty is announced, and one that is delivered is in
force. -/

@[simp] theorem lastDifficulty_notify (toMiner : List Notification) (n : Notify) :
    lastDifficulty (toMiner ++ [.notify n]) = lastDifficulty toMiner := by
  simp [lastDifficulty, difficulty?]

@[simp] theorem lastDifficulty_setDifficulty (toMiner : List Notification) (t : Nat) :
    lastDifficulty (toMiner ++ [.setDifficulty t]) = some t := by
  simp [lastDifficulty, difficulty?]

/-- What such a step may do to one connection: its cached `set_difficulty` may be sent, and then
the pending target is in force. -/
structure Forwards (data data' : DownstreamData) : Prop where
  channelId : data'.channelId = data.channelId
  nextTarget : nextTarget data' = nextTarget data
  told : (∀ t, data.cachedSetDifficulty = some t → t = VardiffServer.nextTarget data) →
    Told data → Told data'

theorem Forwards.of_eq {data data' : DownstreamData} (hchannel : data'.channelId = data.channelId)
    (htarget : data'.target = data.target) (hpending : data'.pendingTarget = data.pendingTarget)
    (hsent : data'.toMiner = data.toMiner) : Forwards data data' where
  channelId := hchannel
  nextTarget := by rw [VardiffServer.nextTarget, VardiffServer.nextTarget, htarget, hpending]
  told := by
    intro _ h
    rw [Told, htarget, hsent]
    exact h

theorem Forwards.refl (data : DownstreamData) : Forwards data data :=
  .of_eq rfl rfl rfl rfl

/-- The `Downstream` task handles one notification. -/
theorem forwards_message (now : Nat) (data : DownstreamData) (n : Notification) :
    Forwards data (handleSv1ServerMessage now data n) := by
  cases n with
  | setDifficulty t => exact .of_eq rfl rfl rfl rfl
  | notify n =>
      unfold handleSv1ServerMessage
      dsimp only
      split
      · split
        · rename_i t ht
          refine ⟨rfl, rfl, ?_⟩
          intro hcached _ t' ht'
          have hlast : lastDifficulty (data.toMiner ++
              [.setDifficulty t, .notify { n with cleanJobs := true }]) = some t := by
            simp [lastDifficulty, difficulty?, List.filterMap_cons]
          obtain rfl : t = t' := Option.some.inj (hlast.symm.trans ht')
          exact (hcached t ht).symm
        · refine ⟨rfl, rfl, ?_⟩
          intro _ htold t ht
          exact htold t ((lastDifficulty_notify _ _).symm.trans ht)
      · exact .of_eq rfl rfl rfl rfl

/-- A completion sends the cached difficulty and puts it in force. -/
theorem forwards_completion (now : Nat) (data : DownstreamData) :
    Forwards data (handleSv1HandshakeCompletion now data) := by
  unfold handleSv1HandshakeCompletion
  cases hc : data.cachedSetDifficulty with
  | some t =>
      have hlast : ∀ data' : DownstreamData, data'.toMiner = data.toMiner ++ [.setDifficulty t] →
          data'.target = nextTarget data →
          (∀ t', data.cachedSetDifficulty = some t' → t' = nextTarget data) → Told data' := by
        intro data' hsent htarget hcached t' ht'
        rw [hsent, lastDifficulty_setDifficulty] at ht'
        cases ht'
        exact htarget.trans (hcached t hc).symm
      cases data.cachedNotify with
      | some n =>
          refine ⟨rfl, rfl, ?_⟩
          intro hcached _ t' ht'
          dsimp only at ht'
          rw [lastDifficulty_notify] at ht'
          exact hlast { applyPendingTarget data with
            toMiner := data.toMiner ++ [.setDifficulty t] } rfl rfl hcached t' ht'
      | none => exact ⟨rfl, rfl, fun hcached _ => hlast _ rfl rfl hcached⟩
  | none =>
      cases data.cachedNotify with
      | some n =>
          refine ⟨rfl, rfl, ?_⟩
          intro _ htold t ht
          exact htold t ((lastDifficulty_notify _ _).symm.trans ht)
      | none => exact .of_eq rfl rfl rfl rfl

/-- A step of `Sv1Server` that sets no target. -/
structure Passes (s s' : Sv1Server) : Prop where
  data : ∀ d data', s'.downstreams d = some data' →
    ∃ data, s.downstreams d = some data ∧ Forwards data data'
  announced : ∀ d, ∀ t ∈ announced s' d, t ∈ VardiffServer.announced s d
  queues : ∀ d, s.queues d = none → s'.queues d = none
  requests : s'.requestIdToDownstreamId = s.requestIdToDownstreamId

section Passing

variable {s s' : Sv1Server} {data data' : DownstreamData}

/-- A queue is left alone, dropped, or gets a job. -/
def QueueKept (q q' : Option (List Notification)) : Prop :=
  q' = q ∨ q' = none ∨ ∃ n, q' = q.map (· ++ [.notify n])

/-- A connection is left alone, dropped, or forwards what is cached for it. -/
def DataKept (o o' : Option DownstreamData) : Prop :=
  o' = o ∨ o' = none ∨ ∃ data data', o = some data ∧ o' = some data' ∧ Forwards data data' ∧
    (data'.cachedSetDifficulty = data.cachedSetDifficulty ∨ data'.cachedSetDifficulty = none)

theorem QueueKept.difficulties {q q' : Option (List Notification)} (h : QueueKept q q') {t : Nat}
    (ht : t ∈ (q'.getD []).filterMap difficulty?) : t ∈ (q.getD []).filterMap difficulty? := by
  rcases h with rfl | rfl | ⟨n, rfl⟩
  · exact ht
  · cases ht
  · cases q with
    | none => cases ht
    | some l => simpa [difficulty?, List.filterMap_cons] using ht

theorem DataKept.cached {o o' : Option DownstreamData} (h : DataKept o o') {t : Nat}
    (ht : t ∈ (o'.bind (·.cachedSetDifficulty)).toList) :
    t ∈ (o.bind (·.cachedSetDifficulty)).toList := by
  rcases h with rfl | rfl | ⟨data, data', rfl, rfl, -, hc | hc⟩
  · exact ht
  · cases ht
  · rwa [Option.bind_some, hc] at ht
  · rw [Option.bind_some, hc] at ht
    cases ht

theorem Passes.of_kept (hdata : ∀ d, DataKept (s.downstreams d) (s'.downstreams d))
    (hqueues : ∀ d, QueueKept (s.queues d) (s'.queues d))
    (hrequests : s'.requestIdToDownstreamId = s.requestIdToDownstreamId) : Passes s s' where
  data := by
    intro d data' hd'
    rcases hdata d with heq | heq | ⟨data, data'', hd, heq, hf, -⟩
    · exact ⟨data', heq.symm.trans hd', Forwards.refl data'⟩
    · rw [hd'] at heq
      cases heq
    · obtain rfl : data' = data'' := Option.some.inj (hd'.symm.trans heq)
      exact ⟨data, hd, hf⟩
  announced := by
    intro d t ht
    rw [VardiffServer.announced, List.mem_append] at ht ⊢
    exact ht.imp (hqueues d).difficulties (hdata d).cached
  queues := by
    intro d hd
    rcases hqueues d with heq | heq | ⟨n, heq⟩
    · rw [heq, hd]
    · exact heq
    · rw [heq, hd]
      rfl
  requests := hrequests

theorem dataKept_update (f : DownstreamId → Option DownstreamData) (d : DownstreamId)
    (hd : f d = some data) (hf : Forwards data data')
    (hcached : data'.cachedSetDifficulty = data.cachedSetDifficulty ∨
      data'.cachedSetDifficulty = none) (d' : DownstreamId) :
    DataKept (f d') (update f d (some data') d') := by
  by_cases heq : d' = d
  · subst heq
    exact .inr (.inr ⟨data, data', hd, Function.update_self .., hf, hcached⟩)
  · exact .inl (Function.update_of_ne heq ..)

/-- One connection's data is replaced. -/
theorem passes_setData (d : DownstreamId) (hd : s.downstreams d = some data)
    (hf : Forwards data data') (hcached : data'.cachedSetDifficulty = data.cachedSetDifficulty ∨
      data'.cachedSetDifficulty = none) : Passes s (s.setData d data') :=
  .of_kept (dataKept_update _ d hd hf hcached) (fun _ => .inl rfl) rfl

theorem queueKept_enqueue (s : Sv1Server) (d : DownstreamId) (n : Notify) (d' : DownstreamId) :
    QueueKept (s.queues d') ((s.enqueue d (.notify n)).queues d') := by
  by_cases heq : d' = d
  · subst heq
    exact .inr (.inr ⟨n, Function.update_self ..⟩)
  · exact .inl (Function.update_of_ne heq ..)

theorem passes_sendToChannel (s : Sv1Server) (ch : ChannelId) (n : Notify) :
    Passes s (s.sendToChannel ch (.notify n)) := by
  unfold sendToChannel
  split
  · exact .of_kept (fun _ => .inl rfl) (fun _ => .inr (.inr ⟨n, rfl⟩)) rfl
  · split
    · exact .of_kept (fun _ => .inl rfl) (fun _ => .inl rfl) rfl
    · exact .of_kept (fun _ => .inl rfl) (queueKept_enqueue s _ n) rfl

theorem passes_newExtendedMiningJob (lib : Sv1Lib) (s : Sv1Server) (m : NewExtendedMiningJob) :
    Passes s (s.handleNewExtendedMiningJob lib m) := by
  have hrefl : Passes s s := .of_kept (fun _ => .inl rfl) (fun _ => .inl rfl) rfl
  unfold handleNewExtendedMiningJob
  split
  · exact hrefl
  · dsimp only
    split
    · exact hrefl
    · -- the job storage and the history play no part
      rename_i notify _
      obtain ⟨hdata, hannounced, hqueues, hrequests⟩ := passes_sendToChannel
        { s with
          validSv1Jobs := update s.validSv1Jobs (s.jobChannel m.channelId)
            (some ((if decide (m.jobId = _) then [] else
              (s.validSv1Jobs (s.jobChannel m.channelId)).getD []) ++ [notify]))
          history := ⟨m, notify⟩ :: s.history }
        (s.jobChannel m.channelId) notify
      exact ⟨hdata, hannounced, hqueues, hrequests⟩

theorem passes_keepalive (s : Sv1Server) (now : Nat) (d : DownstreamId) :
    Passes s (s.keepalive now d) := by
  have hrefl : Passes s s := .of_kept (fun _ => .inl rfl) (fun _ => .inl rfl) rfl
  unfold keepalive
  split
  · exact hrefl
  · rename_i data hdata
    split
    · split
      · exact hrefl
      · dsimp only
        split
        · exact hrefl
        · have hpush : ∀ (t : Sv1Server) (n : Notify), t.downstreams = s.downstreams →
              t.queues = s.queues → t.requestIdToDownstreamId = s.requestIdToDownstreamId →
              Passes s (if (t.queues d).isSome then (t.enqueue d (.notify n)).setData d
                { data with lastJobReceivedTime := some now } else t) := by
            intro t n hdown hqueues hrequests
            split
            · refine .of_kept ?_ ?_ hrequests
              · rw [← hdown] at hdata ⊢
                exact dataKept_update _ d hdata (.of_eq rfl rfl rfl rfl) (.inl rfl)
              · rw [← hqueues]
                exact queueKept_enqueue t d n
            · refine .of_kept ?_ ?_ hrequests
              · rw [hdown]
                exact fun _ => .inl rfl
              · rw [hqueues]
                exact fun _ => .inl rfl
          unfold pushKeepalive
          split <;> exact hpush _ _ rfl rfl rfl
    · exact hrefl

theorem passes_deliver (s : Sv1Server) (now : Nat) (d : DownstreamId) :
    Passes s (s.deliver now d) := by
  unfold deliver
  split
  · rename_i data n rest hdata hqueue
    refine ⟨?_, ?_, ?_, rfl⟩
    · intro d' data' hd'
      by_cases heq : d' = d
      · subst heq
        simp only [setData, Function.update_self, Option.some.injEq] at hd'
        subst hd'
        exact ⟨data, hdata, forwards_message now data n⟩
      · simp only [setData, Function.update_of_ne heq] at hd'
        exact ⟨data', hd', Forwards.refl data'⟩
    · intro d' t ht
      by_cases heq : d' = d
      · subst heq
        simp only [announced, setData, Function.update_self, Option.getD_some, Option.bind_some,
          List.mem_append] at ht
        simp only [announced, hqueue, hdata, Option.getD_some, Option.bind_some, List.mem_append]
        rcases ht with ht | ht
        · refine .inl ?_
          rw [List.filterMap_cons]
          split
          · exact ht
          · exact List.mem_cons_of_mem _ ht
        · cases n with
          | setDifficulty t' =>
              -- a `set_difficulty` moves from the queue into the cache
              simp only [handleSv1ServerMessage, Option.toList_some, List.mem_singleton] at ht
              subst ht
              exact .inl List.mem_cons_self
          | notify n =>
              refine .inr ?_
              unfold handleSv1ServerMessage at ht
              dsimp only at ht
              split at ht
              · split at ht
                · cases ht
                · exact ht
              · exact ht
      · simp only [announced, setData, Function.update_of_ne heq] at ht
        exact ht
    · intro d' hd'
      by_cases heq : d' = d
      · subst heq
        rw [hqueue] at hd'
        cases hd'
      · simpa only [Function.update_of_ne heq] using hd'
  · exact .of_kept (fun _ => .inl rfl) (fun _ => .inl rfl) rfl

theorem cached_completion (now : Nat) (data : DownstreamData) :
    (handleSv1HandshakeCompletion now data).cachedSetDifficulty = none := by
  unfold handleSv1HandshakeCompletion
  cases data.cachedSetDifficulty <;> cases data.cachedNotify <;> rfl

theorem passes_authorize (s : Sv1Server) (now : Nat) (d : DownstreamId) (name : List Char) :
    Passes s (s.handleAuthorize now d name) := by
  unfold handleAuthorize
  split
  · exact .of_kept (fun _ => .inl rfl) (fun _ => .inl rfl) rfl
  · rename_i data hdata
    obtain ⟨hchannel, hnext, htold⟩ := forwards_completion now
      { data with userIdentity := tlvCompatibleUsername name }
    exact passes_setData d hdata ⟨hchannel, hnext, htold⟩ (.inr (cached_completion now _))

theorem passes_configure (s : Sv1Server) (d : DownstreamId) (mask minBit : Option UInt32) :
    Passes s (s.handleConfigure d mask minBit) := by
  unfold handleConfigure
  split
  · exact .of_kept (fun _ => .inl rfl) (fun _ => .inl rfl) rfl
  · rename_i data hdata
    exact passes_setData d hdata (.of_eq rfl rfl rfl rfl) (.inl rfl)

theorem passes_submit (lib : Sv1Lib) (s : Sv1Server) (d : DownstreamId) (request : Submit) :
    Passes s (s.handleSubmit lib d request) := by
  have hrefl : Passes s s := .of_kept (fun _ => .inl rfl) (fun _ => .inl rfl) rfl
  unfold handleSubmit
  split
  · exact hrefl
  · rename_i data hdata
    split
    · exact hrefl
    · split
      · exact hrefl
      · dsimp only
        split
        · exact passes_setData d hdata (.of_eq rfl rfl rfl rfl) (.inl rfl)
        · exact hrefl

theorem handleSubmitShares_connections (lib : Sv1Lib) (s : Sv1Server)
    (message : SubmitShareWithChannelId) (check : Option ShareCheck) :
    (s.handleSubmitShares lib message check).downstreams = s.downstreams ∧
      (s.handleSubmitShares lib message check).queues = s.queues ∧
      (s.handleSubmitShares lib message check).requestIdToDownstreamId =
        s.requestIdToDownstreamId := by
  unfold handleSubmitShares
  split
  · exact ⟨rfl, rfl, rfl⟩
  · dsimp only
    split
    · exact ⟨rfl, rfl, rfl⟩
    · split
      · exact ⟨rfl, rfl, rfl⟩
      · split
        · exact ⟨rfl, rfl, rfl⟩
        · split <;> exact ⟨rfl, rfl, rfl⟩

theorem passes_flush (lib : Sv1Lib) (s : Sv1Server) (d : DownstreamId) :
    Passes s (s.flushPending lib d) := by
  have hrefl : Passes s s := .of_kept (fun _ => .inl rfl) (fun _ => .inl rfl) rfl
  unfold flushPending
  split
  · exact hrefl
  · rename_i data hdata
    split
    · exact hrefl
    · rename_i share _
      obtain ⟨hdown, hqueues, hrequests⟩ := handleSubmitShares_connections lib
        (s.setData d { data with pendingShare := none, accepted := none }) share data.accepted
      refine .of_kept ?_ ?_ hrequests
      · rw [hdown]
        exact dataKept_update _ d hdata (.of_eq rfl rfl rfl rfl) (.inl rfl)
      · rw [hqueues]
        exact fun _ => .inl rfl

theorem passes_disconnect (s : Sv1Server) (d : DownstreamId) :
    Passes s (s.handleDownstreamDisconnect d) := by
  refine .of_kept ?_ ?_ rfl
  · intro d'
    by_cases heq : d' = d
    · subst heq
      exact .inr (.inl (Function.update_self ..))
    · exact .inl (Function.update_of_ne heq ..)
  · intro d'
    by_cases heq : d' = d
    · subst heq
      exact .inr (.inl (Function.update_self ..))
    · exact .inl (Function.update_of_ne heq ..)

/-- Every step of `Sv1Server` that opens no channel and sets no target passes. -/
theorem passes_step (lib : Sv1Lib) (s : Sv1Server) (e : Sv1Server.Event)
    (he : setsNoTarget e = true) : Passes s (Sv1Server.step lib s e) := by
  cases e with
  | connect | openChannelRequest | openSuccess | pendingTarget => cases he
  | disconnect d => exact passes_disconnect s d
  | setNewPrevHash m => exact .of_kept (fun _ => .inl rfl) (fun _ => .inl rfl) rfl
  | newExtendedMiningJob m => exact passes_newExtendedMiningJob lib s m
  | keepalive now d => exact passes_keepalive s now d
  | deliver now d => exact passes_deliver s now d
  | configure d mask minBit => exact passes_configure s d mask minBit
  | authorize now d name => exact passes_authorize s now d name
  | submit d request => exact passes_submit lib s d request
  | flush d => exact passes_flush lib s d

end Passing

/-! ### Every step -/

section Steps

variable {firstTarget : Nat} {s s' : VardiffServer}

/-- A step that sets no target keeps the invariant. -/
theorem Kept.pass (h : Kept firstTarget s)
    (hdata : ∀ d data', s'.server.downstreams d = some data' →
      ∃ data, s.server.downstreams d = some data ∧ Forwards data data')
    (hout : ∀ d, ∀ t ∈ s'.outstanding d, t ∈ s.outstanding d)
    (hqueues : ∀ d, s.server.queues d = none → s'.server.queues d = none)
    (hrequests : ∀ r d, s'.server.requestIdToDownstreamId r = some d →
      s.server.requestIdToDownstreamId r = some d)
    (hfactory : s'.downstreamIdFactory = s.downstreamIdFactory)
    (hqueued : s'.queuedHandshake = s.queuedHandshake) : Kept firstTarget s' where
  outstanding := by
    intro d data' hd' t ht
    obtain ⟨data, hd, hf⟩ := hdata d data' hd'
    rw [hf.nextTarget]
    exact h.outstanding d data hd t (hout d t ht)
  told := by
    intro d data' hd'
    obtain ⟨data, hd, hf⟩ := hdata d data' hd'
    refine hf.told ?_ (h.told d data hd)
    intro t ht
    apply h.outstanding d data hd t
    simp [VardiffServer.outstanding, VardiffServer.announced, hd, ht]
  unopened := by
    intro d data' hd' hchannel
    obtain ⟨data, hd, hf⟩ := hdata d data' hd'
    rw [hf.nextTarget]
    exact h.unopened d data hd (hf.channelId.symm.trans hchannel)
  fresh := by
    intro d hd
    rw [hfactory] at hd
    obtain ⟨hnone, hqueue, hempty, hask⟩ := h.fresh d hd
    refine ⟨?_, hqueues d hqueue, ?_, fun r hr => hask r (hrequests r d hr)⟩
    · cases hd' : s'.server.downstreams d with
      | none => rfl
      | some data' =>
          obtain ⟨data, hsome, -⟩ := hdata d data' hd'
          exact absurd (hnone.symm.trans hsome) nofun
    · rw [List.eq_nil_iff_forall_not_mem]
      intro t ht
      have hmem := hout d t ht
      rw [hempty] at hmem
      cases hmem
  requests := by
    intro r d hr data' hd'
    rw [hqueued]
    obtain ⟨data, hd, hf⟩ := hdata d data' hd'
    obtain ⟨hchannel, hwaiting⟩ := h.requests r d (hrequests r d hr) data hd
    exact ⟨hf.channelId.trans hchannel, hwaiting⟩
  distinct := by
    intro r r' d hr hr'
    exact h.distinct r r' d (hrequests r d hr) (hrequests r' d hr')

theorem Kept.sv1 (h : Kept firstTarget s) {server : Sv1Server} (hp : Passes s.server server) :
    Kept firstTarget { s with server := server } := by
  refine h.pass hp.data ?_ hp.queues (fun r d hr => hp.requests ▸ hr) rfl rfl
  intro d t ht
  rw [VardiffServer.outstanding, List.mem_append] at ht ⊢
  exact ht.imp_left (hp.announced d t)

theorem mem_targetsOf {us : List PendingTargetUpdate} {d : DownstreamId} {t : Nat} :
    t ∈ targetsOf us d ↔ ⟨d, t⟩ ∈ us := by
  simp only [targetsOf, List.mem_map, List.mem_filter, decide_eq_true_eq]
  constructor
  · rintro ⟨u, ⟨hu, rfl⟩, rfl⟩
    exact hu
  · intro hu
    exact ⟨⟨d, t⟩, ⟨hu, rfl⟩, rfl⟩

/-- An outstanding target is announced or in one of the lists of updates. -/
theorem mem_outstanding {d : DownstreamId} {t : Nat} :
    t ∈ s.outstanding d ↔ t ∈ announced s.server d ∨ ⟨d, t⟩ ∈ s.immediateUpdates ∨
      ⟨d, t⟩ ∈ s.applicableUpdates ∨ ⟨d, t⟩ ∈ s.pendingTargetUpdates := by
  simp only [VardiffServer.outstanding, List.mem_append, mem_targetsOf, or_assoc]

/-- Sending an update announces its target. -/
theorem announced_sendSetDifficulty (builds : Nat → Bool) (server : Sv1Server)
    (u : PendingTargetUpdate) {d : DownstreamId} {t : Nat}
    (ht : t ∈ announced (sendSetDifficulty builds server u) d) :
    t ∈ announced server d ∨ u = ⟨d, t⟩ := by
  unfold sendSetDifficulty at ht
  split at ht
  · by_cases heq : d = u.downstreamId
    · subst heq
      cases hq : server.queues u.downstreamId with
      | none =>
          refine .inl ?_
          simpa [announced, enqueue, hq] using ht
      | some l =>
          simp only [announced, enqueue, Function.update_self, hq, Option.map_some,
            Option.getD_some, List.filterMap_append, List.mem_append] at ht
          simp only [announced, hq, Option.getD_some, List.mem_append]
          rcases ht with (ht | ht) | ht
          · exact .inl (.inl ht)
          · obtain rfl : t = u.newTarget := by simpa [difficulty?] using ht
            exact .inr rfl
          · exact .inl (.inr ht)
    · simp only [announced, enqueue, Function.update_of_ne heq] at ht
      exact .inl ht
  · exact .inl ht

theorem downstreams_sendSetDifficulty (builds : Nat → Bool) (server : Sv1Server)
    (u : PendingTargetUpdate) :
    (sendSetDifficulty builds server u).downstreams = server.downstreams ∧
      (sendSetDifficulty builds server u).requestIdToDownstreamId =
        server.requestIdToDownstreamId := by
  unfold sendSetDifficulty
  split <;> exact ⟨rfl, rfl⟩

theorem queues_sendSetDifficulty (builds : Nat → Bool) (server : Sv1Server)
    (u : PendingTargetUpdate) {d : DownstreamId} (hd : server.queues d = none) :
    (sendSetDifficulty builds server u).queues d = none := by
  unfold sendSetDifficulty
  split
  · by_cases heq : d = u.downstreamId
    · subst heq
      simp [enqueue, hd]
    · simpa only [enqueue, Function.update_of_ne heq] using hd
  · exact hd

/-- An update moves from a list of unsent ones into the queue of its connection. -/
theorem Kept.send (h : Kept firstTarget s) (builds : Nat → Bool) {u : PendingTargetUpdate}
    {immediate applicable : List PendingTargetUpdate}
    (hu : u ∈ s.immediateUpdates ∨ u ∈ s.applicableUpdates)
    (himmediate : ∀ v ∈ immediate, v ∈ s.immediateUpdates)
    (happlicable : ∀ v ∈ applicable, v ∈ s.applicableUpdates) :
    Kept firstTarget { s with
      immediateUpdates := immediate
      applicableUpdates := applicable
      server := sendSetDifficulty builds s.server u } := by
  obtain ⟨hdown, hrequests⟩ := downstreams_sendSetDifficulty builds s.server u
  refine h.pass ?_ ?_ (fun d => queues_sendSetDifficulty builds s.server u)
    (fun r d hr => hrequests ▸ hr) rfl rfl
  · intro d data' hd'
    exact ⟨data', by rwa [← hdown], Forwards.refl data'⟩
  · intro d t ht
    rw [mem_outstanding] at ht ⊢
    rcases ht with ht | ht | ht | ht
    · rcases announced_sendSetDifficulty builds s.server u ht with ht | rfl
      · exact .inl ht
      · rcases hu with hu | hu
        · exact .inr (.inl hu)
        · exact .inr (.inr (.inl hu))
    · exact .inr (.inl (himmediate _ ht))
    · exact .inr (.inr (.inl (happlicable _ ht)))
    · exact .inr (.inr (.inr ht))

theorem Kept.sendImmediate (h : Kept firstTarget s) (builds : Nat → Bool) :
    Kept firstTarget (s.sendImmediate builds) := by
  unfold VardiffServer.sendImmediate
  split
  · exact h
  · rename_i u rest hs
    refine h.send builds (.inl ?_) ?_ (fun _ hv => hv)
    · rw [hs]
      exact List.mem_cons_self
    · rw [hs]
      exact fun v hv => List.mem_cons_of_mem u hv

theorem Kept.sendApplicable (h : Kept firstTarget s) (builds : Nat → Bool) :
    Kept firstTarget (s.sendApplicable builds) := by
  unfold VardiffServer.sendApplicable
  split
  · exact h
  · rename_i u rest hs
    refine h.send builds (.inr ?_) (fun _ hv => hv) ?_
    · rw [hs]
      exact List.mem_cons_self
    · rw [hs]
      exact fun v hv => List.mem_cons_of_mem u hv

/-- An answer of the upstream hands pending updates over or drops them. -/
theorem Kept.getPending (h : Kept firstTarget s) (t : Nat) (d : Option DownstreamId) :
    Kept firstTarget (s.getPendingDifficultyUpdates t d) := by
  refine h.pass (fun d' data hd' => ⟨data, hd', Forwards.refl data⟩) ?_ (fun _ hd' => hd')
    (fun _ _ hr => hr) rfl rfl
  intro d' t' ht'
  rw [mem_outstanding] at ht' ⊢
  rcases ht' with ht' | ht' | ht' | ht'
  · exact .inl ht'
  · exact .inr (.inl ht')
  · rcases List.mem_append.mp ht' with ht' | ht'
    · exact .inr (.inr (.inl ht'))
    · exact .inr (.inr (.inr (List.mem_filter.mp ht').1))
  · exact .inr (.inr (.inr (List.mem_filter.mp ht').1))

theorem Kept.setTarget (h : Kept firstTarget s) (ch : ChannelId) (t : Nat) :
    Kept firstTarget (s.handleSetTargetMessage ch t) := by
  unfold handleSetTargetMessage
  split
  · apply Kept.getPending
    refine h.sv1 (.of_kept ?_ (fun _ => .inl rfl) rfl)
    intro d
    dsimp only
    cases hd : s.server.downstreams d with
    | none => exact .inl rfl
    | some data => exact .inr (.inr ⟨data, _, rfl, rfl, .of_eq rfl rfl rfl rfl, .inl rfl⟩)
  · split
    · exact h
    · rename_i d _
      split
      · exact h
      · rename_i data hdata
        apply Kept.getPending
        exact h.sv1 (passes_setData d hdata (.of_eq rfl rfl rfl rfl) (.inl rfl))

/-- A new connection has the first target and nothing on its way. -/
theorem Kept.accept (h : Kept firstTarget s) : Kept firstTarget (s.accept firstTarget) := by
  obtain ⟨hnone, hqueue, hempty, hask⟩ := h.fresh s.downstreamIdFactory (Nat.le_refl _)
  have hserver : s.server.connect s.downstreamIdFactory firstTarget =
      { s.server.setData s.downstreamIdFactory { target := firstTarget } with
        queues := update s.server.queues s.downstreamIdFactory (some []) } := by
    simp only [connect, hqueue]
  unfold VardiffServer.accept
  rw [hserver]
  refine ⟨?_, ?_, ?_, ?_, ?_, h.distinct⟩
  · intro d data hd t ht
    by_cases heq : d = s.downstreamIdFactory
    · subst heq
      rw [mem_outstanding] at ht
      have hlists : t ∉ s.outstanding s.downstreamIdFactory := by
        rw [hempty]
        exact List.not_mem_nil
      rw [mem_outstanding] at hlists
      rcases ht with ht | ht
      · simp [announced, setData] at ht
      · exact absurd (.inr ht) hlists
    · simp only [setData, Function.update_of_ne heq] at hd
      apply h.outstanding d data hd t
      rw [mem_outstanding] at ht ⊢
      simpa only [announced, setData, Function.update_of_ne heq] using ht
  · intro d data hd
    by_cases heq : d = s.downstreamIdFactory
    · subst heq
      simp only [setData, Function.update_self, Option.some.injEq] at hd
      subst hd
      intro t ht
      cases ht
    · simp only [setData, Function.update_of_ne heq] at hd
      exact h.told d data hd
  · intro d data hd hchannel
    by_cases heq : d = s.downstreamIdFactory
    · subst heq
      simp only [setData, Function.update_self, Option.some.injEq] at hd
      subst hd
      rfl
    · simp only [setData, Function.update_of_ne heq] at hd
      exact h.unopened d data hd hchannel
  · intro d hd
    have hne : d ≠ s.downstreamIdFactory := Nat.ne_of_gt hd
    obtain ⟨hnone', hqueue', hempty', hask'⟩ := h.fresh d (Nat.le_of_succ_le hd)
    refine ⟨?_, ?_, ?_, hask'⟩
    · simpa only [setData, Function.update_of_ne hne] using hnone'
    · simpa only [setData, Function.update_of_ne hne] using hqueue'
    · simpa only [VardiffServer.outstanding, announced, setData, Function.update_of_ne hne]
        using hempty'
  · intro r d hr data hd
    by_cases heq : d = s.downstreamIdFactory
    · subst heq
      exact absurd hr (hask r)
    · simp only [setData, Function.update_of_ne heq] at hd
      exact h.requests r d hr data hd

/-- A connection in use has an id that was given out. -/
theorem Kept.lt_factory (h : Kept firstTarget s) {d : DownstreamId} {data : DownstreamData}
    (hd : s.server.downstreams d = some data) : d < s.downstreamIdFactory := by
  by_contra hge
  have hnone := (h.fresh d (Nat.le_of_not_lt hge)).1
  rw [hd] at hnone
  cases hnone

/-- The channel of a connection is asked for. -/
theorem Kept.request (h : Kept firstTarget s) {d : DownstreamId} {data : DownstreamData}
    (hd : s.server.downstreams d = some data) (hchannel : data.channelId = none)
    (hqueued : s.queuedHandshake d = false) :
    Kept firstTarget { s with
      server := s.server.handleOpenChannelRequest d
      queuedHandshake := update s.queuedHandshake d true } := by
  refine ⟨h.outstanding, h.told, h.unopened, ?_, ?_, ?_⟩
  · intro d' hd'
    obtain ⟨hnone, hqueue, hempty, hask⟩ := h.fresh d' hd'
    refine ⟨hnone, hqueue, hempty, ?_⟩
    intro r hr
    by_cases heq : r = s.server.requestIdFactory
    · subst heq
      simp only [handleOpenChannelRequest, Function.update_self, Option.some.injEq] at hr
      subst hr
      rw [hd] at hnone
      cases hnone
    · simp only [handleOpenChannelRequest, Function.update_of_ne heq] at hr
      exact hask r hr
  · intro r d' hr data' hd'
    by_cases heq : r = s.server.requestIdFactory
    · subst heq
      simp only [handleOpenChannelRequest, Function.update_self, Option.some.injEq] at hr
      subst hr
      obtain rfl : data = data' := Option.some.inj (hd.symm.trans hd')
      exact ⟨hchannel, Function.update_self ..⟩
    · simp only [handleOpenChannelRequest, Function.update_of_ne heq] at hr
      obtain ⟨hchannel', hqueued'⟩ := h.requests r d' hr data' hd'
      refine ⟨hchannel', ?_⟩
      by_cases heq' : d' = d
      · rw [heq']
        exact Function.update_self ..
      · exact (Function.update_of_ne heq' ..).trans hqueued'
  · -- an earlier request would have queued its message
    have hnot : ∀ r, s.server.requestIdToDownstreamId r ≠ some d := by
      intro r hr
      have hwaiting := (h.requests r d hr data hd).2
      rw [hqueued] at hwaiting
      cases hwaiting
    intro r r' d' hr hr'
    by_cases heq : r = s.server.requestIdFactory
    · by_cases heq' : r' = s.server.requestIdFactory
      · rw [heq, heq']
      · subst heq
        simp only [handleOpenChannelRequest, Function.update_self, Option.some.injEq] at hr
        subst hr
        simp only [handleOpenChannelRequest, Function.update_of_ne heq'] at hr'
        exact absurd hr' (hnot r')
    · simp only [handleOpenChannelRequest, Function.update_of_ne heq] at hr
      by_cases heq' : r' = s.server.requestIdFactory
      · subst heq'
        simp only [handleOpenChannelRequest, Function.update_self, Option.some.injEq] at hr'
        subst hr'
        exact absurd hr (hnot r)
      · simp only [handleOpenChannelRequest, Function.update_of_ne heq'] at hr'
        exact h.distinct r r' d' hr hr'

theorem Kept.handshakeMessage (h : Kept firstTarget s) (d : DownstreamId) :
    Kept firstTarget (s.handleHandshakeMessage d) := by
  unfold handleHandshakeMessage
  split
  · exact h
  · rename_i data hd
    split
    · exact h
    · rename_i hchannel
      cases hqueued : s.queuedHandshake d with
      | true =>
          have hsame : update s.queuedHandshake d true = s.queuedHandshake := by
            rw [← hqueued, Function.update_eq_self]
          simp only [if_true, hsame]
          exact h
      | false =>
          simpa using h.request hd hchannel hqueued

/-- The data of a connection whose channel is open. -/
def enteredData (m : OpenExtendedMiningChannelSuccess) (data : DownstreamData) : DownstreamData :=
  { data with
    extranonce1 := m.extranoncePrefix
    extranonce2Len := m.extranonceSize
    channelId := some m.channelId
    upstreamTarget := some m.target }

/-- The server with the channel entered, before the first target is announced. -/
def entered (server : Sv1Server) (m : OpenExtendedMiningChannelSuccess) (d : DownstreamId)
    (data : DownstreamData) : Sv1Server :=
  { server with
    downstreams := update server.downstreams d (some (enteredData m data))
    requestIdToDownstreamId := update server.requestIdToDownstreamId m.requestId none
    channelIdToDownstreamId := update server.channelIdToDownstreamId m.channelId (some d) }

section Opened

variable {m : OpenExtendedMiningChannelSuccess} {d : DownstreamId} {data : DownstreamData}

/-- The handler in two halves: the channel is entered, and the first target is announced. -/
theorem handleOpenSuccess_eq (hr : s.server.requestIdToDownstreamId m.requestId = some d)
    (hd : s.server.downstreams d = some data) :
    s.handleOpenSuccess firstTarget m = { s with
      server := sendSetDifficulty (fun _ => true) (entered s.server m d data) ⟨d, firstTarget⟩
      queuedHandshake := update s.queuedHandshake d false } := by
  simp [handleOpenSuccess, handleOpenExtendedMiningChannelSuccess, hr, hd, sendSetDifficulty,
    setData, entered, enteredData]

theorem downstreams_entered {server : Sv1Server} {d' : DownstreamId} {x : DownstreamData}
    (hx : (sendSetDifficulty (fun _ => true) (entered server m d data)
      ⟨d, firstTarget⟩).downstreams d' = some x) :
    d' = d ∧ x = enteredData m data ∨ d' ≠ d ∧ server.downstreams d' = some x := by
  rw [(downstreams_sendSetDifficulty (fun _ => true) (entered server m d data)
    ⟨d, firstTarget⟩).1] at hx
  by_cases heq : d' = d
  · subst heq
    simp only [entered, Function.update_self, Option.some.injEq] at hx
    exact .inl ⟨rfl, hx.symm⟩
  · exact .inr ⟨heq, (Function.update_of_ne heq ..).symm.trans hx⟩

theorem announced_entered {server : Sv1Server} (hd : server.downstreams d = some data)
    {d' : DownstreamId} {t : Nat}
    (ht : t ∈ announced (sendSetDifficulty (fun _ => true) (entered server m d data)
      ⟨d, firstTarget⟩) d') : t ∈ announced server d' ∨ d' = d ∧ t = firstTarget := by
  rcases announced_sendSetDifficulty _ (entered server m d data) _ ht with ht | ht
  · refine .inl ?_
    by_cases heq : d' = d
    · subst heq
      simpa [announced, entered, enteredData, hd] using ht
    · simpa only [announced, entered, Function.update_of_ne heq] using ht
  · cases ht
    exact .inr ⟨rfl, rfl⟩

/-- The request is answered. -/
theorem requests_entered {server : Sv1Server} {r : RequestId} {d' : DownstreamId}
    (hr : (sendSetDifficulty (fun _ => true) (entered server m d data)
      ⟨d, firstTarget⟩).requestIdToDownstreamId r = some d') :
    r ≠ m.requestId ∧ server.requestIdToDownstreamId r = some d' := by
  rw [(downstreams_sendSetDifficulty (fun _ => true) (entered server m d data)
    ⟨d, firstTarget⟩).2] at hr
  by_cases heq : r = m.requestId
  · subst heq
    have hnone := (Function.update_self ..).symm.trans hr
    cases hnone
  · exact ⟨heq, (Function.update_of_ne heq ..).symm.trans hr⟩

/-- The channel of a connection is open: the first target is announced, which is the one in
force. -/
theorem Kept.opened (h : Kept firstTarget s)
    (hr : s.server.requestIdToDownstreamId m.requestId = some d)
    (hd : s.server.downstreams d = some data) :
    Kept firstTarget (s.handleOpenSuccess firstTarget m) := by
  obtain ⟨hchannel, -⟩ := h.requests _ d hr data hd
  have hfirst := h.unopened d data hd hchannel
  rw [handleOpenSuccess_eq hr hd]
  refine ⟨?_, ?_, ?_, ?_, ?_, ?_⟩
  · intro d' x hx t ht
    rw [mem_outstanding] at ht
    have ht' : t ∈ s.outstanding d' ∨ d' = d ∧ t = firstTarget := by
      rw [mem_outstanding]
      rcases ht with ht | ht
      · exact (announced_entered hd ht).imp_left .inl
      · exact .inl (.inr ht)
    rcases downstreams_entered hx with ⟨rfl, rfl⟩ | ⟨hne, hx⟩
    · rcases ht' with ht | ⟨-, rfl⟩
      · exact h.outstanding _ data hd t ht
      · exact hfirst.symm
    · rcases ht' with ht | ⟨heq, -⟩
      · exact h.outstanding d' x hx t ht
      · exact absurd heq hne
  · intro d' x hx
    rcases downstreams_entered hx with ⟨rfl, rfl⟩ | ⟨-, hx⟩
    · exact h.told _ data hd
    · exact h.told d' x hx
  · intro d' x hx hnone
    rcases downstreams_entered hx with ⟨rfl, rfl⟩ | ⟨-, hx⟩
    · cases hnone
    · exact h.unopened d' x hx hnone
  · intro d' hd'
    have hne : d' ≠ d := Nat.ne_of_gt (Nat.lt_of_lt_of_le (h.lt_factory hd) hd')
    obtain ⟨hnone, hqueue, hempty, hask⟩ := h.fresh d' hd'
    have hqueue' : (entered s.server m d data).queues d' = none := hqueue
    refine ⟨?_, queues_sendSetDifficulty (fun _ => true) _ ⟨d, firstTarget⟩ hqueue', ?_, ?_⟩
    · rw [(downstreams_sendSetDifficulty (fun _ => true) _ ⟨d, firstTarget⟩).1]
      exact (Function.update_of_ne hne ..).trans hnone
    · rw [List.eq_nil_iff_forall_not_mem] at hempty ⊢
      intro t ht
      rw [mem_outstanding] at ht
      rcases ht with ht | ht
      · rcases announced_entered hd ht with ht | ⟨heq, -⟩
        · exact hempty t (mem_outstanding.mpr (.inl ht))
        · exact hne heq
      · exact hempty t (mem_outstanding.mpr (.inr ht))
    · exact fun r hr' => hask r (requests_entered hr').2
  · intro r d' hr' x hx
    obtain ⟨hne, hold⟩ := requests_entered hr'
    rcases downstreams_entered hx with ⟨rfl, rfl⟩ | ⟨hned, hx⟩
    · exact absurd (h.distinct r m.requestId d' hold hr) hne
    · obtain ⟨hchannel', hqueued'⟩ := h.requests r d' hold x hx
      exact ⟨hchannel', (Function.update_of_ne hned ..).trans hqueued'⟩
  · intro r r' d' hr' hr''
    exact h.distinct r r' d' (requests_entered hr').2 (requests_entered hr'').2

end Opened

/-- A channel that is opened has its first target announced. -/
theorem Kept.openSuccess (h : Kept firstTarget s) (m : OpenExtendedMiningChannelSuccess) :
    Kept firstTarget (s.handleOpenSuccess firstTarget m) := by
  cases hr : s.server.requestIdToDownstreamId m.requestId with
  | none =>
      have hsame : s.handleOpenSuccess firstTarget m = s := by
        simp only [handleOpenSuccess, handleOpenExtendedMiningChannelSuccess, hr]
      rw [hsame]
      exact h
  | some d =>
      cases hd : s.server.downstreams d with
      | some data => exact h.opened hr hd
      | none =>
          have hgone : s.handleOpenSuccess firstTarget m = { s with server := { s.server with
              requestIdToDownstreamId :=
                update s.server.requestIdToDownstreamId m.requestId none } } := by
            simp [handleOpenSuccess, handleOpenExtendedMiningChannelSuccess, hr, hd]
          rw [hgone]
          refine h.pass (fun d' data hd' => ⟨data, hd', Forwards.refl data⟩) (fun _ _ ht => ht)
            (fun _ hd' => hd') ?_ rfl rfl
          intro r d' hr'
          by_cases heq : r = m.requestId
          · rw [heq] at hr'
            simp at hr'
          · simpa only [Function.update_of_ne heq] using hr'

/-- A new target is set and its `set_difficulty` is on its way. -/
theorem Kept.setPending (h : Kept firstTarget s) {d : DownstreamId} {data : DownstreamData}
    {newTarget : Nat} (hd : s.server.downstreams d = some data) (hchannel : data.channelId ≠ none)
    (hcond : ∀ t ∈ s.outstanding d, t = newTarget)
    {immediate pending : List PendingTargetUpdate}
    (himmediate : ∀ v ∈ immediate, v ∈ s.immediateUpdates ∨ v = ⟨d, newTarget⟩)
    (hpending : ∀ v ∈ pending, v ∈ s.pendingTargetUpdates ∨ v = ⟨d, newTarget⟩) :
    Kept firstTarget { s with
      server := s.server.setData d { data with pendingTarget := some newTarget }
      immediateUpdates := immediate
      pendingTargetUpdates := pending } := by
  have hout : ∀ d' t, t ∈ VardiffServer.outstanding { s with
      server := s.server.setData d { data with pendingTarget := some newTarget }
      immediateUpdates := immediate
      pendingTargetUpdates := pending } d' → t ∈ s.outstanding d' ∨ d' = d ∧ t = newTarget := by
    intro d' t ht
    rw [mem_outstanding] at ht ⊢
    rcases ht with ht | ht | ht | ht
    · refine .inl (.inl ?_)
      by_cases heq : d' = d
      · subst heq
        simpa [announced, setData, hd] using ht
      · simpa only [announced, setData, Function.update_of_ne heq] using ht
    · rcases himmediate _ ht with ht | ht
      · exact .inl (.inr (.inl ht))
      · cases ht
        exact .inr ⟨rfl, rfl⟩
    · exact .inl (.inr (.inr (.inl ht)))
    · rcases hpending _ ht with ht | ht
      · exact .inl (.inr (.inr (.inr ht)))
      · cases ht
        exact .inr ⟨rfl, rfl⟩
  refine ⟨?_, ?_, ?_, ?_, ?_, h.distinct⟩
  · intro d' data' hd' t ht
    by_cases heq : d' = d
    · subst heq
      simp only [setData, Function.update_self, Option.some.injEq] at hd'
      subst hd'
      rcases hout _ t ht with ht | ⟨-, rfl⟩
      · exact hcond t ht
      · rfl
    · simp only [setData, Function.update_of_ne heq] at hd'
      rcases hout d' t ht with ht | ⟨hd'', -⟩
      · exact h.outstanding d' data' hd' t ht
      · exact absurd hd'' heq
  · intro d' data' hd'
    by_cases heq : d' = d
    · subst heq
      simp only [setData, Function.update_self, Option.some.injEq] at hd'
      subst hd'
      exact h.told _ data hd
    · simp only [setData, Function.update_of_ne heq] at hd'
      exact h.told d' data' hd'
  · intro d' data' hd' hnone
    by_cases heq : d' = d
    · subst heq
      simp only [setData, Function.update_self, Option.some.injEq] at hd'
      subst hd'
      exact absurd hnone hchannel
    · simp only [setData, Function.update_of_ne heq] at hd'
      exact h.unopened d' data' hd' hnone
  · intro d' hd'
    have hne : d' ≠ d := Nat.ne_of_gt (Nat.lt_of_lt_of_le (h.lt_factory hd) hd')
    obtain ⟨hnone, hqueue, hempty, hask⟩ := h.fresh d' hd'
    refine ⟨?_, hqueue, ?_, hask⟩
    · simpa only [setData, Function.update_of_ne hne] using hnone
    · rw [List.eq_nil_iff_forall_not_mem]
      intro t ht
      rcases hout d' t ht with ht | ⟨hd'', -⟩
      · rw [hempty] at ht
        cases ht
      · exact hne hd''
  · intro r d' hr data' hd'
    by_cases heq : d' = d
    · subst heq
      exact absurd (h.requests r _ hr data hd).1 hchannel
    · simp only [setData, Function.update_of_ne heq] at hd'
      exact h.requests r d' hr data' hd'

theorem Kept.vardiff (h : Kept firstTarget s) (d : DownstreamId) (newTarget : Nat)
    (hcond : s.Announced (.vardiff d newTarget)) :
    Kept firstTarget (s.handleVardiffUpdate d newTarget) := by
  have hsame : ∀ us : List PendingTargetUpdate, ∀ v ∈ us, v ∈ us ∨ v = ⟨d, newTarget⟩ :=
    fun _ v hv => .inl hv
  have happend : ∀ us : List PendingTargetUpdate, ∀ v ∈ us ++ [⟨d, newTarget⟩],
      v ∈ us ∨ v = ⟨d, newTarget⟩ := by
    intro us v hv
    simpa using hv
  unfold handleVardiffUpdate
  split
  · exact h
  · rename_i data hd
    split
    · exact h
    · rename_i channelId hchannel
      have hopen : data.channelId ≠ none := by rw [hchannel]; nofun
      dsimp only
      split
      · split
        · exact h.setPending hd hopen hcond (happend _) (hsame _)
        · exact h.setPending hd hopen hcond (hsame _) (happend _)
      · exact h.setPending hd hopen hcond (happend _) (hsame _)

end Steps

/-! ### Whole runs -/

/-- Every step that meets the condition keeps the invariant. -/
theorem kept_step (lib : Sv1Lib) (builds : Nat → Bool) (firstTarget : Nat) (s : VardiffServer)
    (e : Event) (h : Kept firstTarget s) (hcond : s.Announced e) :
    Kept firstTarget (step lib builds firstTarget s e) := by
  cases e with
  | accept => exact h.accept
  | handshakeMessage d => exact h.handshakeMessage d
  | openSuccess m => exact h.openSuccess m
  | vardiff d newTarget => exact h.vardiff d newTarget hcond
  | sendImmediate => exact h.sendImmediate builds
  | setTarget channelId target => exact h.setTarget channelId target
  | sendApplicable => exact h.sendApplicable builds
  | sv1 e he => exact h.sv1 (passes_step lib s.server e he)

/-- In every run in which a new target is set only while no `set_difficulty` with another target is
on its way to the miner, the target its shares are checked against is the one it was told last. -/
theorem target_was_told (lib : Sv1Lib) (builds : Nat → Bool) (firstTarget : Nat)
    (mode : TproxyMode) (k : UInt16) (es : List Event)
    (hcond : Along (step lib builds firstTarget) Announced (initial mode k) es)
    (d : DownstreamId) (data : DownstreamData)
    (hd : (exec (step lib builds firstTarget) (initial mode k) es).server.downstreams d = some data)
    (t : Nat) (ht : lastDifficulty data.toMiner = some t) : data.target = t :=
  have hkept := exec_induct (kept_step lib builds firstTarget) (kept_initial firstTarget mode k)
    hcond
  hkept.told d data hd t ht

/-- A miner that has been told its first target, 50, under an upstream target of 40. -/
def toldFirst : List Event :=
  [.accept, .handshakeMessage 1,
    .openSuccess
      { requestId := 0, channelId := 1, target := 40, extranonceSize := 4, extranoncePrefix := [] },
    .sv1 (.deliver 0 1) rfl, .sv1 (.authorize 1 1 []) rfl]

/-- A job for channel 1. -/
def newJob : List Event :=
  [.sv1 (.setNewPrevHash
      { channelId := 1, jobId := 7, prevHash := [], minNtime := 0, nbits := 0 }) rfl,
    .sv1 (.newExtendedMiningJob
      { channelId := 1, jobId := 7, minNtime := none, version := 0, versionRollingAllowed := true,
        merklePath := [], coinbaseTxPrefix := [], coinbaseTxSuffix := [] }) rfl]

/-- A round of vardiff sets the target 60, and the next job goes out with its `set_difficulty`. -/
def toldSecond : List Event :=
  toldFirst ++ [.vardiff 1 60, .sendImmediate] ++ newJob ++
    [.sv1 (.deliver 2 1) rfl, .sv1 (.deliver 3 1) rfl]

/-- The target in force for a connection and the one its miner was told last. -/
def targets (s : VardiffServer) (d : DownstreamId) : Option (Nat × Option Nat) :=
  (s.server.downstreams d).map fun data => (data.target, lastDifficulty data.toMiner)

theorem target_was_told_second :
    ∃ data, (exec (step referenceLib (fun _ => true) 50) (initial .nonAggregated 0)
        toldSecond).server.downstreams 1 = some data ∧
      lastDifficulty data.toMiner = some 60 ∧ data.target = 60 := by
  have htargets : targets (exec (step referenceLib (fun _ => true) 50) (initial .nonAggregated 0)
      toldSecond) 1 = some (60, some 60) := by
    decide +kernel
  obtain ⟨data, hdata, heq⟩ := Option.map_eq_some_iff.mp htargets
  have hlast : lastDifficulty data.toMiner = some 60 := congrArg Prod.snd heq
  exact ⟨data, hdata, hlast, target_was_told referenceLib (fun _ => true) 50 .nonAggregated 0
    toldSecond (by decide +kernel) 1 data hdata 60 hlast⟩

/-- The next round asks for the target 30 while the `set_difficulty` for 60 is still cached; the
upstream has to agree first, and a job arrives before it has. -/
def overwritten : List Event :=
  toldFirst ++ [.vardiff 1 60, .sendImmediate, .sv1 (.deliver 2 1) rfl, .vardiff 1 30] ++ newJob ++
    [.sv1 (.deliver 3 1) rfl]

/-- Without the condition a miner may be told one target and held to another. -/
theorem target_not_told :
    ¬∀ (es : List Event) (d : DownstreamId) (data : DownstreamData),
      (exec (step referenceLib (fun _ => true) 50) (initial .nonAggregated 0)
        es).server.downstreams d = some data →
      ∀ t, lastDifficulty data.toMiner = some t → data.target = t := by
  intro h
  have htargets : targets (exec (step referenceLib (fun _ => true) 50) (initial .nonAggregated 0)
      overwritten) 1 = some (30, some 60) := by
    decide +kernel
  obtain ⟨data, hdata, heq⟩ := Option.map_eq_some_iff.mp htargets
  have htarget : data.target = 30 := congrArg Prod.fst heq
  have htold := h overwritten 1 data hdata 60 (congrArg Prod.snd heq)
  rw [htarget] at htold
  cases htold

end VardiffServer

end GridPoolSv2.Translator
