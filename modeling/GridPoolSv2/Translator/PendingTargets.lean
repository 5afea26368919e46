import GridPoolSv2.Translator.Tproxy

/-!
# Translator.PendingTargets: no difficulty increase gets lost

A vardiff update that asks for more difficulty than the upstream allows waits in
`pending_target_updates` for the answer to its `UpdateChannel`. `get_pending_difficulty_updates`
takes **every** `SetTarget` for that answer: what it looks at leaves the list, and is dropped as a
protocol error when the `SetTarget` is above it. Requests and answers are not correlated, so the
answer to an older request, or a `SetTarget` the upstream sends by itself, drops an update that
still waits for its own answer.

* The upstream answers the `UpdateChannel`s in order, with a `SetTarget` not above the requested
  maximum (`answer`); its other frames are its own.
* `owed` is a **ghost**: the latest update of a miner, if it was put into the list and its
  `set_difficulty` was not sent. `NoneDropped` says that an owed update of a connected miner is in
  the list, or on its way out of it to be sent.
* `InTime` is the condition on a step: no `SetTarget` is handled while it is above an owed update
  it looks at, and the `set_difficulty` of an owed update can be built.

Proof shape: a step is `Untouched` by the lists, or moves an update, and the second kind has
one lemma for each handler. `Accounted` names for every owed update the place where it is: the
list, the queue of the upstream's answers, or the updates that are being sent.
-/

namespace GridPoolSv2.Translator

open Runs Sv1Server
open Function (update)

namespace Tproxy

/-- The translator, with what its miners are owed and how many requests were answered. -/
structure Owing (env : Env) where
  proxy : Tproxy env
  owed : DownstreamId → Option Nat := fun _ => none
  answered : Nat := 0

namespace Owing

variable {env : Env}

/-- The sender of a connection is registered; `handle_downstream_disconnect` removes it. -/
def Connected (s : Owing env) (d : DownstreamId) : Prop :=
  (s.proxy.sv1.server.queues d).isSome

instance (s : Owing env) (d : DownstreamId) : Decidable (s.Connected d) :=
  inferInstanceAs (Decidable (_ = true))

/-- A connected miner is owed the `set_difficulty` of an update. -/
def Owes (s : Owing env) (u : PendingTargetUpdate) : Prop :=
  s.Connected u.downstreamId ∧ s.owed u.downstreamId = some u.newTarget

instance (s : Owing env) (u : PendingTargetUpdate) : Decidable (s.Owes u) :=
  inferInstanceAs (Decidable (_ ∧ _))

/-! ### Runs -/

/-- The target of an `UpdateChannel`. -/
def updateChannel? : ClientMessage → Option UpdateChannel
  | .updateChannel m => some m
  | _ => none

/-- The requests the upstream has not answered, oldest first. -/
def unanswered (s : Owing env) : List UpdateChannel :=
  (s.proxy.toUpstream.filterMap updateChannel?).drop s.answered

/-- An update is new: it is owed if it has to wait. -/
def afterVardiff (s : Owing env) (d : DownstreamId) (newTarget : Nat) : DownstreamId → Option Nat :=
  match s.proxy.sv1.server.downstreams d with
  | none => s.owed
  | some data =>
      match data.channelId with
      | none => s.owed
      | some _ =>
          update s.owed d
            (if data.upstreamTarget.any (newTarget < ·) then some newTarget else none)

/-- The `set_difficulty` of an update is sent, unless it cannot be built. -/
def afterSend (s : Owing env) : DownstreamId → Option Nat :=
  match s.proxy.sv1.applicableUpdates with
  | [] => s.owed
  | u :: _ =>
      if env.builds u.newTarget = true ∧ s.Owes u then update s.owed u.downstreamId none else s.owed

inductive Event where
  | tproxy (e : Tproxy.Event)
  /-- The upstream answers its oldest request. -/
  | answer (hash : UInt32 → Nat) (target : Nat)

def step (s : Owing env) : Event → Owing env
  | .tproxy e =>
      { s with
        proxy := s.proxy.step e
        owed := match e with
          | .vardiff d newTarget => if env.enableVardiff then s.afterVardiff d newTarget else s.owed
          | .sendApplicable => s.afterSend
          | _ => s.owed }
  | .answer hash target =>
      match s.unanswered with
      | [] => s
      | m :: _ =>
          { s with
            proxy := s.proxy.receiveFrame hash
              (.setTarget ⟨m.channelId, min target m.maximumTarget⟩)
            answered := s.answered + 1 }

def initial (env : Env) : Owing env :=
  { proxy := Tproxy.initial env }

/-- An owed update of a connected miner waits, or is about to be sent. -/
def NoneDropped (s : Owing env) : Prop :=
  ∀ u, s.Owes u → u ∈ s.proxy.sv1.pendingTargetUpdates ∨ u ∈ s.proxy.sv1.applicableUpdates

/-- Whether a `SetTarget` for the channel makes the server look at a pending update. -/
def looksAt (s : VardiffServer) (c : ChannelId) (u : PendingTargetUpdate) : Bool :=
  match s.server.mode with
  | .aggregated => true
  | .nonAggregated =>
      match s.server.channelIdToDownstreamId c with
      | none => false
      | some d => (s.server.downstreams d).isSome && u.downstreamId = d

/-- The `SetTarget` the server handles next. -/
def nextSetTarget (s : Tproxy env) : Option SetTarget :=
  match s.toSv1Server with
  | .setTarget m :: _ => if env.enableVardiff then some m else none
  | _ => none

/-- The condition on a step. -/
def InTime (s : Owing env) : Event → Prop
  | .tproxy .receiveUpstream =>
      ∀ m ∈ nextSetTarget s.proxy, ∀ u ∈ s.proxy.sv1.pendingTargetUpdates,
        looksAt s.proxy.sv1 m.channelId u = true → s.Owes u → m.maximumTarget ≤ u.newTarget
  | .tproxy .sendApplicable =>
      ∀ u ∈ s.proxy.sv1.applicableUpdates.head?, s.Owes u → env.builds u.newTarget = true
  | _ => True

instance (s : Owing env) : ∀ e, Decidable (s.InTime e)
  | .tproxy .receiveUpstream =>
      inferInstanceAs (Decidable (∀ m ∈ nextSetTarget s.proxy,
        ∀ u ∈ s.proxy.sv1.pendingTargetUpdates,
        looksAt s.proxy.sv1 m.channelId u = true → s.Owes u → m.maximumTarget ≤ u.newTarget))
  | .tproxy .sendApplicable =>
      inferInstanceAs (Decidable (∀ u ∈ s.proxy.sv1.applicableUpdates.head?,
        s.Owes u → env.builds u.newTarget = true))
  | .tproxy .accept | .tproxy (.handshakeMessage _) | .tproxy (.vardiff _ _)
  | .tproxy .sendUpdateChannelMessages | .tproxy .sendImmediate | .tproxy (.disconnect _)
  | .tproxy (.sv1 _ _) | .tproxy .receiveDownstream | .tproxy (.frame _ _) | .answer _ _ =>
      isTrue trivial

/-! ### Steps that leave the lists alone -/

/-- A step of the server that moves no update and registers no connection. -/
structure Untouched (s s' : VardiffServer) : Prop where
  pending : s'.pendingTargetUpdates = s.pendingTargetUpdates
  applicable : s'.applicableUpdates = s.applicableUpdates
  factory : s'.downstreamIdFactory = s.downstreamIdFactory
  downstreams : ∀ d, s.server.downstreams d = none → s'.server.downstreams d = none
  queues : ∀ d, s.server.queues d = none → s'.server.queues d = none

theorem Untouched.refl (s : VardiffServer) : Untouched s s :=
  ⟨rfl, rfl, rfl, fun _ h => h, fun _ h => h⟩

theorem untouched_passes {s : VardiffServer} {server : Sv1Server}
    (h : VardiffServer.Passes s.server server) : Untouched s { s with server := server } := by
  refine ⟨rfl, rfl, rfl, fun d hd => ?_, h.queues⟩
  cases hd' : server.downstreams d with
  | none => rfl
  | some data' =>
      obtain ⟨data, hsome, -⟩ := h.data d data' hd'
      rw [hd] at hsome
      cases hsome

theorem enqueue_queues_none {s : Sv1Server} {d d' : DownstreamId} {n : Notification}
    (h : s.queues d' = none) : (s.enqueue d n).queues d' = none := by
  by_cases heq : d' = d
  · subst heq
    simp [enqueue, h]
  · simpa only [enqueue, Function.update_of_ne heq] using h

theorem setData_downstreams_none {s : Sv1Server} {d d' : DownstreamId} {data data' : DownstreamData}
    (hd : s.downstreams d = some data) (h : s.downstreams d' = none) :
    (s.setData d data').downstreams d' = none := by
  have hne : d' ≠ d := by
    rintro rfl
    rw [hd] at h
    cases h
  simpa only [setData, Function.update_of_ne hne] using h

theorem untouched_handshakeMessage (s : VardiffServer) (d : DownstreamId) :
    Untouched s (s.handleHandshakeMessage d) := by
  unfold VardiffServer.handleHandshakeMessage
  split
  · exact .refl s
  · split
    · exact .refl s
    · refine ⟨rfl, rfl, rfl, fun d' hd' => ?_, fun d' hd' => ?_⟩ <;> dsimp only <;> split <;>
        exact hd'

theorem untouched_openSuccess (s : VardiffServer) (firstTarget : Nat)
    (m : OpenExtendedMiningChannelSuccess) : Untouched s (s.handleOpenSuccess firstTarget m) := by
  have hserver : ∀ d,
      (s.server.downstreams d = none →
        (s.server.handleOpenExtendedMiningChannelSuccess firstTarget m).downstreams d = none) ∧
      (s.server.queues d = none →
        (s.server.handleOpenExtendedMiningChannelSuccess firstTarget m).queues d = none) := by
    intro d
    unfold handleOpenExtendedMiningChannelSuccess
    split
    · exact ⟨id, id⟩
    · dsimp only
      split
      · exact ⟨id, id⟩
      · rename_i data hdata
        exact ⟨setData_downstreams_none hdata, fun h => enqueue_queues_none h⟩
  exact ⟨rfl, rfl, rfl, fun d => (hserver d).1, fun d => (hserver d).2⟩

theorem untouched_sendImmediate (s : VardiffServer) (builds : Nat → Bool) :
    Untouched s (s.sendImmediate builds) := by
  unfold VardiffServer.sendImmediate
  split
  · exact .refl s
  · rename_i u rest hs
    refine ⟨rfl, rfl, rfl, fun d hd => ?_,
      fun d hd => VardiffServer.queues_sendSetDifficulty builds s.server u hd⟩
    rw [(VardiffServer.downstreams_sendSetDifficulty builds s.server u).1]
    exact hd

theorem untouched_withoutVardiff (s : VardiffServer) (m : SetTarget) :
    Untouched s { s with server := (s.server.handleSetTargetWithoutVardiff m).1 } := by
  refine ⟨rfl, rfl, rfl, fun d hd => ?_, fun d hd => ?_⟩ <;>
    unfold handleSetTargetWithoutVardiff <;> dsimp only <;> split
  · simp [hd]
  · split
    · exact hd
    · split
      · exact hd
      · rename_i data hdata
        exact setData_downstreams_none hdata hd
  · simp [hd]
  · split
    · exact hd
    · split
      · exact hd
      · exact enqueue_queues_none hd

/-! ### Steps that move updates -/

/-- A new target of a miner with a channel. -/
theorem handleVardiffUpdate_spec {s : VardiffServer} {d : DownstreamId} {data : DownstreamData}
    {c : ChannelId} (hd : s.server.downstreams d = some data) (hc : data.channelId = some c)
    (newTarget : Nat) :
    (s.handleVardiffUpdate d newTarget).pendingTargetUpdates =
        (if data.upstreamTarget.any (newTarget < ·) then s.pendingTargetUpdates ++ [⟨d, newTarget⟩]
          else s.pendingTargetUpdates) ∧
      (s.handleVardiffUpdate d newTarget).applicableUpdates = s.applicableUpdates ∧
      (s.handleVardiffUpdate d newTarget).downstreamIdFactory = s.downstreamIdFactory ∧
      (∀ d', s.server.downstreams d' = none →
        (s.handleVardiffUpdate d newTarget).server.downstreams d' = none) ∧
      (s.handleVardiffUpdate d newTarget).server.queues = s.server.queues := by
  have hset : ∀ d', s.server.downstreams d' = none → (s.server.setData d
      { data with pendingTarget := some newTarget }).downstreams d' = none :=
    fun d' hd' => setData_downstreams_none hd hd'
  unfold VardiffServer.handleVardiffUpdate
  split
  · rename_i hnone
    rw [hd] at hnone
    cases hnone
  · rename_i data' hd'
    obtain rfl : data = data' := Option.some.inj (hd.symm.trans hd')
    split
    · rename_i hnone
      rw [hc] at hnone
      cases hnone
    · dsimp only
      split
      · rename_i upstreamTarget hu
        split
        · rename_i hle
          have hany : data.upstreamTarget.any (newTarget < ·) ≠ true := by simpa [hu] using hle
          rw [if_neg hany]
          exact ⟨rfl, rfl, rfl, hset, rfl⟩
        · rename_i hlt
          have hany : data.upstreamTarget.any (newTarget < ·) = true := by simpa [hu] using hlt
          rw [if_pos hany]
          exact ⟨rfl, rfl, rfl, hset, rfl⟩
      · rename_i hu
        have hany : data.upstreamTarget.any (newTarget < ·) ≠ true := by simp [hu]
        rw [if_neg hany]
        exact ⟨rfl, rfl, rfl, hset, rfl⟩

/-- A `SetTarget` takes what it looks at out of the list, and hands over what is not below it. -/
theorem handleSetTargetMessage_spec (s : VardiffServer) (c : ChannelId) (t : Nat) :
    (∀ u ∈ s.applicableUpdates, u ∈ (s.handleSetTargetMessage c t).applicableUpdates) ∧
      (∀ u ∈ s.pendingTargetUpdates, (looksAt s c u = true → t ≤ u.newTarget) →
        u ∈ (s.handleSetTargetMessage c t).pendingTargetUpdates ∨
          u ∈ (s.handleSetTargetMessage c t).applicableUpdates) ∧
      (s.handleSetTargetMessage c t).downstreamIdFactory = s.downstreamIdFactory ∧
      (∀ d, s.server.downstreams d = none →
        (s.handleSetTargetMessage c t).server.downstreams d = none) ∧
      (s.handleSetTargetMessage c t).server.queues = s.server.queues := by
  have hget : ∀ (s : VardiffServer) (d : Option DownstreamId), ∀ u ∈ s.pendingTargetUpdates,
      (VardiffServer.shouldProcess d u = true → t ≤ u.newTarget) →
      u ∈ (s.getPendingDifficultyUpdates t d).pendingTargetUpdates ∨
        u ∈ (s.getPendingDifficultyUpdates t d).applicableUpdates := by
    intro s d u hu hle
    cases hd : VardiffServer.shouldProcess d u with
    | false => exact .inl (List.mem_filter.mpr ⟨hu, by simp [hd]⟩)
    | true =>
        exact .inr (List.mem_append_right _ (List.mem_filter.mpr ⟨hu, by simp [hd, hle hd]⟩))
  unfold VardiffServer.handleSetTargetMessage
  split
  · rename_i hmode
    have hlooks : ∀ u, looksAt s c u = true := fun u => by simp [looksAt, hmode]
    refine ⟨fun u hu => List.mem_append_left _ hu, fun u hu hle => ?_, rfl, fun d hd => ?_, rfl⟩
    · exact hget _ none u hu fun _ => hle (hlooks u)
    · simp [VardiffServer.getPendingDifficultyUpdates, hd]
  · rename_i hmode
    split
    · exact ⟨fun u hu => hu, fun u hu _ => .inl hu, rfl, fun d hd => hd, rfl⟩
    · rename_i d hd
      split
      · exact ⟨fun u hu => hu, fun u hu _ => .inl hu, rfl, fun d hd => hd, rfl⟩
      · rename_i data hdata
        refine ⟨fun u hu => List.mem_append_left _ hu, fun u hu hle => ?_, rfl,
          fun d' hd' => setData_downstreams_none hdata hd', rfl⟩
        refine hget _ (some d) u hu fun hsame => hle ?_
        simpa [looksAt, hmode, hd, hdata, VardiffServer.shouldProcess] using hsame

/-- What is looked at and below the `SetTarget` is gone. -/
theorem handleSetTargetMessage_drops {s : VardiffServer} {c : ChannelId} {t : Nat}
    {u : PendingTargetUpdate} (hlooks : looksAt s c u = true) (hlt : u.newTarget < t) :
    u ∉ (s.handleSetTargetMessage c t).pendingTargetUpdates ∧
      (u ∈ (s.handleSetTargetMessage c t).applicableUpdates → u ∈ s.applicableUpdates) := by
  have hget : ∀ (s : VardiffServer) (d : Option DownstreamId),
      VardiffServer.shouldProcess d u = true →
      u ∉ (s.getPendingDifficultyUpdates t d).pendingTargetUpdates ∧
        (u ∈ (s.getPendingDifficultyUpdates t d).applicableUpdates → u ∈ s.applicableUpdates) := by
    intro s d hd
    constructor
    · intro hmem
      simp [VardiffServer.getPendingDifficultyUpdates, hd] at hmem
    · intro hmem
      rcases List.mem_append.mp hmem with hmem | hmem
      · exact hmem
      · have hle := (List.mem_filter.mp hmem).2
        simp only [hd, Bool.true_and, decide_eq_true_eq] at hle
        omega
  unfold VardiffServer.handleSetTargetMessage
  cases hmode : s.server.mode with
  | aggregated => exact hget _ none rfl
  | nonAggregated =>
      simp only [looksAt, hmode] at hlooks
      cases hd : s.server.channelIdToDownstreamId c with
      | none =>
          rw [hd] at hlooks
          cases hlooks
      | some d =>
          simp only [hd, Bool.and_eq_true, decide_eq_true_eq] at hlooks
          obtain ⟨data, hdata⟩ := Option.isSome_iff_exists.mp hlooks.1
          simp only [hdata]
          exact hget _ (some d) (by simp [VardiffServer.shouldProcess, hlooks.2])

/-! ### Every step -/

structure Accounted (s : Owing env) : Prop where
  noneDropped : s.NoneDropped
  /-- No id that is still to be given out is in use. -/
  fresh : ∀ d, s.proxy.sv1.downstreamIdFactory ≤ d →
    s.proxy.sv1.server.downstreams d = none ∧ s.owed d = none

theorem accounted_initial (env : Env) : Accounted (initial env) where
  noneDropped := by
    rintro u ⟨-, h⟩
    cases h
  fresh := fun _ _ => ⟨rfl, rfl⟩

section Steps

variable {s s' : Owing env}

theorem Untouched.connected (h : Untouched s.proxy.sv1 s'.proxy.sv1) {d : DownstreamId}
    (hd : s'.Connected d) : s.Connected d := by
  by_contra hnone
  have hgone := h.queues d (by simpa [Connected] using hnone)
  simp [Connected, hgone] at hd

/-- A step that moves no update owes nothing new. -/
theorem Accounted.untouched (h : Accounted s) (hu : Untouched s.proxy.sv1 s'.proxy.sv1)
    (howed : s'.owed = s.owed) : Accounted s' where
  noneDropped := by
    rintro u ⟨hconnected, ht⟩
    rw [hu.pending, hu.applicable]
    rw [howed] at ht
    exact h.noneDropped u ⟨hu.connected hconnected, ht⟩
  fresh := by
    intro d hd
    rw [hu.factory] at hd
    obtain ⟨hnone, hnothing⟩ := h.fresh d hd
    exact ⟨hu.downstreams d hnone, howed ▸ hnothing⟩

/-- The server does not change. -/
theorem Accounted.same (h : Accounted s) (hsv1 : s'.proxy.sv1 = s.proxy.sv1)
    (howed : s'.owed = s.owed) : Accounted s' :=
  h.untouched (hsv1 ▸ .refl _) howed

theorem Accounted.accept (h : Accounted s) : Accounted (s.step (.tproxy .accept)) := by
  obtain ⟨hfree, hnothing⟩ := h.fresh _ (Nat.le_refl _)
  have hconnect : ∀ d, d ≠ s.proxy.sv1.downstreamIdFactory →
      (s.proxy.sv1.server.connect s.proxy.sv1.downstreamIdFactory env.firstTarget).queues d =
          s.proxy.sv1.server.queues d ∧
        (s.proxy.sv1.server.connect s.proxy.sv1.downstreamIdFactory env.firstTarget).downstreams d =
          s.proxy.sv1.server.downstreams d := by
    intro d hd
    unfold connect
    split
    · exact ⟨rfl, rfl⟩
    · exact ⟨Function.update_of_ne hd .., Function.update_of_ne hd ..⟩
  constructor
  · rintro u ⟨hconnected, ht⟩
    have hne : u.downstreamId ≠ s.proxy.sv1.downstreamIdFactory := by
      intro heq
      change s.owed u.downstreamId = some _ at ht
      rw [heq, hnothing] at ht
      cases ht
    refine h.noneDropped u ⟨?_, ht⟩
    change (_ : Option _).isSome = true at hconnected
    rw [show (s.step (.tproxy .accept)).proxy.sv1.server.queues u.downstreamId = _ from
      (hconnect _ hne).1] at hconnected
    exact hconnected
  · intro d hd
    change s.proxy.sv1.downstreamIdFactory + 1 ≤ d at hd
    obtain ⟨hnone, howed⟩ := h.fresh d (Nat.le_of_succ_le hd)
    exact ⟨(hconnect d (Nat.ne_of_gt hd)).2.trans hnone, howed⟩

/-- A new update of a miner supersedes the others. -/
theorem Accounted.vardiff (h : Accounted s) (d : DownstreamId) (newTarget : Nat) :
    Accounted (s.step (.tproxy (.vardiff d newTarget))) := by
  cases hv : env.enableVardiff with
  | false => exact h.same (by simp [step, Tproxy.step, hv]) (by simp [step, hv])
  | true =>
      cases hd : s.proxy.sv1.server.downstreams d with
      | none =>
          refine h.same ?_ ?_
          · simp [step, Tproxy.step, hv, Tproxy.handleVardiffUpdate,
              VardiffServer.handleVardiffUpdate, hd]
          · simp [step, hv, afterVardiff, hd]
      | some data =>
          cases hc : data.channelId with
          | none =>
              refine h.same ?_ ?_
              · simp [step, Tproxy.step, hv, Tproxy.handleVardiffUpdate,
                  VardiffServer.handleVardiffUpdate, hd, hc]
              · simp [step, hv, afterVardiff, hd, hc]
          | some c =>
              obtain ⟨hpending, happlicable, hfactory, hdown, hqueues⟩ :=
                handleVardiffUpdate_spec hd hc newTarget
              have hsv1 : (s.step (.tproxy (.vardiff d newTarget))).proxy.sv1 =
                  s.proxy.sv1.handleVardiffUpdate d newTarget := by
                simp [step, Tproxy.step, hv, Tproxy.handleVardiffUpdate]
              have howed : (s.step (.tproxy (.vardiff d newTarget))).owed = update s.owed d
                  (if data.upstreamTarget.any (newTarget < ·) then some newTarget else none) := by
                simp [step, hv, afterVardiff, hd, hc]
              refine ⟨?_, ?_⟩
              · rintro u ⟨hconnected, ht⟩
                rw [hsv1, hpending, happlicable]
                rw [Connected, hsv1, hqueues] at hconnected
                rw [howed] at ht
                by_cases heq : u.downstreamId = d
                · obtain ⟨d', t⟩ := u
                  subst heq
                  rw [Function.update_self] at ht
                  split at ht
                  · rename_i hlower
                    obtain rfl := Option.some.inj ht
                    rw [if_pos hlower]
                    exact .inl (List.mem_append_right _ List.mem_cons_self)
                  · cases ht
                · rw [Function.update_of_ne heq] at ht
                  refine (h.noneDropped u ⟨hconnected, ht⟩).imp_left fun hmem => ?_
                  split
                  · exact List.mem_append_left _ hmem
                  · exact hmem
              · intro d' hd'
                rw [hsv1, hfactory] at hd'
                obtain ⟨hnone, hnothing⟩ := h.fresh d' hd'
                have hne : d' ≠ d := by
                  rintro rfl
                  rw [hd] at hnone
                  cases hnone
                rw [hsv1, howed, Function.update_of_ne hne]
                exact ⟨hdown d' hnone, hnothing⟩

/-- The `set_difficulty` of the first update is sent, or nobody is owed it. -/
theorem Accounted.sendApplicable (h : Accounted s)
    (htime : s.InTime (.tproxy .sendApplicable)) :
    Accounted (s.step (.tproxy .sendApplicable)) := by
  cases hs : s.proxy.sv1.applicableUpdates with
  | nil =>
      refine h.same ?_ ?_
      · simp [step, Tproxy.step, VardiffServer.sendApplicable, hs]
      · simp [step, afterSend, hs]
  | cons v rest =>
      have hsv1 : (s.step (.tproxy .sendApplicable)).proxy.sv1 = { s.proxy.sv1 with
          applicableUpdates := rest
          server := VardiffServer.sendSetDifficulty env.builds s.proxy.sv1.server v } := by
        simp only [step, Tproxy.step, VardiffServer.sendApplicable, hs]
      have howed : (s.step (.tproxy .sendApplicable)).owed =
          if env.builds v.newTarget = true ∧ s.Owes v then update s.owed v.downstreamId none
          else s.owed := by
        simp only [step, afterSend, hs]
      have hmono : ∀ u, (s.step (.tproxy .sendApplicable)).Owes u → s.Owes u ∧ u ≠ v := by
        rintro u ⟨hconnected, ht⟩
        rw [Connected, hsv1] at hconnected
        have hqueue : s.Connected u.downstreamId := by
          by_contra hnone
          have hgone := VardiffServer.queues_sendSetDifficulty env.builds s.proxy.sv1.server v
            (d := u.downstreamId) (by simpa [Connected] using hnone)
          simp [hgone] at hconnected
        rw [howed] at ht
        split at ht
        · rename_i hsent
          by_cases heq : u.downstreamId = v.downstreamId
          · rw [heq, Function.update_self] at ht
            cases ht
          · rw [Function.update_of_ne heq] at ht
            exact ⟨⟨hqueue, ht⟩, fun huv => heq (congrArg _ huv)⟩
        · rename_i hkept
          refine ⟨⟨hqueue, ht⟩, ?_⟩
          rintro rfl
          exact hkept ⟨htime u (by simp [hs]) ⟨hqueue, ht⟩, hqueue, ht⟩
      refine ⟨?_, ?_⟩
      · intro u hu
        obtain ⟨howes, hne⟩ := hmono u hu
        rw [hsv1]
        refine (h.noneDropped u howes).imp_right fun hmem => ?_
        rw [hs] at hmem
        exact (List.mem_cons.mp hmem).resolve_left hne
      · intro d hd
        rw [hsv1] at hd
        obtain ⟨hnone, hnothing⟩ := h.fresh d hd
        rw [hsv1, howed]
        refine ⟨?_, ?_⟩
        · dsimp only
          rw [(VardiffServer.downstreams_sendSetDifficulty env.builds s.proxy.sv1.server v).1]
          exact hnone
        · split
          · by_cases heq : d = v.downstreamId
            · rw [heq, Function.update_self]
            · rwa [Function.update_of_ne heq]
          · exact hnothing

/-- A target that comes in time drops nothing that is owed. -/
theorem Accounted.setTarget (h : Accounted s) {m : SetTarget} {rest : List Sv1Message}
    (hs : s.proxy.toSv1Server = .setTarget m :: rest)
    (htime : s.InTime (.tproxy .receiveUpstream)) :
    Accounted (s.step (.tproxy .receiveUpstream)) := by
  cases hv : env.enableVardiff with
  | false =>
      refine h.untouched ?_ rfl
      have hsv1 : (s.step (.tproxy .receiveUpstream)).proxy.sv1 = { s.proxy.sv1 with
          server := (s.proxy.sv1.server.handleSetTargetWithoutVardiff m).1 } := by
        simp [step, Tproxy.step, Tproxy.receiveUpstream, hs, Tproxy.handleUpstreamMessage, hv]
      rw [hsv1]
      exact untouched_withoutVardiff s.proxy.sv1 m
  | true =>
      have hsv1 : (s.step (.tproxy .receiveUpstream)).proxy.sv1 =
          s.proxy.sv1.handleSetTargetMessage m.channelId m.maximumTarget := by
        simp [step, Tproxy.step, Tproxy.receiveUpstream, hs, Tproxy.handleUpstreamMessage, hv]
      obtain ⟨happlicable, hpending, hfactory, hdown, hqueues⟩ :=
        handleSetTargetMessage_spec s.proxy.sv1 m.channelId m.maximumTarget
      have hnext : m ∈ nextSetTarget s.proxy := by simp [nextSetTarget, hs, hv]
      refine ⟨?_, ?_⟩
      · rintro u ⟨hconnected, ht⟩
        rw [Connected, hsv1, hqueues] at hconnected
        rw [hsv1]
        rcases h.noneDropped u ⟨hconnected, ht⟩ with hmem | hmem
        · exact hpending u hmem fun hlooks => htime m hnext u hmem hlooks ⟨hconnected, ht⟩
        · exact .inr (happlicable u hmem)
      · intro d hd
        rw [hsv1, hfactory] at hd
        obtain ⟨hnone, hnothing⟩ := h.fresh d hd
        exact ⟨hsv1 ▸ hdown d hnone, hnothing⟩

/-- What stops being owed there was queued for its miner. -/
theorem owed_update_sent {u : PendingTargetUpdate} {rest : List PendingTargetUpdate}
    (hs : s.proxy.sv1.applicableUpdates = u :: rest) (howes : s.Owes u)
    (hbuilds : env.builds u.newTarget = true) :
    ∃ q, s.proxy.sv1.server.queues u.downstreamId = some q ∧
      (s.step (.tproxy .sendApplicable)).proxy.sv1.server.queues u.downstreamId =
        some (q ++ [.setDifficulty u.newTarget]) := by
  obtain ⟨q, hq⟩ := Option.isSome_iff_exists.mp howes.1
  refine ⟨q, hq, ?_⟩
  simp [step, Tproxy.step, VardiffServer.sendApplicable, hs, VardiffServer.sendSetDifficulty,
    hbuilds, enqueue, hq]

/-- The condition is exact: a `SetTarget` above an owed update it looks at drops the update. -/
theorem crossing_drops {m : SetTarget} {rest : List Sv1Message} {u : PendingTargetUpdate}
    (hs : s.proxy.toSv1Server = .setTarget m :: rest) (hv : env.enableVardiff = true)
    (hlooks : looksAt s.proxy.sv1 m.channelId u = true) (howes : s.Owes u)
    (hlt : u.newTarget < m.maximumTarget) (hnew : u ∉ s.proxy.sv1.applicableUpdates) :
    ¬(s.step (.tproxy .receiveUpstream)).NoneDropped := by
  have hsv1 : (s.step (.tproxy .receiveUpstream)).proxy.sv1 =
      s.proxy.sv1.handleSetTargetMessage m.channelId m.maximumTarget := by
    simp [step, Tproxy.step, Tproxy.receiveUpstream, hs, Tproxy.handleUpstreamMessage, hv]
  obtain ⟨-, -, -, -, hqueues⟩ :=
    handleSetTargetMessage_spec s.proxy.sv1 m.channelId m.maximumTarget
  obtain ⟨hgone, hsent⟩ := handleSetTargetMessage_drops hlooks hlt
  intro hkept
  have howes' : (s.step (.tproxy .receiveUpstream)).Owes u := by
    refine ⟨?_, howes.2⟩
    rw [Connected, hsv1, hqueues]
    exact howes.1
  rcases hkept u howes' with hmem | hmem
  · exact hgone (hsv1 ▸ hmem)
  · exact hnew (hsent (hsv1 ▸ hmem))

theorem Accounted.receiveUpstream (h : Accounted s)
    (htime : s.InTime (.tproxy .receiveUpstream)) :
    Accounted (s.step (.tproxy .receiveUpstream)) := by
  have hstep : (s.step (.tproxy .receiveUpstream)).proxy = s.proxy.receiveUpstream := rfl
  cases hs : s.proxy.toSv1Server with
  | nil => exact h.same (by rw [hstep, Tproxy.receiveUpstream, hs]) rfl
  | cons m rest =>
      cases m with
      | setTarget m => exact h.setTarget hs htime
      | openExtendedMiningChannelSuccess m =>
          refine h.untouched ?_ rfl
          rw [hstep, Tproxy.receiveUpstream, hs]
          exact untouched_openSuccess s.proxy.sv1 env.firstTarget m
      | newExtendedMiningJob m =>
          refine h.untouched ?_ rfl
          rw [hstep, Tproxy.receiveUpstream, hs]
          exact untouched_passes (VardiffServer.passes_newExtendedMiningJob env.sv1 _ m)
      | setNewPrevHash m =>
          refine h.untouched ?_ rfl
          rw [hstep, Tproxy.receiveUpstream, hs]
          exact untouched_passes (.of_kept (fun _ => .inl rfl) (fun _ => .inl rfl) rfl)

/-- A step that meets the condition drops nothing. -/
theorem accounted_step (s : Owing env) (e : Event) (h : Accounted s) (htime : s.InTime e) :
    Accounted (s.step e) := by
  cases e with
  | answer hash target =>
      unfold step
      dsimp only
      split
      · exact h
      · exact h.same (Tproxy.receiveFrame_sv1 ..) rfl
  | tproxy e =>
      cases e with
      | accept => exact h.accept
      | vardiff d newTarget => exact h.vardiff d newTarget
      | sendApplicable => exact h.sendApplicable htime
      | receiveUpstream => exact h.receiveUpstream htime
      | handshakeMessage d =>
          refine h.untouched ?_ rfl
          have hsv1 := Tproxy.handleHandshakeMessage_sv1 s.proxy d
          exact hsv1 ▸ untouched_handshakeMessage s.proxy.sv1 d
      | sendUpdateChannelMessages => exact h.same rfl rfl
      | sendImmediate => exact h.untouched (untouched_sendImmediate s.proxy.sv1 env.builds) rfl
      | disconnect d =>
          exact h.untouched (untouched_passes (VardiffServer.passes_disconnect _ d)) rfl
      | sv1 e he =>
          exact h.untouched (untouched_passes
            (VardiffServer.passes_step env.sv1 _ e (setsNoTarget_of_isLocal he))) rfl
      | receiveDownstream => exact h.same (Tproxy.receiveDownstream_sv1 _) rfl
      | frame hash m => exact h.same (Tproxy.receiveFrame_sv1 ..) rfl

end Steps

/-- In every run in which no `SetTarget` is handled while it is above an update that is still owed,
an update leaves `pending_target_updates` only to be sent, for a newer one, or with its miner. -/
theorem pending_updates_kept (env : Env) (es : List Event)
    (htime : Along step InTime (initial env) es) : (exec step (initial env) es).NoneDropped :=
  (exec_induct accounted_step (accounted_initial env) htime).noneDropped

/-- A miner's channel is open under an upstream target of 40, and the miner was told 50. -/
def openChannel : List Event :=
  [.tproxy .accept, .tproxy (.handshakeMessage 1), .tproxy .receiveDownstream,
    .tproxy (.frame UInt32.toNat (.openExtendedMiningChannelSuccess (sampleOpenSuccess 3 4))),
    .tproxy .receiveUpstream]

/-- A round of vardiff, with its `UpdateChannel`. -/
def round (target : Nat) : List Event :=
  [.tproxy (.vardiff 1 target), .tproxy .sendUpdateChannelMessages, .tproxy .receiveDownstream,
    .tproxy .sendImmediate]

/-- The upstream answers, and the answer is handled. -/
def answerRound (target : Nat) : List Event :=
  [.answer UInt32.toNat target, .tproxy .receiveUpstream, .tproxy .sendApplicable]

/-- Every request is answered before the next round. -/
def answeredInTime : List Event :=
  openChannel ++ round 45 ++ answerRound 45 ++ round 30 ++ [.answer UInt32.toNat 30,
    .tproxy .receiveUpstream]

/-- A run in which the answer comes in time. -/
theorem pending_updates_kept_in_time :
    (exec step (initial (referenceEnv .nonAggregated true 50)) answeredInTime).NoneDropped :=
  pending_updates_kept (referenceEnv .nonAggregated true 50) answeredInTime (by decide +kernel)

/-- The second request goes out before the first one is answered. -/
def crossing : List Event :=
  openChannel ++ round 45 ++ round 30 ++ answerRound 45 ++ answerRound 30

/-- The answer to the first request drops the update that waits for the second: nothing is left to
answer, and the miner is never told. -/
theorem pending_update_dropped :
    ¬∀ (env : Env) (es : List Event), env.enableVardiff = true →
      (exec step (initial env) es).NoneDropped := by
  intro h
  have hdropped := h (referenceEnv .nonAggregated true 50) crossing rfl ⟨1, 30⟩
  revert hdropped
  decide +kernel

end Owing

end Tproxy

end GridPoolSv2.Translator
