import GridPoolSv2.Translator.JobStorage
import GridPoolSv2.Translator.TipMessages

/-!
# Translator.JobPairs: the chain tip a job is paired with

A job reaches the `Sv1Server` in one message and its chain tip in an earlier one. Every
`mining.notify` puts the two together again. The run is traced: beside each queued message stands
what its channel knew when it was queued, and `built` collects what every notify was made of.

The pair is right exactly when the channel had a chain tip at that time. A channel of a reused id
has none at first, but the `Sv1Server` still has the prev-hash of the old channel: nothing removes
it when a channel is closed or replaced.
-/

namespace GridPoolSv2.Translator

open Function (update)
open Runs Sv1Server ChannelManager

/-- **Ghost.** What a `mining.notify` was built from, and what the channel of the job knew when the
job message was queued. -/
structure Pairing where
  job : NewExtendedMiningJob
  prevHash : SetNewPrevHash
  notify : Notify
  queued : Snapshot
  deriving Repr, DecidableEq

/-- The job was the active one under the chain tip it is paired with. -/
def Pairing.Right (p : Pairing) : Prop :=
  p.queued.Runs p.job ∧ p.queued.chainTip = some p.prevHash.chainTip

instance (p : Pairing) : Decidable p.Right :=
  inferInstanceAs (Decidable (Option.map _ _ = _ ∧ _))

/-- The translator, with the ghost queue and the notifies built so far. -/
structure Traced (env : Env) where
  tproxy : Tproxy env
  queued : List (Sv1Message × Snapshot) := []
  built : List Pairing := []

namespace Traced

variable {env : Env}

/-- What a step has queued, beside the channels it leaves behind. -/
def newMessages (s s' : Tproxy env) : List (Sv1Message × Snapshot) :=
  match s'.manager with
  | none => []
  | some manager => manager.queuedBy (s'.toSv1Server.drop s.toSv1Server.length)

/-- The `mining.notify` the next message is going to be built into. -/
def nextBuilt (t : Traced env) : Option Pairing :=
  match t.queued with
  | (.newExtendedMiningJob job, snap) :: _ =>
      match t.tproxy.sv1.server.prevhashes job.channelId,
          t.tproxy.sv1.server.jobNotify env.sv1 job with
      | some prevHash, some notify => some ⟨job, prevHash, notify, snap⟩
      | _, _ => none
  | _ => none

def step (t : Traced env) : Tproxy.Event → Traced env
  | .receiveUpstream =>
      { tproxy := t.tproxy.step .receiveUpstream
        queued := t.queued.tail
        built := t.built ++ t.nextBuilt.toList }
  | e =>
      { tproxy := t.tproxy.step e
        queued := t.queued ++ newMessages t.tproxy (t.tproxy.step e)
        built := t.built }

def initial (env : Env) : Traced env :=
  { tproxy := Tproxy.initial env }

/-! ### What a step leaves alone -/

section Frame

variable (s : Tproxy env)

/-- The steps of the `Sv1Server` and its connections, messages of the channel manager apart. -/
def isQuiet : Tproxy.Event → Bool
  | .receiveUpstream | .receiveDownstream | .frame _ _ => false
  | _ => true

theorem prevhashes_keepalive (s : Sv1Server) (now : Nat) (d : DownstreamId) :
    (s.keepalive now d).prevhashes = s.prevhashes := by
  cases hn : s.keepaliveJob now d with
  | none => exact (sameJobs_keepalive_of_none hn).prevhashes
  | some x =>
      obtain ⟨c, n⟩ := x
      exact (keepalive_of_some hn).2.1

theorem quiet_step (e : Tproxy.Event) (he : isQuiet e = true) :
    (s.step e).sv1.server.prevhashes = s.sv1.server.prevhashes ∧
      (s.step e).toSv1Server = s.toSv1Server ∧ (s.step e).manager = s.manager := by
  have hsame : s.storesJobs e = false →
      (s.step e).sv1.server.prevhashes = s.sv1.server.prevhashes := fun hstores =>
    (Tproxy.sameJobs_step s e hstores).prevhashes
  cases e with
  | receiveUpstream | receiveDownstream | frame => cases he
  | accept | sendUpdateChannelMessages | sendImmediate | sendApplicable | disconnect =>
      exact ⟨hsame rfl, rfl, rfl⟩
  | handshakeMessage d =>
      refine ⟨hsame rfl, ?_, ?_⟩
      all_goals
        simp only [Tproxy.step, Tproxy.handleHandshakeMessage]
        split <;> rfl
  | vardiff d newTarget =>
      refine ⟨hsame rfl, ?_, ?_⟩
      all_goals
        simp only [Tproxy.step]
        split <;> rfl
  | sv1 e h =>
      refine ⟨?_, rfl, rfl⟩
      cases e with
      | keepalive now d => exact prevhashes_keepalive s.sv1.server now d
      | deliver | configure | authorize | submit | flush => exact hsame rfl
      | _ => cases h

/-- A message is off the queue, and its prev-hash is known. -/
theorem receive_cons {m : Sv1Message} {rest : List Sv1Message} (hs : s.toSv1Server = m :: rest) :
    s.receiveUpstream.sv1.server.prevhashes = afterMessage s.sv1.server.prevhashes m ∧
      s.receiveUpstream.toSv1Server = rest ∧ s.receiveUpstream.manager = s.manager := by
  unfold Tproxy.receiveUpstream
  rw [hs]
  cases m with
  | openExtendedMiningChannelSuccess m =>
      exact ⟨(sameJobs_openSuccess s.sv1.server env.firstTarget m).prevhashes, rfl, rfl⟩
  | newExtendedMiningJob m =>
      exact ⟨(newExtendedMiningJob_frame s.sv1.server env.sv1 m).2, rfl, rfl⟩
  | setNewPrevHash m => exact ⟨rfl, rfl, rfl⟩
  | setTarget m =>
      dsimp only [Tproxy.handleUpstreamMessage]
      split
      · exact ⟨(sameJobs_setTarget s.sv1 m.channelId m.maximumTarget).prevhashes, rfl, rfl⟩
      · exact ⟨(sameJobs_withoutVardiff s.sv1.server m).prevhashes, rfl, rfl⟩

end Frame

/-! ### The invariant -/

/-- The ghost queue is the queue, and what is in it and what was built fits the channels. -/
structure Inv (t : Traced env) : Prop where
  queue : t.queued.map (·.1) = t.tproxy.toSv1Server
  told : ∀ manager, t.tproxy.manager = some manager →
    manager.Told (afterMessages t.tproxy.sv1.server.prevhashes t.tproxy.toSv1Server)
  paired : Paired t.tproxy.sv1.server.prevhashes t.queued
  built : ∀ p ∈ t.built, p.queued.Runs p.job ∧
    ∀ tip, p.queued.chainTip = some tip → p.prevHash.chainTip = tip

theorem inv_initial (env : Env) : (initial env).Inv where
  queue := rfl
  told := by
    intro manager hmanager
    obtain rfl := Option.some.inj hmanager
    exact ⟨fun _ _ _ htip => (Option.some_ne_none _ htip.symm).elim,
      fun _ _ _ hj => (List.not_mem_nil hj).elim⟩
  paired := trivial
  built := fun p hp => by cases hp

/-- A step that neither takes a message off the queue nor queues one. -/
theorem Inv.quiet {t : Traced env} (hI : t.Inv) {e : Tproxy.Event} (he : isQuiet e = true) :
    Inv { t with tproxy := t.tproxy.step e } := by
  obtain ⟨hprevhashes, hqueue, hmanager⟩ := quiet_step t.tproxy e he
  refine ⟨?_, ?_, ?_, hI.built⟩
  · exact hI.queue.trans hqueue.symm
  · change ∀ manager, (t.tproxy.step e).manager = some manager → _
    rw [hprevhashes, hqueue, hmanager]
    exact hI.told
  · change Paired (t.tproxy.step e).sv1.server.prevhashes t.queued
    rw [hprevhashes]
    exact hI.paired

theorem newMessages_of_eq {s s' : Tproxy env} (h : s'.toSv1Server = s.toSv1Server) :
    newMessages s s' = [] := by
  unfold newMessages
  split
  · rfl
  · simp [h, queuedBy]

/-- A handler of the channel manager has queued its messages. -/
theorem Inv.managed {t : Traced env} (hI : t.Inv) {s : Tproxy env}
    {manager : ChannelManager env.channels}
    (hsv1 : s.sv1 = t.tproxy.sv1) (hqueue : s.toSv1Server = t.tproxy.toSv1Server)
    (hmanager : t.tproxy.manager = some manager) {r : Except Fatal (Handled env.channels)}
    (hr : ∀ h, r = .ok h → Announces manager h) :
    Inv
      { tproxy := s.managed r
        queued := t.queued ++ newMessages t.tproxy (s.managed r)
        built := t.built } := by
  cases r with
  | error e =>
      have hnew : newMessages t.tproxy (s.managed (.error e)) = [] := rfl
      rw [hnew, List.append_nil]
      refine ⟨hI.queue.trans hqueue.symm, fun manager h => ?_, ?_, hI.built⟩
      · cases h
      · change Paired s.sv1.server.prevhashes t.queued
        rw [hsv1]
        exact hI.paired
  | ok h =>
      have ha := hr h rfl
      have ht := hI.told manager hmanager
      have hnew : newMessages t.tproxy (s.managed (.ok h)) = h.manager.queuedBy h.toSv1Server := by
        change h.manager.queuedBy ((s.toSv1Server ++ h.toSv1Server).drop _) = _
        rw [hqueue, List.drop_left]
      rw [hnew]
      refine ⟨?_, ?_, ?_, hI.built⟩
      · change _ = s.toSv1Server ++ h.toSv1Server
        rw [List.map_append, map_queuedBy, hI.queue, hqueue]
      · intro manager' h'
        obtain rfl := Option.some.inj h'
        change Told h.manager (afterMessages s.sv1.server.prevhashes
          (s.toSv1Server ++ h.toSv1Server))
        rw [hsv1, hqueue, afterMessages_append]
        exact ha.told _ ht
      · change Paired s.sv1.server.prevhashes _
        rw [hsv1, paired_append, hI.queue]
        exact ⟨hI.paired, ha.paired _ ht⟩

/-- A notify is made of the first job of the queue. -/
theorem nextBuilt_some {t : Traced env} {p : Pairing} (h : t.nextBuilt = some p) :
    (∃ rest, t.queued = (.newExtendedMiningJob p.job, p.queued) :: rest) ∧
      t.tproxy.sv1.server.prevhashes p.job.channelId = some p.prevHash ∧
      t.tproxy.sv1.server.jobNotify env.sv1 p.job = some p.notify := by
  unfold nextBuilt at h
  split at h
  · rename_i job snap rest hq
    split at h
    · rename_i prevHash notify hprevHash hnotify
      obtain rfl := Option.some.inj h
      exact ⟨⟨rest, hq⟩, hprevHash, hnotify⟩
    · cases h
  · cases h

/-- The `Sv1Server` takes a message off its queue. -/
theorem Inv.receive {t : Traced env} (hI : t.Inv) : (t.step .receiveUpstream).Inv := by
  cases hq : t.queued with
  | nil =>
      have hempty : t.tproxy.toSv1Server = [] := by rw [← hI.queue, hq]; rfl
      have htproxy : t.tproxy.receiveUpstream = t.tproxy := by
        unfold Tproxy.receiveUpstream
        rw [hempty]
      have hnext : t.nextBuilt = none := by
        unfold nextBuilt
        rw [hq]
      have hstep : t.step .receiveUpstream = t := by
        change Traced.mk t.tproxy.receiveUpstream t.queued.tail (t.built ++ t.nextBuilt.toList) = t
        rw [htproxy, hnext, hq, Option.toList_none, List.append_nil, List.tail_nil, ← hq]
      rw [hstep]
      exact hI
  | cons x rest =>
      have hs : t.tproxy.toSv1Server = x.1 :: rest.map (·.1) := by rw [← hI.queue, hq]; rfl
      obtain ⟨hprevhashes, hqueue, hmanager⟩ := receive_cons t.tproxy hs
      have hpaired := hI.paired
      rw [hq] at hpaired
      refine ⟨?_, ?_, ?_, ?_⟩
      · change t.queued.tail.map (·.1) = t.tproxy.receiveUpstream.toSv1Server
        rw [hqueue, hq]
        rfl
      · intro manager h
        change t.tproxy.receiveUpstream.manager = some manager at h
        have ht := hI.told manager (hmanager ▸ h)
        rw [hs] at ht
        change Told manager (afterMessages t.tproxy.receiveUpstream.sv1.server.prevhashes
          t.tproxy.receiveUpstream.toSv1Server)
        rw [hprevhashes, hqueue]
        exact ht
      · change Paired t.tproxy.receiveUpstream.sv1.server.prevhashes t.queued.tail
        rw [hprevhashes, hq]
        exact hpaired.2
      · intro p hp
        rcases List.mem_append.mp hp with hp | hp
        · exact hI.built p hp
        · obtain ⟨⟨rest', hq'⟩, hprevHash, -⟩ := nextBuilt_some (Option.mem_toList.mp hp)
          obtain ⟨rfl, -⟩ := List.cons.inj (hq.symm.trans hq')
          obtain ⟨⟨hruns, hknows⟩, -⟩ := hpaired
          refine ⟨hruns, fun tip htip => ?_⟩
          have hthere := hknows tip htip
          rw [Knows, hprevHash] at hthere
          exact Option.some.inj hthere

/-- One step keeps the invariant. -/
theorem inv_step (hapi : env.channels.Lawful) (hclears : env.channels.ClearsFutureJobs)
    (t : Traced env) (e : Tproxy.Event) (hI : t.Inv) : (t.step e).Inv := by
  have hquiet : isQuiet e = true → (∀ t : Traced env, t.step e =
      { tproxy := t.tproxy.step e
        queued := t.queued ++ newMessages t.tproxy (t.tproxy.step e)
        built := t.built }) → (t.step e).Inv := by
    intro he hstep
    rw [hstep, newMessages_of_eq (quiet_step t.tproxy e he).2.1, List.append_nil]
    exact hI.quiet he
  cases e with
  | receiveUpstream => exact hI.receive
  | receiveDownstream =>
      change Inv
        { tproxy := t.tproxy.receiveDownstream
          queued := t.queued ++ newMessages t.tproxy t.tproxy.receiveDownstream
          built := t.built }
      unfold Tproxy.receiveDownstream
      split
      · rename_i manager m rest hmanager _
        exact hI.managed (s := { t.tproxy with toManager := rest }) rfl rfl hmanager
          fun h hh => announces_downstreamMessage hapi hh
      · rw [newMessages_of_eq rfl, List.append_nil]
        exact hI
  | frame hash m =>
      change Inv
        { tproxy := t.tproxy.receiveFrame hash m
          queued := t.queued ++ newMessages t.tproxy (t.tproxy.receiveFrame hash m)
          built := t.built }
      unfold Tproxy.receiveFrame
      split
      · rename_i manager hmanager
        exact hI.managed rfl rfl hmanager fun h hh => announces_upstreamFrame hapi hclears hh
      · rw [newMessages_of_eq rfl, List.append_nil]
        exact hI
  | _ => exact hquiet rfl fun _ => rfl

/-- **Every notify is built from the chain tip under which its job was the active one, exactly when
the channel had a chain tip.** In every run, whatever the delay of the queue. -/
theorem right_iff_tip (hapi : env.channels.Lawful) (hclears : env.channels.ClearsFutureJobs)
    (es : List Tproxy.Event) :
    ∀ p ∈ (exec step (initial env) es).built, p.Right ↔ p.queued.chainTip ≠ none := by
  intro p hp
  have hI := exec_invariant (inv_step hapi hclears) (inv_initial env) es
  obtain ⟨hruns, htip⟩ := hI.built p hp
  constructor
  · rintro ⟨-, hright⟩
    rw [hright]
    exact Option.some_ne_none _
  · intro hne
    obtain ⟨tip, hsome⟩ := Option.ne_none_iff_exists'.mp hne
    exact ⟨hruns, by rw [hsome, htip tip hsome]⟩

/-- A job of the upstream for channel 5. -/
def jobFor (jobId : UInt32) (minNtime : Option UInt32) : NewExtendedMiningJob :=
  { channelId := 5, jobId := jobId, minNtime := minNtime, version := 1,
    versionRollingAllowed := true, merklePath := [], coinbaseTxPrefix := [],
    coinbaseTxSuffix := [] }

/-- A miner works under a chain tip on channel 5, and leaves. Another miner is given the same id,
and a job comes before the channel has a chain tip. -/
def channelReopened : List Tproxy.Event :=
  [.accept, .handshakeMessage 1, .receiveDownstream,
    .frame UInt32.toNat (.openExtendedMiningChannelSuccess (sampleOpenSuccess 5 4)),
    .frame UInt32.toNat (.newExtendedMiningJob (jobFor 7 none)),
    .frame UInt32.toNat (.setNewPrevHash ⟨5, 7, List.replicate 32 9, 100, 0⟩),
    .receiveUpstream, .receiveUpstream, .receiveUpstream, .disconnect 1, .receiveDownstream,
    .accept, .handshakeMessage 2, .receiveDownstream,
    .frame UInt32.toNat (.openExtendedMiningChannelSuccess
      { sampleOpenSuccess 5 4 with requestId := 1 }),
    .frame UInt32.toNat (.newExtendedMiningJob (jobFor 8 (some 200))),
    .receiveUpstream, .receiveUpstream]

/-- The run with a channel id that is used again. -/
theorem channelReopened_right_iff :
    let built := (exec step (initial (referenceEnv .nonAggregated false 50)) channelReopened).built
    built.map (·.queued.chainTip.isSome) = [true, false] ∧
      ∀ p ∈ built, p.Right ↔ p.queued.chainTip ≠ none :=
  ⟨by decide +kernel,
    right_iff_tip referenceChannels_lawful referenceChannels_clears channelReopened⟩

/-- The second miner is told to work on its job under the prev-hash of the first channel. -/
theorem reopened_under_old_tip :
    ¬∀ (env : Env) (es : List Tproxy.Event), env.channels.Lawful → env.channels.ClearsFutureJobs →
      ∀ p ∈ (exec step (initial env) es).built, p.Right := by
  intro h
  have hright := h (referenceEnv .nonAggregated false 50) channelReopened referenceChannels_lawful
    referenceChannels_clears
  revert hright
  decide +kernel

end Traced

end GridPoolSv2.Translator
