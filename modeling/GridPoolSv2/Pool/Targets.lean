import GridPoolSv2.Pool.FeeWork
import GridPoolSv2.Pool.RpcTemplateProvider

/-!
# Pool.Targets: the targets of channels, and the ones the miners were told

A share is judged by the target of its channel; a miner works on the last target it was sent. The
target of a channel is set when it is opened, by an `UpdateChannel` of the miner, and by the vardiff
pass once a minute. This module adds these handlers, and the answers to shares, to the model of the
channel manager.

* `TargetOps` is what they use of the channel types and of `VardiffState`; `TargetOps.Lawful` says
  which methods leave the target of a channel alone.
* `TargetPool` is the manager with the vardiff states and the messages about targets and shares, in
  the order they are queued.
* `Inv.replace` is the one rule for a handler that changes a channel and sends messages about it.

The vardiff pass runs in the task of the manager, between two handlers, and its messages are queued
before the next handler begins. Telemetry and proofs are modelled elsewhere (`Pool.FeeWork`,
`Pool.ShareProof`).

Proof shape: the events of the manager are known from `Pool.Effects`, and none of them touches
the target of a channel that is open. The other handlers end in `replace`, the one place where
a target changes, with the message in the same step. `Sound` adds what is needed between the
events: ids are numbered, and no id is of two kinds.
-/

namespace GridPoolSv2.Pool

open Consensus (Bytes)
open Function (update)

/-! ### Channels and vardiff -/

/-- `ShareValidationError`, with the error code of each. -/
inductive ShareValidationError where
  | invalid (code : String)
  | stale (code : String)
  | invalidJobId (code : String)
  | doesNotMeetTarget (code : String)
  | duplicateShare (code : String)
  | versionRollingNotAllowed (code : String)
  | badExtranonceSize (code : String)
  | other (text : String)
  deriving Repr, DecidableEq

/-- The code a share is answered with. After any other error the miner is disconnected. -/
def ShareValidationError.code? : ChannelKind → ShareValidationError → Option String
  | _, .invalid code | _, .stale code | _, .invalidJobId code | _, .doesNotMeetTarget code
  | _, .duplicateShare code | _, .versionRollingNotAllowed code => some code
  | .extended, .badExtranonceSize code => some code
  | .standard, .badExtranonceSize _ => none
  | _, .other _ => none

/-- `ShareValidationResult`. A block of a custom job has no template. -/
inductive ValidatedShare where
  | valid (shareHash : Bytes)
  | blockFound (shareHash : Bytes) (templateId : Option TemplateId) (coinbase : Bytes)
  deriving Repr, DecidableEq

/-- `ShareAccounting`, as `SubmitSharesSuccess` reads it. -/
structure ShareAccounting where
  shouldAcknowledge : Bool
  lastShareSequenceNumber : UInt32
  lastBatchAccepted : UInt32
  lastBatchWorkSum : UInt64
  deriving Repr, DecidableEq

/-- The errors of `update_channel`. -/
inductive UpdateError where
  | invalidNominalHashrate (code : String)
  | other (text : String)
  deriving Repr, DecidableEq

/-- Vardiff states `V`, hashrates `H` and targets `T`. -/
structure TargetOps (env : Env) (V H T : Type) where
  target : env.channels.Channel → T
  /-- `update_channel`, with the requested maximum target. -/
  updateChannel : env.channels.Channel → H → Option T →
    Except UpdateError Unit × env.channels.Channel
  setStableHashrate : env.channels.Channel → Bool → env.channels.Channel
  validateShare : env.channels.Channel → SubmitShares →
    Except ShareValidationError ValidatedShare × env.channels.Channel
  accounting : env.channels.Channel → ShareAccounting
  newVardiff : V
  /-- `try_vardiff`, with the hashrate, the target and the share rate of the channel. -/
  tryVardiff : V → env.channels.Channel → Except Unit (Option H) × V
  incrementShares : V → V

variable {env : Env} {V H T : Type}

/-- Only `update_channel` changes the target of a channel, and not when it fails. -/
structure TargetOps.Lawful (ops : TargetOps env V H T) : Prop where
  onNewTemplate : ∀ {ch ch' t o}, env.channels.channel.onNewTemplate ch t o = .ok ch' →
    ops.target ch' = ops.target ch
  onSetNewPrevHash : ∀ {ch ch' m}, env.channels.channel.onSetNewPrevHash ch m = .ok ch' →
    ops.target ch' = ops.target ch
  onGroupChannelJob : ∀ {ch ch' j}, env.channels.onGroupChannelJob ch j = .ok ch' →
    ops.target ch' = ops.target ch
  onSetCustomMiningJob : ∀ {ch ch' m i}, env.channels.onSetCustomMiningJob ch m = .ok (i, ch') →
    ops.target ch' = ops.target ch
  validateShare : ∀ ch msg, ops.target (ops.validateShare ch msg).2 = ops.target ch
  setStableHashrate : ∀ ch b, ops.target (ops.setStableHashrate ch b) = ops.target ch
  updateChannel_error : ∀ {ch ch' h t e}, ops.updateChannel ch h t = (.error e, ch') →
    ops.target ch' = ops.target ch

/-! ### The messages

Those about targets and shares. The target a miner works on is the last one it was sent. -/

/-- The messages of a channel about its target and its shares. -/
inductive ChannelMessage (T : Type) where
  | openMiningChannelSuccess (channelId : ChannelId) (target : T)
  | setTarget (channelId : ChannelId) (maximumTarget : T)
  | updateChannelError (channelId : ChannelId) (errorCode : String)
  | submitSharesSuccess (channelId : ChannelId)
      (lastSequenceNumber newSubmitsAcceptedCount : UInt32) (newSharesSum : UInt64)
  | submitSharesError (channelId : ChannelId) (sequenceNumber : UInt32) (errorCode : String)
  | closeChannel (channelId : ChannelId) (reasonCode : String)
  deriving Repr, DecidableEq

/-- The target a message announces for a channel. -/
def ChannelMessage.target? (c : ChannelId) : ChannelMessage T → Option T
  | .openMiningChannelSuccess c' t | .setTarget c' t => if c' = c then some t else none
  | _ => none

/-- The last target that was announced for a channel. -/
def lastTarget (c : ChannelId) (ms : List (ChannelMessage T)) : Option T :=
  (ms.filterMap (ChannelMessage.target? c)).getLast?

theorem lastTarget_append (c : ChannelId) (ms ms' : List (ChannelMessage T)) :
    lastTarget c (ms ++ ms') = (lastTarget c ms').or (lastTarget c ms) := by
  rw [lastTarget, List.filterMap_append, List.getLast?_append]
  rfl

/-! ### The manager -/

/-- The manager, its `vardiff` map, the messages it queued for each downstream and the solutions it
sent to the template provider. -/
structure TargetPool (env : Env) (V T : Type) where
  manager : ChannelManager env.channels
  vardiff : DownstreamId × ChannelId → Option V
  sent : DownstreamId → List (ChannelMessage T)
  solutions : List SubmitSolution

namespace TargetPool

def setVardiff (s : TargetPool env V T) (key : DownstreamId × ChannelId) (v : Option V) :
    TargetPool env V T :=
  { s with vardiff := update s.vardiff key v }

def setChannel (s : TargetPool env V T) (d : DownstreamId) (k : ChannelKind) (c : ChannelId)
    (ch : env.channels.Channel) : TargetPool env V T :=
  match s.manager.downstreams.lookup d with
  | none => s
  | some ds => { s with manager := s.manager.setDownstream d (ds.insertChannel k c ch) }

def send (s : TargetPool env V T) (d : DownstreamId) (ms : List (ChannelMessage T)) :
    TargetPool env V T :=
  { s with sent := update s.sent d (s.sent d ++ ms) }

/-- `remove_downstream` also removes the vardiff states of the downstream. -/
def retainVardiff (s : TargetPool env V T) : TargetPool env V T :=
  { s with vardiff := fun key =>
      if (s.manager.downstreams.lookup key.1).isSome then s.vardiff key else none }

/-- What the loop of `start` does with the result of a handler. -/
def settle (r : TargetPool env V T × Option PoolError) : TargetPool env V T :=
  match r.2 with
  | none => r.1
  | some e => { r.1 with manager := r.1.manager.handleErrorAction e }.retainVardiff

/-! ### Shares -/

/-- `SubmitSharesSuccess`. -/
def submitSharesSuccess (c : ChannelId) (a : ShareAccounting) : ChannelMessage T :=
  .submitSharesSuccess c a.lastShareSequenceNumber a.lastBatchAccepted a.lastBatchWorkSum

/-- The answer to a share that was validated. A coinbase that is too long for `SubmitSolution` ends
the pool. -/
def answer (s : TargetPool env V T) (k : ChannelKind) (d : DownstreamId) (msg : SubmitShares)
    (a : ShareAccounting) :
    Except ShareValidationError ValidatedShare → TargetPool env V T × Option PoolError
  | .ok (.valid _) =>
      if a.shouldAcknowledge then (s.send d [submitSharesSuccess msg.channelId a], none)
      else (s, none)
  | .ok (.blockFound _ none _) => (s.send d [submitSharesSuccess msg.channelId a], none)
  | .ok (.blockFound _ (some templateId) coinbase) =>
      if 65535 < coinbase.length then
        (s, some (.shutdown (.channel (.other "coinbase exceeds SV2 B064K"))))
      else
        let solution : SubmitSolution :=
          ⟨templateId, msg.version, msg.ntime, msg.nonce, coinbase⟩
        ({ s with solutions := s.solutions ++ [solution] }.send d
          [submitSharesSuccess msg.channelId a], none)
  | .error e =>
      match e.code? k with
      | some code =>
          (s.send d [.submitSharesError msg.channelId msg.sequenceNumber code], none)
      | none => (s, some (.disconnect (.channel (.other "share validation")) d))

/-- `handle_submit_shares_standard` and `handle_submit_shares_extended`. -/
def handleSubmitShares (ops : TargetOps env V H T) (s : TargetPool env V T) (k : ChannelKind)
    (d : DownstreamId) (msg : SubmitShares) : TargetPool env V T × Option PoolError :=
  match s.manager.downstreams.lookup d with
  | none => (s, some (.disconnect .downstreamNotFound d))
  | some ds =>
      match (ds.channels k).lookup msg.channelId, s.vardiff (d, msg.channelId) with
      | none, _ =>
          (s.send d [.submitSharesError msg.channelId msg.sequenceNumber "invalid-channel-id"],
            none)
      | some _, none => (s.send d [.closeChannel msg.channelId "invalid-channel-id"], none)
      | some ch, some vardiff =>
          let (result, ch) := ops.validateShare ch msg
          -- counted for vardiff whatever the result
          let s := (s.setChannel d k msg.channelId ch).setVardiff (d, msg.channelId)
            (some (ops.incrementShares vardiff))
          s.answer k d msg (ops.accounting ch) result

/-! ### Targets -/

/-- The update of `handle_update_channel` on a channel. The target is sent also after an error; any
other error than that of the hashrate is `unreachable!`. -/
def updateOn (ops : TargetOps env V H T) (s : TargetPool env V T) (k : ChannelKind)
    (d : DownstreamId) (c : ChannelId) (ch : env.channels.Channel) (nominalHashRate : H)
    (maximumTarget : T) : TargetPool env V T × Option PoolError :=
  let (result, ch) := ops.updateChannel ch nominalHashRate (some maximumTarget)
  let s := s.setChannel d k c ch
  match result with
  | .ok _ => (s.send d [.setTarget c (ops.target ch)], none)
  | .error (.invalidNominalHashrate code) =>
      (s.send d [.updateChannelError c code, .setTarget c (ops.target ch)], none)
  | .error (.other _) => (s, some (.shutdown (.expect "unreachable")))

/-- `handle_update_channel`. -/
def handleUpdateChannel (ops : TargetOps env V H T) (s : TargetPool env V T) (d : DownstreamId)
    (c : ChannelId) (nominalHashRate : H) (maximumTarget : T) :
    TargetPool env V T × Option PoolError :=
  match s.manager.downstreams.lookup d with
  | none => (s, some (.disconnect .downstreamNotFound d))
  | some ds =>
      match (ds.channels .standard).lookup c, (ds.channels .extended).lookup c with
      | some ch, _ => s.updateOn ops .standard d c ch nominalHashRate maximumTarget
      | none, some ch => s.updateOn ops .extended d c ch nominalHashRate maximumTarget
      | none, none => (s.send d [.updateChannelError c "invalid-channel-id"], none)

/-- A channel that gets the hashrate of its shares. Its miner learns of a success only. -/
def retargetTo (ops : TargetOps env V H T) (s : TargetPool env V T) (k : ChannelKind)
    (d : DownstreamId) (c : ChannelId) (ch : env.channels.Channel) (newHashrate : H) :
    TargetPool env V T :=
  let (result, ch) := ops.updateChannel ch newHashrate none
  let s := s.setChannel d k c ch
  match result with
  | .ok _ => s.send d [.setTarget c (ops.target ch)]
  | .error _ => s

/-- `run_vardiff_on_standard_channel` and `run_vardiff_on_extended_channel`. -/
def runVardiffOnChannel (ops : TargetOps env V H T) (d : DownstreamId) (c : ChannelId)
    (s : TargetPool env V T) (k : ChannelKind) : TargetPool env V T :=
  match s.vardiff (d, c), s.manager.channel? d k c with
  | some vardiff, some ch =>
      let (result, vardiff) := ops.tryVardiff vardiff ch
      let s := s.setVardiff (d, c) (some vardiff)
      match result with
      | .error _ => s
      | .ok none => s.setChannel d k c (ops.setStableHashrate ch true)
      | .ok (some newHashrate) =>
          s.retargetTo ops k d c (ops.setStableHashrate ch false) newHashrate
  | _, _ => s

/-- The body of the loop of `run_vardiff`. -/
def runVardiffOn (ops : TargetOps env V H T) (s : TargetPool env V T)
    (key : DownstreamId × ChannelId) : TargetPool env V T :=
  match s.manager.downstreams.lookup key.1 with
  | none => s.setVardiff key none
  | some _ => [.standard, .extended].foldl (runVardiffOnChannel ops key.1 key.2) s

/-! ### Runs -/

/-- The channel an open request opened: it has the next id of its downstream. -/
def opened (s s' : ChannelManager env.channels) :
    ChannelManager.Event → Option (DownstreamId × ChannelId × env.channels.Channel)
  | .openChannel k d _ _ _ =>
      if s'.running then
        (s.downstreams.lookup d).bind fun ds =>
          (s'.channel? d k ds.channelIdFactory).map fun ch => (d, ds.channelIdFactory, ch)
      else none
  | _ => none

/-- A handler of the manager, with the vardiff state and the success of a channel that it opens. -/
def managerStep (ops : TargetOps env V H T) (s : TargetPool env V T) (e : ChannelManager.Event) :
    TargetPool env V T :=
  let manager := s.manager.step e
  let s' := { s with manager := manager }.retainVardiff
  match e, opened s.manager manager e with
  | .closeChannel d c, _ => s'.setVardiff (d, c) none
  | _, none => s'
  | _, some (d, c, ch) =>
      (s'.setVardiff (d, c) (some ops.newVardiff)).send d
        [.openMiningChannelSuccess c (ops.target ch)]

inductive Event (H T : Type) where
  | manager (e : ChannelManager.Event)
  | submitShares (k : ChannelKind) (d : DownstreamId) (msg : SubmitShares)
  | updateChannel (d : DownstreamId) (c : ChannelId) (nominalHashRate : H) (maximumTarget : T)
  /-- A vardiff pass, over the keys of `vardiff` in the order of the map. -/
  | vardiff (keys : List (DownstreamId × ChannelId))

def step (ops : TargetOps env V H T) (s : TargetPool env V T) (e : Event H T) :
    TargetPool env V T :=
  if !s.manager.running then s
  else
    match e with
    | .manager e => s.managerStep ops e
    | .submitShares k d msg => settle (s.handleSubmitShares ops k d msg)
    | .updateChannel d c nominalHashRate maximumTarget =>
        settle (s.handleUpdateChannel ops d c nominalHashRate maximumTarget)
    | .vardiff keys => keys.foldl (runVardiffOn ops) s

def initial (manager : ChannelManager env.channels) : TargetPool env V T where
  manager := manager
  vardiff _ := none
  sent _ := []
  solutions := []

/-! ### The channels of the manager

What the events of the manager do to the channels: open one, close one, or leave the targets
alone. -/

section Manager

variable {m : ChannelManager env.channels}

/-- A channel that was not open before was opened by a request of its kind. -/
theorem new_channel (law : env.channels.Lawful) {e : ChannelManager.Event} (hrun : m.running = true)
    {d : DownstreamId} {k : ChannelKind} {c : ChannelId} {ch : env.channels.Channel}
    (hbefore : m.channel? d k c = none) (hafter : (m.step e).channel? d k c = some ch) :
    ∃ msg allocated now ds, e = .openChannel k d msg allocated now ∧
      m.downstreams.lookup d = some ds ∧ c = ds.channelIdFactory := by
  have hstep := ChannelManager.step_channel law m e hrun d k c
  have hshape := ChannelManager.step_shape m e hrun
  rw [hbefore, hafter] at hstep
  have hopen : ∃ k₀ msg allocated now ds, e = .openChannel k₀ d msg allocated now ∧
      m.downstreams.lookup d = some ds ∧ c = ds.channelIdFactory := by
    cases hstep with
    | opened he hds hc => exact ⟨_, _, _, _, _, he, hds, hc⟩
    | openedCustom he hds hc => exact ⟨_, _, _, _, _, he, hds, hc⟩
  obtain ⟨k₀, msg, allocated, now, ds, rfl, hds, hc⟩ := hopen
  refine ⟨msg, allocated, now, ds, ?_, hds, hc⟩
  generalize m.step (.openChannel k₀ d msg allocated now) = m' at hshape hafter
  have hquiet : ChannelManager.Quiet m m' → False := fun h => by
    rcases h.channel d k c with heq | heq
    · rw [heq, hbefore] at hafter
      cases hafter
    · rw [heq] at hafter
      cases hafter
  -- the other kind of channels is left alone
  have hkind : ∀ {ds₀ ds' : Downstream env.channels} {new : env.channels.Channel},
      m.downstreams.lookup d = some ds₀ → m'.downstreams = m.downstreams.insert d ds' →
      ds'.channels = update ds₀.channels k₀ ((ds₀.channels k₀).insert ds₀.channelIdFactory new) →
      k = k₀ := by
    intro ds₀ ds' new hds₀ hm' hchannels
    rw [ChannelManager.channel?, hm', AList.lookup_insert, Option.bind_some] at hafter
    rw [ChannelManager.channel?, hds₀, Option.bind_some] at hbefore
    rcases ChannelManager.lookup_insertChannel hchannels k c with ⟨hk, -⟩ | ⟨-, heq⟩
    · exact hk
    · rw [heq, hbefore] at hafter
      cases hafter
  cases hshape with
  | quiet h | stopped h => exact (hquiet h).elim
  | opened h =>
      obtain ⟨notes, running, hstate, -⟩ := h.settle_state
      obtain rfl := hkind h.downstream (by rw [hstate]) h.channels
      rfl
  | openedCustom h =>
      obtain ⟨notes, hstate, -⟩ := h.state
      obtain rfl := hkind h.downstream (by rw [hstate]; rfl) h.channels
      rfl

/-- What it means that a request opened a channel. -/
theorem opened_cases {m' : ChannelManager env.channels} {e : ChannelManager.Event}
    {d : DownstreamId} {c : ChannelId} {ch : env.channels.Channel}
    (h : opened m m' e = some (d, c, ch)) :
    ∃ k msg allocated now ds, e = .openChannel k d msg allocated now ∧
      m.downstreams.lookup d = some ds ∧ c = ds.channelIdFactory := by
  unfold opened at h
  split at h
  · split at h
    · obtain ⟨ds, hds, hmap⟩ := Option.bind_eq_some_iff.mp h
      obtain ⟨ch', -, heq⟩ := Option.map_eq_some_iff.mp hmap
      cases heq
      exact ⟨_, _, _, _, ds, rfl, hds, rfl⟩
    · cases h
  · cases h

/-- A channel that is there after an event and was not before was opened by it. -/
theorem opened_of_new (law : env.channels.Lawful) {e : ChannelManager.Event}
    (hrun : m.running = true) (hafter : (m.step e).running = true) {d : DownstreamId}
    {k : ChannelKind} {c : ChannelId} {ch : env.channels.Channel}
    (hbefore : m.channel? d k c = none) (hch : (m.step e).channel? d k c = some ch) :
    opened m (m.step e) e = some (d, c, ch) := by
  obtain ⟨msg, allocated, now, ds, rfl, hds, rfl⟩ := new_channel law hrun hbefore hch
  rw [opened, if_pos hafter, hds, Option.bind_some, hch]
  rfl

theorem closed_channel {d : DownstreamId} {c : ChannelId} (k : ChannelKind)
    (hrun : m.running = true) : (m.step (.closeChannel d c)).channel? d k c = none := by
  have hstep : m.step (.closeChannel d c) =
      ChannelManager.settle (m.handleCloseChannel d c) := by
    simp only [ChannelManager.step, hrun, Bool.not_true, Bool.false_eq_true, if_false]
  have hclosed : (m.handleCloseChannel d c).1.channel? d k c = none := by
    unfold ChannelManager.handleCloseChannel
    split
    · rename_i hds
      rw [ChannelManager.channel?, hds]
      rfl
    · simp [ChannelManager.channel?, ChannelManager.setDownstream]
  rw [hstep]
  rcases (ChannelManager.quiet_settle (m.handleCloseChannel d c)).channel d k c with heq | heq
  · rw [heq, hclosed]
  · exact heq

/-- A channel that was open before has the same target. -/
theorem same_target {ops : TargetOps env V H T} (law : env.channels.Lawful) (hops : ops.Lawful)
    {e : ChannelManager.Event} (hrun : m.running = true) (hnum : m.Numbered) {d : DownstreamId}
    {k : ChannelKind} {c : ChannelId} {ch ch' : env.channels.Channel}
    (hbefore : m.channel? d k c = some ch) (hafter : (m.step e).channel? d k c = some ch') :
    ops.target ch' = ops.target ch := by
  have hstep := ChannelManager.step_channel law m e hrun d k c
  rw [hbefore, hafter] at hstep
  obtain ⟨ds, hds, hlookup⟩ := ChannelManager.channel?_eq_some.mp hbefore
  have hlt := hnum.channel d ds k c ch hds hlookup
  cases hstep with
  | same => rfl
  | template _ h => exact hops.onNewTemplate h
  | groupJob _ _ _ _ _ _ h => exact hops.onGroupChannelJob h
  | prevHash _ _ _ h => exact hops.onSetNewPrevHash h
  | custom _ _ h => exact hops.onSetCustomMiningJob h
  | opened _ hds' hc =>
      obtain rfl := Option.some.inj (hds.symm.trans hds')
      exact absurd hlt (hc ▸ Nat.lt_irrefl _)
  | openedCustom _ hds' hc =>
      obtain rfl := Option.some.inj (hds.symm.trans hds')
      exact absurd hlt (hc ▸ Nat.lt_irrefl _)

/-- No downstream has a standard and an extended channel of one id. -/
def OneKind (m : ChannelManager env.channels) : Prop :=
  ∀ d k k' c, (m.channel? d k c).isSome → (m.channel? d k' c).isSome → k = k'

/-- No id belongs to a standard and an extended channel of one downstream. -/
theorem oneKind_step (law : env.channels.Lawful) (h : OneKind m) (hnum : m.Numbered)
    (hrun : m.running = true) (e : ChannelManager.Event) : OneKind (m.step e) := by
  have hold : ∀ {d k c ds}, m.downstreams.lookup d = some ds → (m.channel? d k c).isSome →
      c ≠ ds.channelIdFactory := fun hds hch => by
    obtain ⟨ch, hch⟩ := Option.isSome_iff_exists.mp hch
    obtain ⟨ds', hds', hlookup⟩ := ChannelManager.channel?_eq_some.mp hch
    obtain rfl := Option.some.inj (hds.symm.trans hds')
    exact Nat.ne_of_lt (hnum.channel _ _ _ _ _ hds hlookup)
  intro d k k' c hk hk'
  obtain ⟨ch, hch⟩ := Option.isSome_iff_exists.mp hk
  obtain ⟨ch', hch'⟩ := Option.isSome_iff_exists.mp hk'
  cases hb : m.channel? d k c with
  | some _ =>
      cases hb' : m.channel? d k' c with
      | some _ => exact h d k k' c (by simp [hb]) (by simp [hb'])
      | none =>
          obtain ⟨_, _, _, ds, -, hds, hc⟩ := new_channel law hrun hb' hch'
          exact absurd hc (hold (k := k) hds (by simp [hb]))
  | none =>
      obtain ⟨_, _, _, ds, rfl, hds, hc⟩ := new_channel law hrun hb hch
      cases hb' : m.channel? d k' c with
      | some _ => exact absurd hc (hold (k := k') hds (by simp [hb']))
      | none =>
          obtain ⟨_, _, _, _, heq, -⟩ := new_channel law hrun hb' hch'
          exact (ChannelManager.Event.openChannel.inj heq).1

theorem lookup_insert (ds : Downstream env.channels) (k : ChannelKind) (c : ChannelId)
    (ch : env.channels.Channel) (k' : ChannelKind) (c' : ChannelId) :
    (k' = k ∧ c' = c ∧ ((ds.insertChannel k c ch).channels k').lookup c' = some ch) ∨
      (¬ (k' = k ∧ c' = c) ∧
        ((ds.insertChannel k c ch).channels k').lookup c' = (ds.channels k').lookup c') :=
  ChannelManager.lookup_insertChannel rfl k' c'

theorem numbered_setDownstream (hnum : m.Numbered) {d : DownstreamId} {k : ChannelKind}
    {c : ChannelId} {ch : env.channels.Channel} (ch' : env.channels.Channel)
    {ds : Downstream env.channels} (hds : m.downstreams.lookup d = some ds)
    (hlookup : (ds.channels k).lookup c = some ch) :
    (m.setDownstream d (ds.insertChannel k c ch')).Numbered where
  downstream := by
    intro d' ds' hds'
    by_cases hd : d' = d
    · subst hd
      exact hnum.downstream d' ds hds
    · rw [ChannelManager.setDownstream, AList.lookup_insert_ne hd] at hds'
      exact hnum.downstream d' ds' hds'
  channel := by
    intro d' ds' k' c' ch₁ hds' hch'
    by_cases hd : d' = d
    · subst hd
      rw [ChannelManager.setDownstream, AList.lookup_insert] at hds'
      obtain rfl := Option.some.inj hds'
      rcases lookup_insert ds k c ch' k' c' with ⟨-, rfl, -⟩ | ⟨-, heq⟩
      · exact hnum.channel d' ds k c' ch hds hlookup
      · exact hnum.channel d' ds k' c' ch₁ hds (heq ▸ hch')
    · rw [ChannelManager.setDownstream, AList.lookup_insert_ne hd] at hds'
      exact hnum.channel d' ds' k' c' ch₁ hds' hch'

theorem numbered_removeDownstream (hnum : m.Numbered) (d : DownstreamId) :
    (m.removeDownstream d).Numbered where
  downstream := by
    intro d' ds' hds'
    obtain ⟨ds, hds, -⟩ := (ChannelManager.quiet_removeDownstream m d).downstreams d' ds' hds'
    exact hnum.downstream d' ds hds
  channel := by
    intro d' ds' k c ch hds' hch
    obtain ⟨ds, hds, hk⟩ := (ChannelManager.quiet_removeDownstream m d).downstreams d' ds' hds'
    exact Nat.lt_of_lt_of_le (hnum.channel d' ds k c ch hds (hk.channels ▸ hch))
      hk.channelIdFactory

end Manager

@[simp] theorem send_manager (s : TargetPool env V T) (d : DownstreamId)
    (ms : List (ChannelMessage T)) : (s.send d ms).manager = s.manager := rfl

@[simp] theorem send_vardiff (s : TargetPool env V T) (d : DownstreamId)
    (ms : List (ChannelMessage T)) : (s.send d ms).vardiff = s.vardiff := rfl

theorem send_sent_self (s : TargetPool env V T) (d : DownstreamId) (ms : List (ChannelMessage T)) :
    (s.send d ms).sent d = s.sent d ++ ms :=
  Function.update_self d _ s.sent

theorem send_sent_of_ne (s : TargetPool env V T) {d d' : DownstreamId} (h : d' ≠ d)
    (ms : List (ChannelMessage T)) : (s.send d ms).sent d' = s.sent d' :=
  Function.update_of_ne h _ s.sent

@[simp] theorem send_nil (s : TargetPool env V T) (d : DownstreamId) : s.send d [] = s := by
  simp [send]

/-- A message was sent before or is sent now. -/
theorem mem_send {s : TargetPool env V T} {d d' : DownstreamId} {ms : List (ChannelMessage T)}
    {m : ChannelMessage T} (h : m ∈ (s.send d ms).sent d') : m ∈ s.sent d' ∨ m ∈ ms := by
  by_cases hd : d' = d
  · subst hd
    rw [send_sent_self] at h
    exact List.mem_append.mp h
  · rw [send_sent_of_ne s hd] at h
    exact .inl h

theorem setVardiff_self (s : TargetPool env V T) (key : DownstreamId × ChannelId) (v : Option V) :
    (s.setVardiff key v).vardiff key = v :=
  Function.update_self (f := s.vardiff) ..

theorem setVardiff_of_ne (s : TargetPool env V T) {key key' : DownstreamId × ChannelId}
    (h : key ≠ key') (v : Option V) : (s.setVardiff key' v).vardiff key = s.vardiff key :=
  Function.update_of_ne (f := s.vardiff) h ..

theorem setVardiff_isSome {s : TargetPool env V T} {key key' : DownstreamId × ChannelId} {v : V}
    (h : (s.vardiff key).isSome) : ((s.setVardiff key' (some v)).vardiff key).isSome := by
  by_cases hkey : key = key'
  · rw [hkey, setVardiff_self]
    rfl
  · rw [setVardiff_of_ne s hkey]
    exact h

theorem setChannel_eq {s : TargetPool env V T} {d : DownstreamId} {k : ChannelKind} {c : ChannelId}
    {ch : env.channels.Channel} {ds : Downstream env.channels}
    (hds : s.manager.downstreams.lookup d = some ds) : s.setChannel d k c ch =
      { s with manager := s.manager.setDownstream d (ds.insertChannel k c ch) } := by
  rw [setChannel, hds]

@[simp] theorem setChannel_sent (s : TargetPool env V T) (d : DownstreamId) (k : ChannelKind)
    (c : ChannelId) (ch : env.channels.Channel) : (s.setChannel d k c ch).sent = s.sent := by
  unfold setChannel
  split <;> rfl

@[simp] theorem setChannel_vardiff (s : TargetPool env V T) (d : DownstreamId) (k : ChannelKind)
    (c : ChannelId) (ch : env.channels.Channel) :
    (s.setChannel d k c ch).vardiff = s.vardiff := by
  unfold setChannel
  split <;> rfl

/-- The channels after one of them was replaced. -/
theorem channel?_setChannel {s : TargetPool env V T} {d : DownstreamId} {k : ChannelKind}
    {c : ChannelId} {ch : env.channels.Channel} (hch : s.manager.channel? d k c = some ch)
    (ch' : env.channels.Channel) (d' : DownstreamId) (k' : ChannelKind) (c' : ChannelId) :
    ((d' = d ∧ k' = k ∧ c' = c) ∧ (s.setChannel d k c ch').manager.channel? d' k' c' = some ch') ∨
      ¬ (d' = d ∧ k' = k ∧ c' = c) ∧
        (s.setChannel d k c ch').manager.channel? d' k' c' = s.manager.channel? d' k' c' := by
  obtain ⟨ds, hds, -⟩ := ChannelManager.channel?_eq_some.mp hch
  have hinsert : (s.manager.setDownstream d (ds.insertChannel k c ch')).downstreams =
      s.manager.downstreams.insert d (ds.insertChannel k c ch') := rfl
  rw [setChannel_eq hds]
  rcases ChannelManager.channel?_insert s.manager _ hinsert d' k' c' with ⟨rfl, heq⟩ | ⟨hd, heq⟩
  · rw [heq]
    rcases lookup_insert ds k c ch' k' c' with ⟨rfl, rfl, hnew⟩ | ⟨hne, hold⟩
    · exact .inl ⟨⟨rfl, rfl, rfl⟩, hnew⟩
    · refine .inr ⟨fun h => hne h.2, ?_⟩
      rw [hold, ChannelManager.channel?, hds, Option.bind_some]
  · exact .inr ⟨fun h => hd h.1, heq⟩

/-! ### The invariant -/

/-- Every open channel has a vardiff state, and the last target its miner was sent is the one that
its shares are validated with. -/
structure Inv (ops : TargetOps env V H T) (s : TargetPool env V T) : Prop where
  numbered : s.manager.Numbered
  oneKind : OneKind s.manager
  tracked : ∀ {d k c}, (s.manager.channel? d k c).isSome → (s.vardiff (d, c)).isSome
  announced : ∀ {d k c ch}, s.manager.channel? d k c = some ch →
    lastTarget c (s.sent d) = some (ops.target ch)
  unclosed : ∀ d c reason, ChannelMessage.closeChannel c reason ∉ s.sent d

namespace Inv

variable {ops : TargetOps env V H T} {s : TargetPool env V T} {d : DownstreamId} {k : ChannelKind}
  {c : ChannelId} {ch : env.channels.Channel}

/-- Messages that announce no target. -/
theorem send (h : Inv ops s) (d : DownstreamId) {ms : List (ChannelMessage T)}
    (hnone : ∀ c, lastTarget c ms = none)
    (hopen : ∀ c reason, ChannelMessage.closeChannel c reason ∉ ms) : Inv ops (s.send d ms) where
  numbered := h.numbered
  oneKind := h.oneKind
  tracked := h.tracked
  announced := by
    intro d' k c ch hch
    have hlast := h.announced hch
    by_cases hd : d' = d
    · subst hd
      rw [send_sent_self, lastTarget_append, hnone, Option.none_or]
      exact hlast
    · rw [send_sent_of_ne s hd]
      exact hlast
  unclosed d' c reason hmem := (mem_send hmem).elim (h.unclosed d' c reason) (hopen c reason)

/-- A channel gets another state, and its miner is told the target if that changed. -/
theorem replace (h : Inv ops s) (hch : s.manager.channel? d k c = some ch)
    {ch' : env.channels.Channel} {ms : List (ChannelMessage T)}
    (hother : ∀ c', c' ≠ c → lastTarget c' ms = none)
    (hlast : (lastTarget c ms).or (some (ops.target ch)) = some (ops.target ch'))
    (hopen : ∀ c reason, ChannelMessage.closeChannel c reason ∉ ms) :
    Inv ops ((s.setChannel d k c ch').send d ms) := by
  have hchannel := channel?_setChannel hch ch'
  have hisSome : ∀ {d' k' c'}, ((s.setChannel d k c ch').manager.channel? d' k' c').isSome →
      (s.manager.channel? d' k' c').isSome := by
    intro d' k' c' hsome
    rcases hchannel d' k' c' with ⟨⟨rfl, rfl, rfl⟩, -⟩ | ⟨-, heq⟩
    · simp [hch]
    · exact heq ▸ hsome
  obtain ⟨ds, hds, hlookup⟩ := ChannelManager.channel?_eq_some.mp hch
  refine ⟨?_, ?_, ?_, ?_, ?_⟩
  · rw [send_manager, setChannel_eq hds]
    exact numbered_setDownstream h.numbered ch' hds hlookup
  · intro d' k₁ k₂ c' h₁ h₂
    exact h.oneKind d' k₁ k₂ c' (hisSome h₁) (hisSome h₂)
  · intro d' k' c' hsome
    rw [send_vardiff, setChannel_vardiff]
    exact h.tracked (hisSome hsome)
  · intro d' k' c' ch₁ hch₁
    rcases hchannel d' k' c' with ⟨⟨rfl, rfl, rfl⟩, heq⟩ | ⟨hne, heq⟩
    · obtain rfl := Option.some.inj (heq.symm.trans hch₁)
      rw [send_sent_self, lastTarget_append, setChannel_sent, h.announced hch]
      exact hlast
    · have hold := h.announced (heq ▸ hch₁)
      by_cases hd : d' = d
      · subst hd
        -- the other kind has no channel with this id
        have hc : c' ≠ c := by
          rintro rfl
          have hk := h.oneKind d' k' k c' (hisSome (by rw [← send_manager, hch₁]; rfl))
            (by simp [hch])
          exact hne ⟨rfl, hk, rfl⟩
        rw [send_sent_self, lastTarget_append, hother c' hc, Option.none_or, setChannel_sent]
        exact hold
      · rw [send_sent_of_ne _ hd, setChannel_sent]
        exact hold
  · intro d' c' reason hmem
    rcases mem_send hmem with hold | hnew
    · rw [setChannel_sent] at hold
      exact h.unclosed d' c' reason hold
    · exact hopen c' reason hnew

/-- A vardiff state is set, or removed where there is no channel. -/
theorem setVardiff (h : Inv ops s) {key : DownstreamId × ChannelId} {v : Option V}
    (hv : v.isSome ∨ ∀ k, s.manager.channel? key.1 k key.2 = none) :
    Inv ops (s.setVardiff key v) where
  numbered := h.numbered
  oneKind := h.oneKind
  announced := h.announced
  unclosed := h.unclosed
  tracked := by
    intro d k c hsome
    change (s.manager.channel? d k c).isSome at hsome
    rcases hv with hv | hnone
    · obtain ⟨v, rfl⟩ := Option.isSome_iff_exists.mp hv
      exact setVardiff_isSome (h.tracked hsome)
    · have hkey : (d, c) ≠ key := by
        rintro rfl
        rw [hnone k] at hsome
        cases hsome
      rw [setVardiff_of_ne s hkey]
      exact h.tracked hsome

/-- The channels that are left keep their vardiff states. -/
theorem quiet (h : Inv ops s) {m : ChannelManager env.channels} (hnum : m.Numbered)
    (hquiet : ChannelManager.Quiet s.manager m) :
    Inv ops { s with manager := m }.retainVardiff := by
  have hold : ∀ {d k c ch}, m.channel? d k c = some ch → s.manager.channel? d k c = some ch := by
    intro d k c ch hch
    rcases hquiet.channel d k c with heq | heq
    · exact heq ▸ hch
    · rw [heq] at hch
      cases hch
  have holdSome : ∀ {d k c}, (m.channel? d k c).isSome → (s.manager.channel? d k c).isSome := by
    intro d k c hsome
    obtain ⟨ch, hch⟩ := Option.isSome_iff_exists.mp hsome
    rw [hold hch]
    rfl
  refine ⟨hnum, fun d k k' c h₁ h₂ => h.oneKind d k k' c (holdSome h₁) (holdSome h₂), ?_,
    fun hch => h.announced (hold hch), h.unclosed⟩
  intro d k c hsome
  obtain ⟨ch, hch⟩ := Option.isSome_iff_exists.mp hsome
  obtain ⟨ds, hds, -⟩ := ChannelManager.channel?_eq_some.mp hch
  change m.downstreams.lookup d = some ds at hds
  show (if (m.downstreams.lookup d).isSome then s.vardiff (d, c) else none).isSome
  rw [hds]
  exact h.tracked (holdSome hsome)

/-- Acting on an error. -/
theorem settle {r : TargetPool env V T × Option PoolError} (h : Inv ops r.1) :
    Inv ops (TargetPool.settle r) := by
  unfold TargetPool.settle
  split
  · exact h
  · refine h.quiet ?_ (ChannelManager.quiet_handleErrorAction r.1.manager _)
    unfold ChannelManager.handleErrorAction
    split
    · exact h.numbered
    · exact numbered_removeDownstream h.numbered _
    · exact ⟨h.numbered.downstream, h.numbered.channel⟩

/-! ### The handlers -/

theorem answer (h : Inv ops s) (d : DownstreamId) (msg : SubmitShares) (a : ShareAccounting)
    (result : Except ShareValidationError ValidatedShare) :
    Inv ops (s.answer k d msg a result).1 := by
  have hsuccess : ∀ s', Inv ops s' →
      Inv ops (s'.send d [submitSharesSuccess msg.channelId a]) := fun s' h' =>
    h'.send d (fun _ => rfl) (by simp [submitSharesSuccess])
  cases result with
  | error e =>
      simp only [TargetPool.answer]
      split
      · exact h.send d (fun _ => rfl) (by simp)
      · exact h
  | ok validated =>
      cases validated with
      | valid =>
          simp only [TargetPool.answer]
          split
          · exact hsuccess s h
          · exact h
      | blockFound shareHash templateId coinbase =>
          cases templateId with
          | none => exact hsuccess s h
          | some templateId =>
              simp only [TargetPool.answer]
              split
              · exact h
              · exact hsuccess _ ⟨h.numbered, h.oneKind, h.tracked, h.announced, h.unclosed⟩

/-- A channel that changed with its target kept. -/
theorem keep (h : Inv ops s) (hch : s.manager.channel? d k c = some ch) {ch' : env.channels.Channel}
    (htarget : ops.target ch' = ops.target ch) : Inv ops (s.setChannel d k c ch') := by
  have hset : Inv ops ((s.setChannel d k c ch').send d []) :=
    h.replace hch (fun _ _ => rfl) (by simp [lastTarget, htarget]) (by simp)
  rwa [send_nil] at hset

/-- A channel that changed with a message about its target. -/
theorem retarget (h : Inv ops s) (hch : s.manager.channel? d k c = some ch)
    (ch' : env.channels.Channel) (ms : List (ChannelMessage T))
    (hnone : ∀ c, lastTarget c ms = none)
    (hopen : ∀ c reason, ChannelMessage.closeChannel c reason ∉ ms) :
    Inv ops ((s.setChannel d k c ch').send d (ms ++ [.setTarget c (ops.target ch')])) := by
  refine h.replace hch (fun c' hc => ?_) ?_ ?_
  · rw [lastTarget_append, hnone]
    simp [lastTarget, ChannelMessage.target?, Ne.symm hc]
  · rw [lastTarget_append]
    simp [lastTarget, ChannelMessage.target?]
  · simpa using hopen

/-- A channel with a vardiff state is never told to close. -/
theorem submitShares (h : Inv ops s) (hops : ops.Lawful) (k : ChannelKind) (d : DownstreamId)
    (msg : SubmitShares) : Inv ops (s.handleSubmitShares ops k d msg).1 := by
  unfold handleSubmitShares
  split
  · exact h
  · rename_i ds hds
    split
    · exact h.send d (fun _ => rfl) (by simp)
    · rename_i ch hlookup hnone
      have hch := ChannelManager.channel?_eq_some.mpr ⟨ds, hds, hlookup⟩
      have htracked := h.tracked (Option.isSome_iff_exists.mpr ⟨ch, hch⟩)
      rw [hnone] at htracked
      cases htracked
    · rename_i ch vardiff hlookup _
      have hch := ChannelManager.channel?_eq_some.mpr ⟨ds, hds, hlookup⟩
      exact ((h.keep hch (hops.validateShare ch msg)).setVardiff (.inl rfl)).answer d msg _ _

theorem updateOn (h : Inv ops s) (hops : ops.Lawful) (hch : s.manager.channel? d k c = some ch)
    (nominalHashRate : H) (maximumTarget : T) :
    Inv ops (s.updateOn ops k d c ch nominalHashRate maximumTarget).1 := by
  unfold TargetPool.updateOn
  rcases hupdate : ops.updateChannel ch nominalHashRate (some maximumTarget) with ⟨result, ch'⟩
  cases result with
  | ok => exact h.retarget hch ch' [] (fun _ => rfl) (by simp)
  | error e =>
      cases e with
      | invalidNominalHashrate code =>
          exact h.retarget hch ch' [.updateChannelError c code] (fun _ => rfl) (by simp)
      | other text => exact h.keep hch (hops.updateChannel_error hupdate)

theorem updateChannel (h : Inv ops s) (hops : ops.Lawful) (d : DownstreamId) (c : ChannelId)
    (nominalHashRate : H) (maximumTarget : T) :
    Inv ops (s.handleUpdateChannel ops d c nominalHashRate maximumTarget).1 := by
  unfold handleUpdateChannel
  split
  · exact h
  · rename_i ds hds
    have hopen : ∀ {k ch}, (ds.channels k).lookup c = some ch →
        s.manager.channel? d k c = some ch := fun hlookup =>
      ChannelManager.channel?_eq_some.mpr ⟨ds, hds, hlookup⟩
    split
    · rename_i ch _ hstandard
      exact h.updateOn hops (hopen hstandard) nominalHashRate maximumTarget
    · rename_i ch _ hextended
      exact h.updateOn hops (hopen hextended) nominalHashRate maximumTarget
    · exact h.send d (fun _ => rfl) (by simp)

/-- A failed update leaves the target as it was. -/
theorem retargetTo (h : Inv ops s) (hops : ops.Lawful) (hch : s.manager.channel? d k c = some ch)
    {ch' : env.channels.Channel} (htarget : ops.target ch' = ops.target ch) (newHashrate : H) :
    Inv ops (s.retargetTo ops k d c ch' newHashrate) := by
  unfold TargetPool.retargetTo
  rcases hupdate : ops.updateChannel ch' newHashrate none with ⟨result, ch''⟩
  cases result with
  | ok => exact h.retarget hch ch'' [] (fun _ => rfl) (by simp)
  | error e => exact h.keep hch ((hops.updateChannel_error hupdate).trans htarget)

theorem vardiffOnChannel (h : Inv ops s) (hops : ops.Lawful) (d : DownstreamId) (c : ChannelId)
    (k : ChannelKind) : Inv ops (runVardiffOnChannel ops d c s k) := by
  unfold runVardiffOnChannel
  split
  · rename_i vardiff ch _ hch
    rcases ops.tryVardiff vardiff ch with ⟨result, vardiff⟩
    have hset : Inv ops (s.setVardiff (d, c) (some vardiff)) := h.setVardiff (.inl rfl)
    cases result with
    | error => exact hset
    | ok hashrate =>
        cases hashrate with
        | none => exact hset.keep hch (hops.setStableHashrate ch true)
        | some newHashrate =>
            exact hset.retargetTo hops hch (hops.setStableHashrate ch false) newHashrate
  · exact h

theorem vardiff (h : Inv ops s) (hops : ops.Lawful) (keys : List (DownstreamId × ChannelId)) :
    Inv ops (keys.foldl (runVardiffOn ops) s) := by
  induction keys generalizing s with
  | nil => exact h
  | cons key keys ih =>
      refine ih ?_
      unfold runVardiffOn
      split
      · rename_i hds
        refine h.setVardiff (.inr fun k => ?_)
        rw [ChannelManager.channel?, hds]
        rfl
      · exact (h.vardiffOnChannel hops key.1 key.2 .standard).vardiffOnChannel hops key.1 key.2
          .extended

/-! ### Runs -/

/-- A handler of the manager, unless it ends the manager. -/
theorem managerStep (h : Inv ops s) (law : env.channels.Lawful) (hops : ops.Lawful)
    (hrun : s.manager.running = true) (e : ChannelManager.Event)
    (hafter : (s.manager.step e).running = true) : Inv ops (s.managerStep ops e) := by
  have hnum := ChannelManager.numbered_step law h.numbered e
  have hkind := oneKind_step law h.oneKind h.numbered hrun e
  have hchannel : ∀ {d k c ch'}, (s.manager.step e).channel? d k c = some ch' →
      (∃ ch, s.manager.channel? d k c = some ch ∧ ops.target ch' = ops.target ch) ∨
        opened s.manager (s.manager.step e) e = some (d, c, ch') := by
    intro d k c ch' hch'
    cases hbefore : s.manager.channel? d k c with
    | some ch => exact .inl ⟨ch, rfl, same_target law hops hrun h.numbered hbefore hch'⟩
    | none => exact .inr (opened_of_new law hrun hafter hbefore hch')
  have hretained : ∀ {d k c ch'}, (s.manager.step e).channel? d k c = some ch' →
      { s with manager := s.manager.step e }.retainVardiff.vardiff (d, c) = s.vardiff (d, c) := by
    intro d k c ch' hch'
    obtain ⟨ds, hds, -⟩ := ChannelManager.channel?_eq_some.mp hch'
    show (if ((s.manager.step e).downstreams.lookup d).isSome then s.vardiff (d, c) else none) = _
    rw [hds]
    rfl
  cases hopened : opened s.manager (s.manager.step e) e with
  | none =>
      have hkept : Inv ops { s with manager := s.manager.step e }.retainVardiff := by
        refine ⟨hnum, hkind, ?_, ?_, h.unclosed⟩
        · intro d k c hsome
          obtain ⟨ch', hch'⟩ := Option.isSome_iff_exists.mp hsome
          rcases hchannel hch' with ⟨ch, hch, -⟩ | hnew
          · rw [hretained hch']
            exact h.tracked (Option.isSome_iff_exists.mpr ⟨ch, hch⟩)
          · rw [hopened] at hnew
            cases hnew
        · intro d k c ch' hch'
          rcases hchannel hch' with ⟨ch, hch, htarget⟩ | hnew
          · rw [htarget]
            exact h.announced hch
          · rw [hopened] at hnew
            cases hnew
      unfold TargetPool.managerStep
      dsimp only
      rw [hopened]
      split
      · exact hkept.setVardiff (.inr fun k => closed_channel k hrun)
      · exact hkept
      · rename_i heq
        cases heq
  | some new =>
      obtain ⟨d₀, c₀, ch₀⟩ := new
      obtain ⟨k₀, msg, allocated, now, ds₀, rfl, hds₀, rfl⟩ := opened_cases hopened
      -- the id of the new channel is above those of the old ones
      have hfresh : ∀ {k c ch}, s.manager.channel? d₀ k c = some ch → c ≠ ds₀.channelIdFactory := by
        intro k c ch hch
        obtain ⟨ds, hds, hlookup⟩ := ChannelManager.channel?_eq_some.mp hch
        obtain rfl := Option.some.inj (hds.symm.trans hds₀)
        exact Nat.ne_of_lt (h.numbered.channel d₀ ds k c ch hds hlookup)
      unfold TargetPool.managerStep
      dsimp only
      rw [hopened]
      refine ⟨hnum, hkind, ?_, ?_, ?_⟩
      · intro d k c hsome
        obtain ⟨ch', hch'⟩ := Option.isSome_iff_exists.mp hsome
        rw [send_vardiff]
        rcases hchannel hch' with ⟨ch, hch, -⟩ | hnew
        · refine setVardiff_isSome ?_
          rw [hretained hch']
          exact h.tracked (Option.isSome_iff_exists.mpr ⟨ch, hch⟩)
        · rw [hopened] at hnew
          cases hnew
          rw [setVardiff_self]
          rfl
      · intro d k c ch' hch'
        rcases hchannel hch' with ⟨ch, hch, htarget⟩ | hnew
        · rw [htarget]
          by_cases hd : d = d₀
          · subst hd
            have hc := Ne.symm (hfresh hch)
            rw [send_sent_self, lastTarget_append]
            have hnone : lastTarget c
                [.openMiningChannelSuccess ds₀.channelIdFactory (ops.target ch₀)] = none := by
              simp [lastTarget, ChannelMessage.target?, hc]
            rw [hnone, Option.none_or]
            exact h.announced hch
          · rw [send_sent_of_ne _ hd]
            exact h.announced hch
        · rw [hopened] at hnew
          cases hnew
          rw [send_sent_self, lastTarget_append]
          simp [lastTarget, ChannelMessage.target?]
      · intro d c reason hmem
        rcases mem_send hmem with hold | hnew
        · exact h.unclosed d c reason hold
        · simp at hnew

end Inv

/-- No share is ever answered with a `CloseChannel`, and the invariant holds while the manager
runs. -/
structure Sound (ops : TargetOps env V H T) (s : TargetPool env V T) : Prop where
  inv : s.manager.running = true → Inv ops s
  unclosed : ∀ d c reason, ChannelMessage.closeChannel c reason ∉ s.sent d

theorem sound_initial (ops : TargetOps env V H T) (config : ChannelManager.Config)
    (outputs : List Consensus.TxOut) :
    Sound ops (initial (ChannelManager.initial config outputs) : TargetPool env V T) where
  inv _ :=
    { numbered := ChannelManager.numbered_initial config outputs
      oneKind := fun _ _ _ _ h => nomatch h
      tracked := fun h => nomatch h
      announced := fun h => nomatch h
      unclosed := fun _ _ _ h => nomatch h }
  unclosed := fun _ _ _ h => nomatch h

theorem managerStep_manager (ops : TargetOps env V H T) (s : TargetPool env V T)
    (e : ChannelManager.Event) : (s.managerStep ops e).manager = s.manager.step e := by
  unfold managerStep
  dsimp only
  split <;> rfl

theorem managerStep_sent (ops : TargetOps env V H T) (s : TargetPool env V T)
    (e : ChannelManager.Event) {d : DownstreamId} {c : ChannelId} {reason : String}
    (h : .closeChannel c reason ∈ (s.managerStep ops e).sent d) :
    .closeChannel c reason ∈ s.sent d := by
  unfold managerStep at h
  dsimp only at h
  split at h
  · exact h
  · exact h
  · rcases mem_send h with hold | hnew
    · exact hold
    · simp at hnew

theorem sound_step (law : env.channels.Lawful) {ops : TargetOps env V H T} (hops : ops.Lawful)
    (s : TargetPool env V T) (e : Event H T) (h : Sound ops s) : Sound ops (s.step ops e) := by
  unfold step
  split
  · exact h
  · rename_i hrun
    have hrun : s.manager.running = true := by simpa using hrun
    have hinv := h.inv hrun
    have hsettle : ∀ {r : TargetPool env V T × Option PoolError}, Inv ops r.1 →
        Sound ops (settle r) := fun hr => ⟨fun _ => hr.settle, hr.settle.unclosed⟩
    cases e with
    | manager e =>
        refine ⟨fun hafter => ?_, fun d c reason hmem =>
          h.unclosed d c reason (managerStep_sent ops s e hmem)⟩
        rw [managerStep_manager] at hafter
        exact hinv.managerStep law hops hrun e hafter
    | submitShares k d msg => exact hsettle (hinv.submitShares hops k d msg)
    | updateChannel d c nominalHashRate maximumTarget =>
        exact hsettle (hinv.updateChannel hops d c nominalHashRate maximumTarget)
    | vardiff keys =>
        have hpass := hinv.vardiff hops keys
        exact ⟨fun _ => hpass, hpass.unclosed⟩

/-- In every run, as long as the manager runs, the last target that was sent for an open channel is
the one its shares are validated with, and the channel has a vardiff state. No share is ever
answered with a `CloseChannel`. -/
theorem targets_announced (law : env.channels.Lawful) {ops : TargetOps env V H T}
    (hops : ops.Lawful) (config : ChannelManager.Config) (outputs : List Consensus.TxOut)
    (es : List (Event H T)) :
    let s := Runs.exec (step ops) (initial (ChannelManager.initial config outputs)) es
    (s.manager.running = true → ∀ d k c ch, s.manager.channel? d k c = some ch →
      lastTarget c (s.sent d) = some (ops.target ch) ∧ (s.vardiff (d, c)).isSome) ∧
    ∀ d c reason, ChannelMessage.closeChannel c reason ∉ s.sent d := by
  have hsound := Runs.exec_invariant (I := Sound ops) (fun s e h => sound_step law hops s e h)
    (sound_initial ops config outputs) es
  refine ⟨fun hrun d k c ch hch => ?_, hsound.unclosed⟩
  have hinv := hsound.inv hrun
  exact ⟨hinv.announced hch, hinv.tracked (Option.isSome_iff_exists.mpr ⟨ch, hch⟩)⟩

/-! ### A channel that is updated -/

section Updated

variable {C : Type} {jobs : JobOps C}

/-- A channel's job methods, with a target that they leave alone. -/
def withTarget (jobs : JobOps C) (T : Type) : JobOps (C × T) where
  onNewTemplate c t o := (jobs.onNewTemplate c.1 t o).map fun c' => (c', c.2)
  onSetNewPrevHash c m := (jobs.onSetNewPrevHash c.1 m).map fun c' => (c', c.2)
  activeJob c := jobs.activeJob c.1
  futureJob c := jobs.futureJob c.1
  chainTip c := jobs.chainTip c.1
  nextJobId c := jobs.nextJobId c.1

/-- A target beside a channel does not change whether it succeeds. -/
theorem map_target_eq_ok {r : Except ChannelError C} {x : T} {c : C × T}
    (h : r.map (fun c => (c, x)) = .ok c) : r = .ok c.1 ∧ c.2 = x := by
  cases r with
  | error => cases h
  | ok =>
      cases h
      exact ⟨rfl, rfl⟩

theorem withTarget_lawful (law : jobs.LawfulChannel) (T : Type) :
    (withTarget jobs T).LawfulChannel where
  onNewTemplate_future h hf := law.onNewTemplate_future (map_target_eq_ok h).1 hf
  onNewTemplate_active h hf := law.onNewTemplate_active (map_target_eq_ok h).1 hf
  onSetNewPrevHash_tip h := law.onSetNewPrevHash_tip (map_target_eq_ok h).1
  onSetNewPrevHash_future h := law.onSetNewPrevHash_future (map_target_eq_ok h).1
  onSetNewPrevHash_activates h hj := law.onSetNewPrevHash_activates (map_target_eq_ok h).1 hj
  onSetNewPrevHash_unmatched h hn := law.onSetNewPrevHash_unmatched (map_target_eq_ok h).1 hn

/-- A target with as many shares a minute at every hashrate. -/
def targetFor (nominalHashRate : UInt32) : UInt32 :=
  0xffffffff / nominalHashRate

/-- The reference channels with targets. -/
def targetChannels : ChannelsSv2 where
  Channel := Reference.Store × UInt32
  Group := Reference.Group
  newStandard _ msg _ := .ok (.empty, targetFor msg.nominalHashRate)
  newExtended _ msg _ := .ok (.empty, targetFor msg.nominalHashRate)
  newGroup := Reference.channels.newGroup
  channel := withTarget Reference.storeOps UInt32
  group := Reference.groupOps
  onGroupChannelJob c j := .ok (c.1.onGroupChannelJob j, c.2)
  onSetCustomMiningJob c m :=
    let r := c.1.onSetCustomMiningJob m
    .ok (r.1, r.2, c.2)
  members := Reference.channels.members
  addChannelId := Reference.channels.addChannelId
  removeChannelId := Reference.channels.removeChannelId
  groupChannelId := Reference.channels.groupChannelId

theorem targetChannels_lawful : targetChannels.Lawful where
  channel := withTarget_lawful Reference.storeOps_lawful UInt32
  group := Reference.groupOps_lawful
  newStandard := by
    intro i m p c h
    cases h
    exact ⟨rfl, fun _ => rfl, rfl⟩
  newExtended := by
    intro i m p c h
    cases h
    exact ⟨rfl, fun _ => rfl, rfl⟩
  newGroup := Reference.channels_lawful.newGroup
  onGroupChannelJob_future := by
    intro c c' j t h ht hn
    cases h
    exact Reference.channels_lawful.onGroupChannelJob_future (c := c.1) rfl ht hn
  onGroupChannelJob_active := by
    intro c c' j h hn
    cases h
    exact Reference.channels_lawful.onGroupChannelJob_active (c := c.1) rfl hn
  onSetCustomMiningJob := by
    intro c c' m i h
    cases h
    exact Reference.channels_lawful.onSetCustomMiningJob (c := c.1) rfl
  members_onNewTemplate := Reference.channels_lawful.members_onNewTemplate
  members_onSetNewPrevHash := Reference.channels_lawful.members_onSetNewPrevHash
  addChannelId := Reference.channels_lawful.addChannelId
  removeChannelId := Reference.channels_lawful.removeChannelId

def targetEnv : Env :=
  { Reference.env with channels := targetChannels }

/-- A share for the active job is valid, and vardiff counts shares. -/
def targetOps : TargetOps targetEnv Nat UInt32 UInt32 where
  target ch := ch.2
  updateChannel ch nominalHashRate _ :=
    if nominalHashRate = 0 then
      (.error (.invalidNominalHashrate "invalid-nominal-hashrate"), ch)
    else (.ok (), (ch.1, targetFor nominalHashRate))
  setStableHashrate ch _ := ch
  validateShare ch msg :=
    (if ch.1.active.any fun job => job.jobId = msg.jobId then .ok (.valid [])
      else .error (.invalidJobId "invalid-job-id"), ch)
  accounting _ := ⟨false, 0, 0, 0⟩
  newVardiff := 0
  tryVardiff shares _ := (.ok (if shares = 0 then none else some 40), 0)
  incrementShares shares := shares + 1

theorem targetOps_lawful : targetOps.Lawful where
  onNewTemplate {ch _ t o} h :=
    (map_target_eq_ok (r := Reference.storeOps.onNewTemplate ch.1 t o) h).2
  onSetNewPrevHash h := (map_target_eq_ok h).2
  onGroupChannelJob h := by
    cases h
    rfl
  onSetCustomMiningJob h := by
    cases h
    rfl
  validateShare _ _ := rfl
  setStableHashrate _ _ := rfl
  updateChannel_error {ch ch' nominalHashRate t e} h := by
    simp only [targetOps] at h
    split at h
    · cases h
      rfl
    · cases h

/-- A channel is opened, its miner updates it, submits a share, and vardiff sets another target. -/
def retargeted : List (Event UInt32 UInt32) :=
  [.manager (.newTemplate (Reference.template 1 true 5000000000) (fun _ => .error "unreachable")
      fun _ _ => 0),
    .manager (.setNewPrevHash (Reference.prevHash 1 1)), .manager (.connect false false),
    .manager (.openChannel .extended 1 { Reference.openRequest with nominalHashRate := 10 }
      (.ok [1, 2, 3, 4]) 0),
    .updateChannel 1 2 20 0xffffffff, .submitShares .extended 1 (TelemetryPool.shareFor 1),
    .vardiff [(1, 2)]]

theorem targets_announced_retargeted :
    let s := Runs.exec (step targetOps)
      (initial (.initial (Reference.config none) [⟨0, Reference.operatorScript⟩])) retargeted
    (s.manager.channel? 1 .extended 2).map targetOps.target = some (targetFor 40) ∧
      lastTarget 2 (s.sent 1) = some (targetFor 40) := by
  intro s
  have hrun : s.manager.running = true := by decide +kernel
  have htarget : (s.manager.channel? 1 .extended 2).map targetOps.target = some (targetFor 40) := by
    decide +kernel
  obtain ⟨ch, hch, heq⟩ := Option.map_eq_some_iff.mp htarget
  have h := (targets_announced targetChannels_lawful targetOps_lawful (Reference.config none)
    [⟨0, Reference.operatorScript⟩] retargeted).1 hrun 1 .extended 2 ch hch
  exact ⟨htarget, heq ▸ h.1⟩

end Updated

end TargetPool

end GridPoolSv2.Pool
