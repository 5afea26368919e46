import GridPoolSv2.Pool.FeeRotation
import GridPoolSv2.Pool.Telemetry

/-!
# Pool.FeeWork: for whom the work of a share was done

An accepted share is recorded with a flag that says whether its work was fee work, that is
whether slot zero of its job pays the operator. A share names its job: the active one, or a
past one that was active before a fee rotation or a template update on the same tip. The
proof of a share is built from the job it names; the flag is taken from the active job, in
the handlers of both kinds of channels and for shares and blocks alike.

* `ShareOps` is what the handlers use of a channel besides its jobs, and `submitShares` the
  part of them that records.
* `flagRight_iff` says for any share when its flag is right: slot zero of the active job
  pays the operator exactly if that of the named job does.
* `flags_right_iff` is the same for all shares of a run.
-/

namespace GridPoolSv2.Pool

open Consensus (Bytes TxOut)
open Payout (Text)
open Runs ChannelManager

variable {env : Env} {F : Type}

/-! ### Fee jobs -/

/-- Slot zero pays a script. -/
def PaysFirst (script : Bytes) (outputs : List TxOut) : Prop :=
  outputs.head?.map (·.scriptPubkey) = some script

/-- `GridPoolClient::is_fee_job`. -/
def GridPoolClient.isFeeJob (read : AddressReader) (g : GridPoolClient) (outputs : List TxOut)
    (payout : ChannelPayout) : Bool :=
  match g.config.operatorFeeAddress with
  | none => false
  | some operator =>
      if operator = payout.payoutAddress then false
      else
        match outputs with
        | [] => false
        | first :: _ =>
            match parseAddress read operator g.work.bitcoinNetwork with
            | .ok script => first.scriptPubkey = script
            | .error _ => false

/-- The operator, if it is not the channel's own payout address, has this script. -/
def GridPoolClient.OperatorScript (read : AddressReader) (g : GridPoolClient)
    (payout : ChannelPayout) (script : Bytes) : Prop :=
  ∃ operator, g.config.operatorFeeAddress = some operator ∧ operator ≠ payout.payoutAddress ∧
    parseAddress read operator g.work.bitcoinNetwork = .ok script

/-- A fee job pays the operator in slot zero. -/
theorem isFeeJob_iff (read : AddressReader) (g : GridPoolClient) (outputs : List TxOut)
    (payout : ChannelPayout) :
    g.isFeeJob read outputs payout = true ↔
      ∃ script, g.OperatorScript read payout script ∧ PaysFirst script outputs := by
  unfold GridPoolClient.isFeeJob GridPoolClient.OperatorScript PaysFirst
  cases hoperator : g.config.operatorFeeAddress with
  | none => simp
  | some operator =>
      by_cases hown : operator = payout.payoutAddress
      · simp [hown]
      · cases outputs with
        | nil => simp
        | cons first rest =>
            cases hparse : parseAddress read operator g.work.bitcoinNetwork with
            | error e => simp [hown, hparse]
            | ok script => simp [hown, hparse, eq_comm]

/-! ### Shares -/

/-- `SubmitSharesStandard` and `SubmitSharesExtended`; the extranonce is empty for the former. -/
structure SubmitShares where
  channelId : ChannelId
  sequenceNumber : UInt32
  jobId : JobId
  nonce : UInt32
  ntime : UInt32
  version : UInt32
  extranonce : Bytes
  deriving Repr, DecidableEq

/-- `ShareValidationResult`, with the hash of the share. -/
inductive ShareValidationResult where
  | valid (shareHash : Bytes)
  | blockFound (shareHash : Bytes)
  deriving Repr, DecidableEq

def ShareValidationResult.shareHash : ShareValidationResult → Bytes
  | .valid shareHash | .blockFound shareHash => shareHash

/-- What the handlers of shares use of `channels_sv2`: `get_past_job`, `validate_share`, the
difficulty of a channel's target and that of a hash. -/
structure ShareOps (env : Env) (F : Type) where
  pastJob : env.channels.Channel → JobId → Option Job
  validateShare : env.channels.Channel → SubmitShares →
    Except String ShareValidationResult × env.channels.Channel
  targetDifficulty : env.channels.Channel → F
  hashDifficulty : Bytes → F

namespace ShareOps

/-- The job a share names, as the proof builders look it up. -/
def namedJob (ops : ShareOps env F) (ch : env.channels.Channel) (jobId : JobId) : Option Job :=
  ((env.channels.channel.activeJob ch).filter fun job => job.jobId = jobId).or
    (ops.pastJob ch jobId)

/-- Validation accounts the share and changes no job; only shares for a known job are accepted. -/
structure Lawful (ops : ShareOps env F) : Prop where
  activeJob : ∀ ch msg, env.channels.channel.activeJob (ops.validateShare ch msg).2 =
    env.channels.channel.activeJob ch
  named : ∀ ch msg r, (ops.validateShare ch msg).1 = .ok r →
    ∃ job, ops.namedJob ch msg.jobId = some job

/-- What is recorded about a share: the flag is that of the active job. -/
def verdict (ops : ShareOps env F) (g : GridPoolClient) (payout : ChannelPayout)
    (ch : env.channels.Channel) : Except String ShareValidationResult → ShareVerdict F
  | .error _ => .rejected
  | .ok result =>
      let feeWork := ((env.channels.channel.activeJob ch).map fun job =>
        g.isFeeJob env.readAddress job.coinbaseOutputs payout).getD false
      .accepted (ops.targetDifficulty ch) (ops.hashDifficulty result.shareHash) feeWork

end ShareOps

namespace TelemetryPool

variable [Zero F] [Add F] [Max F]

/-- `handle_submit_shares_standard` and `handle_submit_shares_extended` up to their answer.
`tracked` says that the channel is in `vardiff`; else it is closed. -/
def submitShares (ops : ShareOps env F) (s : TelemetryPool env F) (k : ChannelKind)
    (d : DownstreamId) (msg : SubmitShares) (tracked : Bool) (now : Nat) : TelemetryPool env F :=
  match s.manager.downstreams.lookup d with
  | none => s
  | some ds =>
      match (ds.channels k).lookup msg.channelId with
      | none => s
      | some ch =>
          if !tracked then s
          else
            let (result, ch) := ops.validateShare ch msg
            let s := { s with
              manager := s.manager.setDownstream d (ds.insertChannel k msg.channelId ch) }
            match s.manager.gridpool, s.manager.gridpoolChannels (d, msg.channelId) with
            | some g, some payout =>
                s.handleShare k d msg.channelId (ops.verdict g payout ch result) now
            | _, _ => s

/-- A share that is accepted on a channel with a GridPool payout. -/
structure Accepts (ops : ShareOps env F) (s : TelemetryPool env F) (k : ChannelKind)
    (d : DownstreamId) (msg : SubmitShares) (tracked : Bool) (ch : env.channels.Channel)
    (g : GridPoolClient) (payout : ChannelPayout) : Prop where
  tracked : tracked = true
  channel : s.manager.channel? d k msg.channelId = some ch
  gridpool : s.manager.gridpool = some g
  payout : s.manager.gridpoolChannels (d, msg.channelId) = some payout
  valid : ∃ result, (ops.validateShare ch msg).1 = .ok result

/-- The flag of an accepted share says whether slot zero of the job it names pays the operator. -/
def FlagRight (ops : ShareOps env F) (s : TelemetryPool env F) (k : ChannelKind)
    (d : DownstreamId) (msg : SubmitShares) (tracked : Bool) (now : Nat) : Prop :=
  ∀ ch g payout, Accepts ops s k d msg tracked ch g payout →
    ∃ x job, (s.submitShares ops k d msg tracked now).history = x :: s.history ∧
      x.channelId = msg.channelId ∧ x.accepted = true ∧
      ops.namedJob ch msg.jobId = some job ∧
      (x.feeWork = true ↔ ∃ script, g.OperatorScript env.readAddress payout script ∧
        PaysFirst script job.coinbaseOutputs)

/-- If there is an operator's script, slot zero of the active job and that of the named job both pay
it, or neither does. -/
def SameSlotZero (ops : ShareOps env F) (s : TelemetryPool env F) (k : ChannelKind)
    (d : DownstreamId) (msg : SubmitShares) (tracked : Bool) : Prop :=
  ∀ ch g payout, Accepts ops s k d msg tracked ch g payout →
    ∀ script, g.OperatorScript env.readAddress payout script →
      ∀ job, ops.namedJob ch msg.jobId = some job →
        ((∃ active, env.channels.channel.activeJob ch = some active ∧
            PaysFirst script active.coinbaseOutputs) ↔ PaysFirst script job.coinbaseOutputs)

theorem handleShare_history {s : TelemetryPool env F} {k : ChannelKind} {d : DownstreamId}
    {c : ChannelId} {ch : env.channels.Channel} {g : GridPoolClient} {payout : ChannelPayout}
    (hch : s.manager.channel? d k c = some ch) (hg : s.manager.gridpool = some g)
    (hpayout : s.manager.gridpoolChannels (d, c) = some payout) (verdict : ShareVerdict F)
    (now : Nat) :
    (s.handleShare k d c verdict now).history =
      { delta c payout verdict with downstream := d, now := now } :: s.history := by
  unfold handleShare
  simp only [hch, hg, hpayout]

/-- The one share that is recorded, and its flag. -/
theorem submitShares_history {ops : ShareOps env F} (law : ops.Lawful) {s : TelemetryPool env F}
    {k : ChannelKind} {d : DownstreamId} {msg : SubmitShares} {tracked : Bool}
    {ch : env.channels.Channel} {g : GridPoolClient} {payout : ChannelPayout}
    (h : Accepts ops s k d msg tracked ch g payout) (now : Nat) :
    ∃ x, (s.submitShares ops k d msg tracked now).history = x :: s.history ∧
      x.channelId = msg.channelId ∧ x.accepted = true ∧
      (x.feeWork = true ↔ ∃ active, env.channels.channel.activeJob ch = some active ∧
        g.isFeeJob env.readAddress active.coinbaseOutputs payout = true) := by
  obtain ⟨rfl, hch, hg, hpayout, result, hvalid⟩ := h
  obtain ⟨ds, hds, hlookup⟩ := channel?_eq_some.mp hch
  have hactive := law.activeJob ch msg
  unfold submitShares
  simp only [hds, hlookup]
  rcases hr : ops.validateShare ch msg with ⟨verdict, ch'⟩
  rw [hr] at hvalid hactive
  obtain rfl : verdict = .ok result := hvalid
  have hchannel : (s.manager.setDownstream d (ds.insertChannel k msg.channelId ch')).channel? d k
      msg.channelId = some ch' := by
    rw [channel?_eq_some]
    refine ⟨ds.insertChannel k msg.channelId ch', AList.lookup_insert _, ?_⟩
    simp [Downstream.insertChannel]
  have hg' : (s.manager.setDownstream d (ds.insertChannel k msg.channelId ch')).gridpool = some g :=
    hg
  have hpayout' : (s.manager.setDownstream d
      (ds.insertChannel k msg.channelId ch')).gridpoolChannels (d, msg.channelId) = some payout :=
    hpayout
  simp only [Bool.not_true, Bool.false_eq_true, if_false, hr, hg', hpayout']
  -- the share is accounted in the channel before it is recorded, and its active job is as it was
  have hhistory := handleShare_history
    (s := { s with manager := s.manager.setDownstream d (ds.insertChannel k msg.channelId ch') })
    hchannel hg' hpayout' (ops.verdict g payout ch' (.ok result)) now
  refine ⟨_, hhistory, rfl, rfl, ?_⟩
  show ((env.channels.channel.activeJob ch').map _).getD false = true ↔ _
  rw [show env.channels.channel.activeJob ch' = env.channels.channel.activeJob ch from hactive]
  cases env.channels.channel.activeJob ch with
  | none => simp
  | some active => simp

/-- For every state and every share: the flag is right exactly if slot zero of the active job pays
the operator like that of the named job. -/
theorem flagRight_iff {ops : ShareOps env F} (law : ops.Lawful) (s : TelemetryPool env F)
    (k : ChannelKind) (d : DownstreamId) (msg : SubmitShares) (tracked : Bool) (now : Nat) :
    FlagRight ops s k d msg tracked now ↔ SameSlotZero ops s k d msg tracked := by
  refine forall_congr' fun ch => forall_congr' fun g => forall_congr' fun payout =>
    forall_congr' fun h => ?_
  obtain ⟨x, hx, hchannelId, haccepted, hflag⟩ := submitShares_history law h now
  obtain ⟨result, hvalid⟩ := h.valid
  obtain ⟨job, hjob⟩ := law.named ch msg result hvalid
  simp only [isFeeJob_iff] at hflag
  -- the operator has at most one script
  have hunique : ∀ script script', g.OperatorScript env.readAddress payout script →
      g.OperatorScript env.readAddress payout script' → script = script' := by
    intro script script' hs hs'
    obtain ⟨operator, hoperator, _, hparse⟩ := hs
    obtain ⟨operator', hoperator', _, hparse'⟩ := hs'
    obtain rfl := Option.some.inj (hoperator.symm.trans hoperator')
    exact Except.ok.inj (hparse.symm.trans hparse')
  constructor
  · intro hright script hscript job' hjob'
    obtain ⟨y, job'', hy, _, _, hjob'', hflag'⟩ := hright
    obtain rfl := Option.some.inj (hjob'.symm.trans hjob'')
    obtain rfl := (List.cons.inj (hx.symm.trans hy)).1
    constructor
    · intro hactive
      obtain ⟨active, hactive, hpays⟩ := hactive
      obtain ⟨script', hscript', hpays'⟩ :=
        hflag'.mp (hflag.mpr ⟨active, hactive, script, hscript, hpays⟩)
      rwa [hunique script script' hscript hscript']
    · intro hpays
      obtain ⟨active, hactive, script', hscript', hpays'⟩ :=
        hflag.mp (hflag'.mpr ⟨script, hscript, hpays⟩)
      exact ⟨active, hactive, by rwa [hunique script script' hscript hscript']⟩
  · intro hsame
    refine ⟨x, job, hx, hchannelId, haccepted, hjob, hflag.trans ?_⟩
    constructor
    · intro hactive
      obtain ⟨active, hactive, script, hscript, hpays⟩ := hactive
      exact ⟨script, hscript, (hsame script hscript job hjob).mp ⟨active, hactive, hpays⟩⟩
    · intro hnamed
      obtain ⟨script, hscript, hpays⟩ := hnamed
      obtain ⟨active, hactive, hpays'⟩ := (hsame script hscript job hjob).mpr hpays
      exact ⟨active, hactive, script, hscript, hpays'⟩

omit [Zero F] [Add F] [Max F] in
/-- A share for the active job has the right flag. -/
theorem sameSlotZero_of_active {ops : ShareOps env F} {s : TelemetryPool env F} {k : ChannelKind}
    {d : DownstreamId} {msg : SubmitShares} (tracked : Bool)
    (h : ∀ ch, s.manager.channel? d k msg.channelId = some ch →
      ∃ active, env.channels.channel.activeJob ch = some active ∧ active.jobId = msg.jobId) :
    SameSlotZero ops s k d msg tracked := by
  intro ch g payout haccepts script _ job hjob
  obtain ⟨active, hactive, hid⟩ := h ch haccepts.channel
  have hnamed : job = active := by
    simp [ShareOps.namedJob, hactive, hid] at hjob
    exact hjob.1.symm
  simp [hactive, hnamed]

/-! ### Runs -/

/-- The events of a pool whose shares are handled. -/
inductive ShareEvent (F : Type) where
  | manage (e : ChannelManager.Event)
  | submit (k : ChannelKind) (d : DownstreamId) (msg : SubmitShares) (tracked : Bool) (now : Nat)
  | flush
  | answer (i : Nat) (result : PostResult)

def shareStep (ops : ShareOps env F) (s : TelemetryPool env F) : ShareEvent F → TelemetryPool env F
  | .manage e => s.step (.manage e)
  | .submit k d msg tracked now => s.submitShares ops k d msg tracked now
  | .flush => s.step .flush
  | .answer i result => s.step (.answer i result)

/-- If the event is a share, its flag is right. -/
def EventFlagRight (ops : ShareOps env F) (s : TelemetryPool env F) : ShareEvent F → Prop
  | .submit k d msg tracked now => FlagRight ops s k d msg tracked now
  | _ => True

/-- If the event is a share, slot zero of the active job pays the operator like that of its own
job. -/
def EventSameSlotZero (ops : ShareOps env F) (s : TelemetryPool env F) : ShareEvent F → Prop
  | .submit k d msg tracked _ => SameSlotZero ops s k d msg tracked
  | _ => True

/-- For every event: the flag of a share is right exactly if the two jobs agree on slot zero. -/
theorem eventFlagRight_iff {ops : ShareOps env F} (law : ops.Lawful) (s : TelemetryPool env F)
    (e : ShareEvent F) : EventFlagRight ops s e ↔ EventSameSlotZero ops s e := by
  cases e with
  | submit k d msg tracked now => exact flagRight_iff law s k d msg tracked now
  | manage e => exact Iff.rfl
  | flush => exact Iff.rfl
  | answer i result => exact Iff.rfl

/-- In every run, from any state: the flags of all accepted shares are right exactly if slot zero of
the active job pays the operator like that of the named job whenever a share is accepted. -/
theorem flags_right_iff {ops : ShareOps env F} (law : ops.Lawful) (s : TelemetryPool env F)
    (es : List (ShareEvent F)) :
    Along (shareStep ops) (EventFlagRight ops) s es ↔
      Along (shareStep ops) (EventSameSlotZero ops) s es :=
  ⟨Along.mono fun s e => (eventFlagRight_iff law s e).mp,
    Along.mono fun s e => (eventFlagRight_iff law s e).mpr⟩

/-! ### A share after a rotation -/

/-- A job store with the jobs that were active on the present tip. -/
structure PastStore where
  store : Reference.Store
  past : List Job
  deriving DecidableEq

/-- The jobs that are past once another one is active. -/
def PastStore.retired (s : PastStore) : List Job :=
  s.store.active.toList ++ s.past

def pastOps : JobOps PastStore where
  onNewTemplate s t o := .ok
    ⟨s.store.onNewTemplate t o, if t.futureTemplate then s.past else s.retired⟩
  onSetNewPrevHash s m := (s.store.onSetNewPrevHash m).map fun store => ⟨store, []⟩
  activeJob s := s.store.active
  futureJob s t := s.store.future.lookup t
  chainTip s := s.store.tip.map (·.1)
  nextJobId s := s.store.nextJobId

/-- The reference channels with past jobs. -/
def pastChannels : ChannelsSv2 where
  Channel := PastStore
  Group := Reference.Group
  newStandard _ _ _ := .ok ⟨.empty, []⟩
  newExtended _ _ _ := .ok ⟨.empty, []⟩
  newGroup i := .ok ⟨i, [], .empty⟩
  channel := pastOps
  group := Reference.groupOps
  onGroupChannelJob s j := .ok
    ⟨s.store.onGroupChannelJob j, if j.minNtime.isNone then s.past else s.retired⟩
  onSetCustomMiningJob s m :=
    let r := s.store.onSetCustomMiningJob m
    .ok (r.1, ⟨r.2, s.retired⟩)
  members := Reference.channels.members
  addChannelId := Reference.channels.addChannelId
  removeChannelId := Reference.channels.removeChannelId
  groupChannelId := Reference.channels.groupChannelId

def pastEnv : Env :=
  { Reference.env with channels := pastChannels }

/-- Every share for a known job is accepted, and all difficulties are one. -/
def pastShareOps : ShareOps pastEnv Nat where
  pastJob s i := s.past.find? fun job => job.jobId = i
  validateShare s msg :=
    let known := ((s.store.active.filter fun job => job.jobId = msg.jobId).or
      (s.past.find? fun job => job.jobId = msg.jobId)).isSome
    (if known then .ok (.valid []) else .error "invalid-job-id", s)
  targetDifficulty _ := 1
  hashDifficulty _ := 1

/-- The laws hold for the channels of the run. -/
theorem pastShareOps_lawful : pastShareOps.Lawful where
  activeJob := fun _ _ => rfl
  named := by
    intro ch msg r h
    simp only [pastShareOps] at h
    split at h
    · rename_i hknown
      exact Option.isSome_iff_exists.mp hknown
    · cases h

/-- The manager of a pool with an operator fee. -/
def pastManager : ChannelManager pastEnv.channels :=
  .initial (Reference.config (some feeClient))
    [⟨1, Reference.fallbackScript⟩, ⟨100, Reference.operatorScript⟩]

/-- A channel is opened outside the fee window of its address, and the fee tick in the window gives
it a second job. -/
def rotated : List (ShareEvent Nat) :=
  [.manage (.newTemplate (Reference.template 1 true 5000000000) (fun _ => .error "unreachable")
      fun _ _ => 0),
    .manage (.setNewPrevHash (Reference.prevHash 1 1)), .manage (.connect false false),
    .manage (.openChannel .extended 1 Reference.openRequest (.ok [1, 2, 3, 4]) 0),
    .manage (.feeTick 1370 fun _ _ => 1370)]

/-- A share for the job with this id. -/
def shareFor (jobId : JobId) : SubmitShares where
  channelId := 2
  sequenceNumber := 1
  jobId := jobId
  nonce := 0
  ntime := 1700000000
  version := 0x20000000
  extranonce := [0, 0, 0, 0]

def afterRotation : TelemetryPool pastEnv Nat :=
  exec (shareStep pastShareOps) (initial pastManager) rotated

theorem start_pastManager :
    start pastEnv (Reference.config (some feeClient)) 0 = .ok pastManager := by
  have houtputs : feeClient.constraintOutputs pastEnv.readAddress 0 =
      .ok [⟨1, Reference.fallbackScript⟩, ⟨100, Reference.operatorScript⟩] := by
    decide +kernel
  simp only [ChannelManager.start, Reference.config, houtputs]
  rfl

/-- The run up to the share, and the share. -/
theorem flags_right_iff_rotated :
    Along (shareStep pastShareOps) (EventFlagRight pastShareOps) (initial pastManager)
        (rotated ++ [.submit .extended 1 (shareFor 2) true 0]) ↔
      Along (shareStep pastShareOps) (EventSameSlotZero pastShareOps) (initial pastManager)
        (rotated ++ [.submit .extended 1 (shareFor 2) true 0]) :=
  flags_right_iff pastShareOps_lawful _ _

/-- The share for the first job is valid after the rotation and flagged, and that job pays the
miner. -/
theorem afterRotation_spec :
    (afterRotation.manager.channel? 1 .extended (shareFor 1).channelId).isSome = true ∧
      afterRotation.manager.gridpool = some feeClient ∧
      (afterRotation.manager.gridpoolChannels (1, (shareFor 1).channelId)).isSome = true ∧
      (afterRotation.manager.channel? 1 .extended (shareFor 1).channelId).map (fun ch =>
        (pastShareOps.validateShare ch (shareFor 1)).1.toOption) = some (some (.valid [])) ∧
      (afterRotation.submitShares pastShareOps .extended 1 (shareFor 1) true
        0).history.head?.map (·.feeWork) = some true ∧
      (afterRotation.manager.channel? 1 .extended (shareFor 1).channelId).map (fun ch =>
        (pastShareOps.namedJob ch (shareFor 1).jobId).map fun job =>
          job.coinbaseOutputs.head?.map (·.scriptPubkey)) =
          some (some (some Reference.fallbackScript)) := by
  decide +kernel

/-- The first job pays the miner, and a share for it after the rotation is fee work. -/
theorem past_share_is_fee_work :
    start pastEnv (Reference.config (some feeClient)) 0 = .ok pastManager ∧
      ¬ FlagRight pastShareOps afterRotation .extended 1 (shareFor 1) true 0 := by
  refine ⟨start_pastManager, fun h => ?_⟩
  obtain ⟨hchannel, hgridpool, hpayout, hvalid, hflagged, hnamed⟩ := afterRotation_spec
  have hoperator : parseAddress pastEnv.readAddress Reference.operatorAddress "mainnet".toList =
      .ok Reference.operatorScript := by decide +kernel
  obtain ⟨ch, hch⟩ := Option.isSome_iff_exists.mp hchannel
  obtain ⟨payout, hpay⟩ := Option.isSome_iff_exists.mp hpayout
  rw [hch] at hvalid hnamed
  have hok : (pastShareOps.validateShare ch (shareFor 1)).1 = .ok (.valid []) := by
    cases hres : (pastShareOps.validateShare ch (shareFor 1)).1 with
    | error e => simp [hres, Except.toOption] at hvalid
    | ok result => simpa [hres, Except.toOption] using hvalid
  have haccepts : Accepts pastShareOps afterRotation .extended 1 (shareFor 1) true ch feeClient
      payout :=
    ⟨rfl, hch, hgridpool, hpay, _, hok⟩
  obtain ⟨x, job, hx, _, _, hjob, hflag⟩ := h ch feeClient payout haccepts
  generalize afterRotation.submitShares pastShareOps .extended 1 (shareFor 1) true 0 = after at *
  rw [hx] at hflagged
  obtain ⟨script, hscript, hpays⟩ := hflag.mp (Option.some.inj hflagged)
  obtain ⟨operator, hconfigured, _, hparse⟩ := hscript
  -- the operator's script would be that of the first job, which pays the miner
  rw [Option.map_some, hjob] at hnamed
  obtain rfl := Option.some.inj (hpays.symm.trans (Option.some.inj (Option.some.inj hnamed)))
  obtain rfl := Option.some.inj hconfigured
  exact absurd (Except.ok.inj (hparse.symm.trans hoperator)) (by decide)

end TelemetryPool

end GridPoolSv2.Pool
