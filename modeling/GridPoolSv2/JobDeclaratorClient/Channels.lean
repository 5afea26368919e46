import GridPoolSv2.Lib.Consensus
import Mathlib.Data.List.Infix

/-!
# JobDeclaratorClient.Channels: the channel types the job declarator client works with

The client keeps its jobs in the server channels of `channels_sv2`, checks shares for the
pool with the client channel of the same crate, builds custom jobs with its `JobFactory`
and takes extranonce prefixes from its `ExtranonceAllocator`. The crate is outside this
repository, so it is a **parameter**: `ChannelsSv2` lists what the client calls and
`ChannelsSv2.Lawful` what it relies on:

* a job keeps the template, the coinbase outputs and the **extranonce prefix** it was
  built with; the outputs of the template follow the given ones;
* a channel's prefix changes in `set_extranonce_prefix` only, which leaves its jobs alone;
* a validated share names a job the channel holds;
* an allocated prefix starts with the upstream prefix of the allocator, and a standard
  channel's prefix takes up the whole extranonce.

Coinbase outputs travel as bytes between the parties; where the crate reads or writes
them, the model has the list of outputs.

The client relies on less than the pool does. What single results ask for in addition (when a
group takes a previous hash, which jobs are future ones) is stated where it is used, as a law
of its own: `KeysFutureJobs` in `JobDeclaratorClient.OpenWindow`, `CountsJobs` in
`JobDeclaratorClient.JobTemplates`.
-/

namespace GridPoolSv2.JobDeclaratorClient

open Consensus (Bytes TxOut)

abbrev DownstreamId := Nat
abbrev ChannelId := Nat
abbrev TemplateId := Nat
abbrev JobId := Nat
abbrev RequestId := UInt32

/-- `template_distribution_sv2::NewTemplate`, with the fields the client and its channels read. -/
structure NewTemplate where
  templateId : TemplateId
  futureTemplate : Bool
  version : UInt32
  coinbaseTxValueRemaining : UInt64
  coinbaseTxOutputs : List TxOut
  deriving Repr, DecidableEq

/-- The template without the flag that `SetNewPrevHash` clears. -/
def NewTemplate.activated (t : NewTemplate) : NewTemplate :=
  { t with futureTemplate := false }

@[simp] theorem NewTemplate.activated_templateId (t : NewTemplate) :
    t.activated.templateId = t.templateId := rfl
@[simp] theorem NewTemplate.activated_remaining (t : NewTemplate) :
    t.activated.coinbaseTxValueRemaining = t.coinbaseTxValueRemaining := rfl
@[simp] theorem NewTemplate.activated_outputs (t : NewTemplate) :
    t.activated.coinbaseTxOutputs = t.coinbaseTxOutputs := rfl
@[simp] theorem NewTemplate.activated_activated (t : NewTemplate) :
    t.activated.activated = t.activated := rfl

/-- `template_distribution_sv2::SetNewPrevHash`. -/
structure SetNewPrevHash where
  templateId : TemplateId
  prevHash : Bytes
  headerTimestamp : UInt32
  nBits : UInt32
  deriving Repr, DecidableEq

/-- `ChainTip`. -/
structure ChainTip where
  prevHash : Bytes
  nBits : UInt32
  minNtime : UInt32
  deriving Repr, DecidableEq

/-- `ChainTip::new`, and the conversion of a `SetNewPrevHash`. -/
def SetNewPrevHash.chainTip (m : SetNewPrevHash) : ChainTip :=
  ⟨m.prevHash, m.nBits, m.headerTimestamp⟩

/-- A standard or extended job, with the data it keeps. -/
structure Job where
  jobId : JobId
  template : NewTemplate
  coinbaseOutputs : List TxOut
  extranoncePrefix : Bytes
  deriving Repr, DecidableEq

/-- `j` was built from a template and reward outputs, in a channel with prefix `p`. -/
structure Job.BuiltFrom (j : Job) (p : Bytes) (t : NewTemplate) (outputs : List TxOut) : Prop where
  template : j.template = t
  outputs : j.coinbaseOutputs = outputs ++ t.coinbaseTxOutputs
  extranoncePrefix : j.extranoncePrefix = p

/-- `OpenStandardMiningChannel` and `OpenExtendedMiningChannel`. -/
structure OpenMiningChannel where
  requestId : Nat
  userIdentity : String
  nominalHashRate : UInt32
  maxTarget : Bytes
  /-- Extended channels only. -/
  minExtranonceSize : Nat
  deriving Repr, DecidableEq

/-- `OpenExtendedMiningChannelSuccess`. -/
structure OpenExtendedMiningChannelSuccess where
  channelId : ChannelId
  target : Bytes
  extranoncePrefix : Bytes
  extranonceSize : Nat
  deriving Repr, DecidableEq

/-- `SubmitSharesStandard`. -/
structure SubmitSharesStandard where
  channelId : ChannelId
  sequenceNumber : UInt32
  jobId : JobId
  nonce : UInt32
  ntime : UInt32
  version : UInt32
  deriving Repr, DecidableEq

/-- `SubmitSharesExtended`. -/
structure SubmitSharesExtended where
  channelId : ChannelId
  sequenceNumber : UInt32
  jobId : JobId
  nonce : UInt32
  ntime : UInt32
  version : UInt32
  extranonce : Bytes
  deriving Repr, DecidableEq

/-- `SetCustomMiningJob`, with its outputs read. -/
structure SetCustomMiningJob where
  channelId : ChannelId
  requestId : RequestId
  miningJobToken : Bytes
  chainTip : ChainTip
  coinbaseTxOutputs : List TxOut
  deriving Repr, DecidableEq

/-- The errors of the channel types; the ones of an open request carry the code sent back. -/
inductive ChannelError where
  | openChannelInvalidNominalHashrate (code : String)
  | chainTipMismatch
  | other (text : String)
  deriving Repr, DecidableEq

/-- `ShareValidationError`. `other` stands for the variants without a code. -/
inductive ShareValidationError where
  | invalid (code : String)
  | stale (code : String)
  | invalidJobId (code : String)
  | doesNotMeetTarget (code : String)
  | duplicateShare (code : String)
  | badExtranonceSize (code : String)
  | versionRollingNotAllowed (code : String)
  | other
  deriving Repr, DecidableEq

/-- `server::share_accounting::ShareValidationResult`, with the job the share was checked
against. -/
inductive ShareValidationResult where
  | valid (shareHash : Nat) (job : Job)
  | blockFound (shareHash : Nat) (job : Job) (templateId : Option TemplateId) (coinbase : Bytes)
  deriving Repr, DecidableEq

def ShareValidationResult.job : ShareValidationResult → Job
  | .valid _ job => job
  | .blockFound _ job _ _ => job

def ShareValidationResult.shareHash : ShareValidationResult → Nat
  | .valid hash _ => hash
  | .blockFound hash _ _ _ => hash

/-- `client::share_accounting::ShareValidationResult`. -/
inductive UpstreamValidationResult where
  | valid (shareHash : Nat)
  | blockFound (shareHash : Nat)
  deriving Repr, DecidableEq

/-- The readings of `ShareAccounting` that go into a `SubmitSharesSuccess`. -/
structure ShareAccounting where
  shouldAcknowledge : Bool
  lastShareSequenceNumber : UInt32
  lastBatchAccepted : Nat
  lastBatchWorkSum : Nat
  deriving Repr, DecidableEq

/-- `ExtranonceAllocator`, without the slots that are in use: the slot it gives next is an argument
of the calls. -/
structure ExtranonceAllocator where
  upstreamPrefix : Bytes
  totalLen : Nat
  deriving Repr, DecidableEq

/-- The job methods every server channel type has. -/
structure JobOps (C : Type) where
  onNewTemplate : C → NewTemplate → List TxOut → Except ChannelError C
  onSetNewPrevHash : C → SetNewPrevHash → Except ChannelError C
  activeJob : C → Option Job
  /-- `get_future_job_id_from_template_id`, then `get_future_job`. -/
  futureJob : C → TemplateId → Option Job

/-- The job a channel, or a group, has for a template it was just given. -/
def JobOps.jobOf {C : Type} (ops : JobOps C) (c : C) (t : NewTemplate) : Option Job :=
  if t.futureTemplate then ops.futureJob c t.templateId else ops.activeJob c

/-- The parts of `channels_sv2` the client uses. -/
structure ChannelsSv2 where
  /-- `server::standard::StandardChannel` and `server::extended::ExtendedChannel`. -/
  Channel : Type
  /-- `server::group::GroupChannel`. -/
  Group : Type
  /-- `client::extended::ExtendedChannel`. -/
  Upstream : Type
  JobFactory : Type
  /-- `StandardChannel::new_for_job_declaration_client`, given the allocated prefix. -/
  newStandard : ChannelId → OpenMiningChannel → Bytes → Except ChannelError Channel
  /-- `ExtendedChannel::new_for_job_declaration_client`, given also the rollable size. -/
  newExtended : ChannelId → OpenMiningChannel → Bytes → Nat → Except ChannelError Channel
  channel : JobOps Channel
  /-- The active, future and past jobs of a channel. -/
  jobs : Channel → List Job
  hasChainTip : Channel → Bool
  extranoncePrefix : Channel → Bytes
  rollableExtranonceSize : Channel → Nat
  setExtranoncePrefix : Channel → Bytes → Except ChannelError Channel
  onGroupChannelJob : Channel → Job → Except ChannelError Channel
  validateStandard : Channel → SubmitSharesStandard →
    Channel × Except ShareValidationError ShareValidationResult
  validateExtended : Channel → SubmitSharesExtended →
    Channel × Except ShareValidationError ShareValidationResult
  shareAccounting : Channel → ShareAccounting
  /-- `GroupChannel::new_for_job_declaration_client`, given the full extranonce size. -/
  newGroup : ChannelId → Nat → Except ChannelError Group
  group : JobOps Group
  groupChannelId : Group → ChannelId
  /-- The channels of a group, with `has_channel_id` and `is_empty` as tests on them. -/
  members : Group → List ChannelId
  addChannelId : Group → ChannelId → Nat → Except ChannelError Group
  removeChannelId : Group → ChannelId → Group
  setFullExtranonceSize : Group → Nat → Group
  /-- `client::extended::ExtendedChannel::new`. -/
  newUpstream : OpenExtendedMiningChannelSuccess → UInt32 → Upstream
  upstreamChannelId : Upstream → ChannelId
  upstreamPrefix : Upstream → Bytes
  upstreamRollable : Upstream → Nat
  upstreamHasChainTip : Upstream → Bool
  setUpstreamPrefix : Upstream → Bytes → Except ChannelError Upstream
  /-- `on_chain_tip_update`; the client ignores what it returns. -/
  onChainTipUpdate : Upstream → ChainTip → Upstream
  onSetCustomMiningJobSuccess : Upstream → SetCustomMiningJob → JobId →
    Upstream × Option ChannelError
  validateUpstream : Upstream → SubmitSharesExtended →
    Upstream × Except ShareValidationError UpstreamValidationResult
  /-- `JobFactory::new`. -/
  newJobFactory : JobFactory
  newCustomJob : JobFactory → ChannelId → RequestId → Bytes → ChainTip → NewTemplate →
    List TxOut → Nat → JobFactory × Except String SetCustomMiningJob
  newCoinbaseTxPrefixAndSuffix : JobFactory → NewTemplate → List TxOut → Nat →
    JobFactory × Except String (Bytes × Bytes)
  /-- The outputs of the coinbase transaction with this prefix and suffix. -/
  coinbaseOutputs : Bytes → Bytes → List TxOut
  /-- `ExtranonceAllocator::from_upstream_prefix` accepts this prefix and total length. -/
  allocatorAccepts : Bytes → Nat → Bool
  /-- `allocate_standard`, given the slot. -/
  allocateStandard : ExtranonceAllocator → Nat → Except String Bytes
  /-- `allocate_extended`, given the slot, for a minimum rollable size. -/
  allocateExtended : ExtranonceAllocator → Nat → Nat → Except String Bytes

namespace ChannelsSv2

variable (api : ChannelsSv2)

/-- `get_full_extranonce_size` of a server channel. -/
def fullExtranonceSize (ch : api.Channel) : Nat :=
  (api.extranoncePrefix ch).length + api.rollableExtranonceSize ch

/-- `get_full_extranonce_size` of the upstream channel. -/
def upstreamFullSize (u : api.Upstream) : Nat :=
  (api.upstreamPrefix u).length + api.upstreamRollable u

/-- `ExtranonceAllocator::from_upstream_prefix`. -/
def fromUpstreamPrefix (p : Bytes) (totalLen : Nat) : Except String ExtranonceAllocator :=
  if api.allocatorAccepts p totalLen then .ok ⟨p, totalLen⟩ else .error "extranonce prefix too long"

/-- A step on a channel that keeps its prefix, its sizes and a chain tip. -/
structure SameShape (ch ch' : api.Channel) : Prop where
  extranoncePrefix : api.extranoncePrefix ch' = api.extranoncePrefix ch
  rollable : api.rollableExtranonceSize ch' = api.rollableExtranonceSize ch
  chainTip : api.hasChainTip ch = true → api.hasChainTip ch' = true

/-- A step on the upstream channel that keeps its prefix, its sizes and a chain tip. -/
structure SameUpstream (u u' : api.Upstream) : Prop where
  upstreamPrefix : api.upstreamPrefix u' = api.upstreamPrefix u
  rollable : api.upstreamRollable u' = api.upstreamRollable u
  chainTip : api.upstreamHasChainTip u = true → api.upstreamHasChainTip u' = true

structure Lawful : Prop where
  newStandard : ∀ {i m p ch}, api.newStandard i m p = .ok ch →
    api.jobs ch = [] ∧ api.extranoncePrefix ch = p
  newExtended : ∀ {i m p n ch}, api.newExtended i m p n = .ok ch →
    api.jobs ch = [] ∧ api.extranoncePrefix ch = p
  onNewTemplate : ∀ {ch t o ch'}, api.channel.onNewTemplate ch t o = .ok ch' →
    api.SameShape ch ch' ∧
      ∀ j ∈ api.jobs ch', j ∈ api.jobs ch ∨ j.BuiltFrom (api.extranoncePrefix ch) t o
  onSetNewPrevHash : ∀ {ch m ch'}, api.channel.onSetNewPrevHash ch m = .ok ch' →
    api.SameShape ch ch' ∧ api.hasChainTip ch' = true ∧ ∀ j ∈ api.jobs ch', j ∈ api.jobs ch
  onGroupChannelJob : ∀ {ch g ch'}, api.onGroupChannelJob ch g = .ok ch' →
    api.SameShape ch ch' ∧ ∀ j ∈ api.jobs ch', j ∈ api.jobs ch ∨
      j = { g with extranoncePrefix := api.extranoncePrefix ch }
  setExtranoncePrefix : ∀ {ch p ch'}, api.setExtranoncePrefix ch p = .ok ch' →
    api.extranoncePrefix ch' = p ∧ api.jobs ch' = api.jobs ch ∧
      (api.hasChainTip ch = true → api.hasChainTip ch' = true)
  validateStandard : ∀ {ch m}, api.SameShape ch (api.validateStandard ch m).1 ∧
    (∀ j ∈ api.jobs (api.validateStandard ch m).1, j ∈ api.jobs ch)
  validateStandard_ok : ∀ {ch m r}, (api.validateStandard ch m).2 = .ok r →
    r.job ∈ api.jobs ch ∧ r.job.jobId = m.jobId
  /-- A standard share has no extranonce of its own. -/
  validateStandard_error : ∀ {ch m e}, (api.validateStandard ch m).2 = .error e →
    (∀ code, e ≠ .badExtranonceSize code) ∧ (e = .other → api.hasChainTip ch = false)
  validateExtended : ∀ {ch m}, api.SameShape ch (api.validateExtended ch m).1 ∧
    (∀ j ∈ api.jobs (api.validateExtended ch m).1, j ∈ api.jobs ch)
  validateExtended_ok : ∀ {ch m r}, (api.validateExtended ch m).2 = .ok r →
    r.job ∈ api.jobs ch ∧ r.job.jobId = m.jobId
  validateExtended_error : ∀ {ch m e}, (api.validateExtended ch m).2 = .error e →
    e = .other → api.hasChainTip ch = false
  /-- The job a group has for the template it was just given. -/
  groupJob : ∀ {g t o g' j}, api.group.onNewTemplate g t o = .ok g' →
    api.group.jobOf g' t = some j →
      j.template = t ∧ j.coinbaseOutputs = o ++ t.coinbaseTxOutputs
  newUpstream : ∀ {m h}, api.upstreamPrefix (api.newUpstream m h) = m.extranoncePrefix ∧
    api.upstreamRollable (api.newUpstream m h) = m.extranonceSize
  setUpstreamPrefix : ∀ {u p u'}, api.setUpstreamPrefix u p = .ok u' →
    api.upstreamPrefix u' = p ∧ api.upstreamRollable u' = api.upstreamRollable u ∧
      (api.upstreamHasChainTip u = true → api.upstreamHasChainTip u' = true)
  onChainTipUpdate : ∀ {u tip}, api.SameUpstream u (api.onChainTipUpdate u tip) ∧
    api.upstreamHasChainTip (api.onChainTipUpdate u tip) = true
  onSetCustomMiningJobSuccess : ∀ {u m i},
    api.SameUpstream u (api.onSetCustomMiningJobSuccess u m i).1
  validateUpstream : ∀ {u m}, api.SameUpstream u (api.validateUpstream u m).1
  validateUpstream_error : ∀ {u m e}, (api.validateUpstream u m).2 = .error e →
    (∀ code, e = .badExtranonceSize code → m.extranonce.length ≠ api.upstreamRollable u) ∧
      (e = .other → api.upstreamHasChainTip u = false)
  newCustomJob : ∀ {f c r k tip t o n f' m}, api.newCustomJob f c r k tip t o n = (f', .ok m) →
    m.coinbaseTxOutputs = o ++ t.coinbaseTxOutputs
  newCoinbaseTxPrefixAndSuffix : ∀ {f t o n f' p q},
    api.newCoinbaseTxPrefixAndSuffix f t o n = (f', .ok (p, q)) →
      api.coinbaseOutputs p q = o ++ t.coinbaseTxOutputs
  allocateStandard : ∀ {a slot p}, api.allocateStandard a slot = .ok p →
    a.upstreamPrefix <+: p ∧ p.length = a.totalLen
  allocateExtended : ∀ {a slot n p}, api.allocateExtended a slot n = .ok p →
    a.upstreamPrefix <+: p ∧ p.length + n ≤ a.totalLen

end ChannelsSv2

/-! ### A channel implementation

The reference channels satisfy the laws and can be evaluated. They keep lists of jobs and check a
share by its job id alone, so that witnesses and counterexamples run. -/

/-- A server channel that keeps its jobs in lists. -/
structure RefChannel where
  extranoncePrefix : Bytes
  rollable : Nat
  tip : Bool
  active : Option Job
  future : List Job
  past : List Job
  nextJobId : JobId
  deriving Repr, DecidableEq

namespace RefChannel

def empty (p : Bytes) (rollable : Nat) : RefChannel := ⟨p, rollable, false, none, [], [], 1⟩

def jobs (ch : RefChannel) : List Job := ch.active.toList ++ ch.future ++ ch.past

def onNewTemplate (ch : RefChannel) (t : NewTemplate) (outputs : List TxOut) : RefChannel :=
  let job : Job := ⟨ch.nextJobId, t, outputs ++ t.coinbaseTxOutputs, ch.extranoncePrefix⟩
  if t.futureTemplate then
    { ch with future := job :: ch.future, nextJobId := ch.nextJobId + 1 }
  else
    { ch with
      active := some job
      past := ch.active.toList ++ ch.past
      nextJobId := ch.nextJobId + 1 }

def futureJob (ch : RefChannel) (t : TemplateId) : Option Job :=
  ch.future.find? (·.template.templateId = t)

/-- Activate the future job of the template, or else move the tip where `moves` allows it. -/
def setPrevHash (ch : RefChannel) (m : SetNewPrevHash) (moves : Bool) :
    Except ChannelError RefChannel :=
  match ch.futureJob m.templateId with
  | some job => .ok { ch with active := some job, future := [], past := [], tip := true }
  | none =>
      if moves then .ok { ch with tip := true } else .error (.other "template id not found")

def onSetNewPrevHash (ch : RefChannel) (m : SetNewPrevHash) : Except ChannelError RefChannel :=
  ch.setPrevHash m ch.future.isEmpty

def onGroupChannelJob (ch : RefChannel) (g : Job) : RefChannel :=
  let job := { g with extranoncePrefix := ch.extranoncePrefix }
  if g.template.futureTemplate then { ch with future := job :: ch.future }
  else { ch with active := some job, past := ch.active.toList ++ ch.past }

/-- A share on the active job or a past one is valid; a nonce of zero finds a block. -/
def validate (ch : RefChannel) (jobId : JobId) (nonce : UInt32) :
    Except ShareValidationError ShareValidationResult :=
  if ch.tip then
    match (ch.active.toList ++ ch.past).find? (·.jobId = jobId) with
    | none => .error (.invalidJobId "invalid-job-id")
    | some job =>
        if nonce = 0 then .ok (.blockFound 0 job (some job.template.templateId) [])
        else .ok (.valid nonce.toNat job)
  else .error .other

/-- An accepted share names a job of the channel. -/
theorem validate_ok {ch : RefChannel} {i : JobId} {nonce : UInt32} {r : ShareValidationResult}
    (h : ch.validate i nonce = .ok r) : r.job ∈ ch.jobs ∧ r.job.jobId = i := by
  have key : ∀ job, (ch.active.toList ++ ch.past).find? (·.jobId = i) = some job →
      job ∈ ch.jobs ∧ job.jobId = i := by
    intro job hjob
    have hmem := List.mem_of_find?_eq_some hjob
    refine ⟨?_, by simpa using List.find?_some hjob⟩
    simp only [jobs, List.mem_append] at hmem ⊢
    rcases hmem with hmem | hmem
    · exact .inl (.inl hmem)
    · exact .inr hmem
  unfold validate at h
  split at h
  · split at h
    · cases h
    · rename_i job hjob
      split at h <;> obtain rfl := Except.ok.inj h <;> exact key job hjob
  · cases h

/-- The reference channels know no extranonce size, and reject everything before the first tip. -/
theorem validate_error {ch : RefChannel} {i : JobId} {nonce : UInt32} {e : ShareValidationError}
    (h : ch.validate i nonce = .error e) :
    (∀ code, e ≠ .badExtranonceSize code) ∧ (e = .other → ch.tip = false) := by
  unfold validate at h
  split at h
  · split at h
    · obtain rfl := Except.error.inj h
      simp
    · split at h <;> cases h
  · rename_i htip
    obtain rfl := Except.error.inj h
    simpa using htip

/-- The jobs after a template: the old ones and one that is built from it. -/
theorem mem_jobs_onNewTemplate {ch : RefChannel} {t : NewTemplate} {o : List TxOut} {j : Job}
    (h : j ∈ (ch.onNewTemplate t o).jobs) : j ∈ ch.jobs ∨ j.BuiltFrom ch.extranoncePrefix t o := by
  unfold onNewTemplate at h
  dsimp only at h
  split at h <;> simp only [jobs, List.mem_append, List.mem_cons, Option.toList_some,
    List.not_mem_nil, or_false] at h ⊢
  · rcases h with (h | rfl | h) | h
    · exact .inl (.inl (.inl h))
    · exact .inr ⟨rfl, rfl, rfl⟩
    · exact .inl (.inl (.inr h))
    · exact .inl (.inr h)
  · rcases h with (rfl | h) | h | h
    · exact .inr ⟨rfl, rfl, rfl⟩
    · exact .inl (.inl (.inr h))
    · exact .inl (.inl (.inl h))
    · exact .inl (.inr h)

/-- The job of the group, with the prefix of the channel. -/
theorem mem_jobs_onGroupChannelJob {ch : RefChannel} {g j : Job}
    (h : j ∈ (ch.onGroupChannelJob g).jobs) :
    j ∈ ch.jobs ∨ j = { g with extranoncePrefix := ch.extranoncePrefix } := by
  unfold onGroupChannelJob at h
  dsimp only at h
  split at h <;> simp only [jobs, List.mem_append, List.mem_cons, Option.toList_some,
    List.not_mem_nil, or_false] at h ⊢
  · rcases h with (h | rfl | h) | h
    · exact .inl (.inl (.inl h))
    · exact .inr rfl
    · exact .inl (.inl (.inr h))
    · exact .inl (.inr h)
  · rcases h with (rfl | h) | h | h
    · exact .inr rfl
    · exact .inl (.inl (.inr h))
    · exact .inl (.inl (.inl h))
    · exact .inl (.inr h)

/-- A previous hash is taken: it activates a job, or leaves all of them. -/
theorem setPrevHash_eq_ok {ch ch' : RefChannel} {m : SetNewPrevHash} {moves : Bool}
    (h : ch.setPrevHash m moves = .ok ch') :
    (∃ job, ch.futureJob m.templateId = some job ∧
        ch' = { ch with active := some job, future := [], past := [], tip := true }) ∨
      ch.futureJob m.templateId = none ∧ moves = true ∧ ch' = { ch with tip := true } := by
  unfold setPrevHash at h
  split at h
  · rename_i job hjob
    exact .inl ⟨job, hjob, (Except.ok.inj h).symm⟩
  · rename_i hnone
    split at h
    · rename_i hmoves
      exact .inr ⟨hnone, hmoves, (Except.ok.inj h).symm⟩
    · cases h

theorem setPrevHash_moves (ch : RefChannel) (m : SetNewPrevHash) :
    ∃ ch', ch.setPrevHash m true = .ok ch' := by
  unfold setPrevHash
  split
  · exact ⟨_, rfl⟩
  · exact ⟨_, rfl⟩

/-- A previous hash activates or drops jobs, and changes nothing else of the channel. -/
theorem onSetNewPrevHash_eq_ok {ch ch' : RefChannel} {m : SetNewPrevHash}
    (h : ch.onSetNewPrevHash m = .ok ch') :
    ch'.extranoncePrefix = ch.extranoncePrefix ∧ ch'.rollable = ch.rollable ∧ ch'.tip = true ∧
      ∀ j ∈ ch'.jobs, j ∈ ch.jobs := by
  obtain ⟨job, hjob, rfl⟩ | ⟨-, -, rfl⟩ := setPrevHash_eq_ok h
  · refine ⟨rfl, rfl, rfl, fun j hj => ?_⟩
    have hmem := List.mem_of_find?_eq_some hjob
    obtain rfl : j = job := by simpa [jobs] using hj
    simp [jobs, hmem]
  · exact ⟨rfl, rfl, rfl, fun j hj => hj⟩

end RefChannel

/-- A client channel that knows the ids of its jobs. -/
structure RefUpstream where
  channelId : ChannelId
  upstreamPrefix : Bytes
  rollable : Nat
  tip : Option ChainTip
  jobs : List JobId
  deriving Repr, DecidableEq

def RefUpstream.validate (u : RefUpstream) (m : SubmitSharesExtended) :
    Except ShareValidationError UpstreamValidationResult :=
  if u.tip.isNone then .error .other
  else if m.extranonce.length ≠ u.rollable then .error (.badExtranonceSize "bad-extranonce-size")
  else if m.jobId ∉ u.jobs then .error (.invalidJobId "invalid-job-id")
  else if m.nonce = 0 then .ok (.blockFound 0)
  else .ok (.valid m.nonce.toNat)

/-- A group channel. -/
structure RefGroup where
  id : ChannelId
  jobs : RefChannel
  members : List ChannelId
  deriving Repr, DecidableEq

/-- A local index of two bytes after the upstream prefix. -/
def ExtranonceAllocator.withIndex (a : ExtranonceAllocator) (slot : Nat) : Bytes :=
  a.upstreamPrefix ++ Consensus.leBytes 2 slot

/-- A plain implementation of the crate. Its coinbase suffix holds the outputs and nothing else. -/
def reference : ChannelsSv2 where
  Channel := RefChannel
  Group := RefGroup
  Upstream := RefUpstream
  JobFactory := Unit
  newStandard _ _ p := .ok (.empty p 0)
  newExtended _ _ p n := .ok (.empty p n)
  channel :=
    { onNewTemplate := fun ch t o => .ok (ch.onNewTemplate t o)
      onSetNewPrevHash := RefChannel.onSetNewPrevHash
      activeJob := RefChannel.active
      futureJob := RefChannel.futureJob }
  jobs := RefChannel.jobs
  hasChainTip := RefChannel.tip
  extranoncePrefix := RefChannel.extranoncePrefix
  rollableExtranonceSize := RefChannel.rollable
  setExtranoncePrefix ch p := .ok { ch with extranoncePrefix := p }
  onGroupChannelJob ch g := .ok (ch.onGroupChannelJob g)
  validateStandard ch m := (ch, ch.validate m.jobId m.nonce)
  validateExtended ch m :=
    if m.extranonce.length ≠ ch.rollable then
      (ch, .error (.badExtranonceSize "bad-extranonce-size"))
    else (ch, ch.validate m.jobId m.nonce)
  shareAccounting _ := ⟨true, 0, 1, 1⟩
  newGroup i _ := .ok ⟨i, .empty [] 0, []⟩
  group :=
    { onNewTemplate := fun g t o => .ok { g with jobs := g.jobs.onNewTemplate t o }
      -- a group with a future job takes the previous hash of any template
      onSetNewPrevHash := fun g m =>
        (g.jobs.setPrevHash m !g.jobs.future.isEmpty).map fun jobs => { g with jobs := jobs }
      activeJob := fun g => g.jobs.active
      futureJob := fun g => g.jobs.futureJob }
  groupChannelId := RefGroup.id
  members := RefGroup.members
  addChannelId g c _ := .ok { g with members := c :: g.members }
  removeChannelId g c := { g with members := g.members.erase c }
  setFullExtranonceSize g _ := g
  newUpstream m _ := ⟨m.channelId, m.extranoncePrefix, m.extranonceSize, none, []⟩
  upstreamChannelId := RefUpstream.channelId
  upstreamPrefix := RefUpstream.upstreamPrefix
  upstreamRollable := RefUpstream.rollable
  upstreamHasChainTip u := u.tip.isSome
  setUpstreamPrefix u p := .ok { u with upstreamPrefix := p }
  onChainTipUpdate u tip := { u with tip := some tip, jobs := [] }
  onSetCustomMiningJobSuccess u m i :=
    if u.tip = some m.chainTip then ({ u with jobs := i :: u.jobs }, none)
    else (u, some .chainTipMismatch)
  validateUpstream u m := (u, u.validate m)
  newJobFactory := ()
  newCustomJob _ c r k tip t o _ := ((), .ok ⟨c, r, k, tip, o ++ t.coinbaseTxOutputs⟩)
  newCoinbaseTxPrefixAndSuffix _ t o _ :=
    let outputs := o ++ t.coinbaseTxOutputs
    if Consensus.decodeVec TxOut.decode (TxOut.encodeVec outputs) = some (outputs, []) then
      ((), .ok ([], TxOut.encodeVec outputs))
    else ((), .error "outputs too large")
  coinbaseOutputs _ q := ((Consensus.decodeVec TxOut.decode q).map (·.1)).getD []
  allocatorAccepts p n := p.length + 2 ≤ n && n ≤ 32
  allocateStandard a slot :=
    if a.upstreamPrefix.length + 2 ≤ a.totalLen then
      .ok (a.withIndex slot ++ List.replicate (a.totalLen - (a.upstreamPrefix.length + 2)) 0)
    else .error "no room"
  allocateExtended a slot n :=
    if (a.withIndex slot).length + n ≤ a.totalLen then .ok (a.withIndex slot) else .error "no room"

/-- The reference channels satisfy the laws, so that the results apply to runs with them. -/
theorem reference_lawful : reference.Lawful where
  newStandard h := by
    obtain rfl := Except.ok.inj h
    exact ⟨rfl, rfl⟩
  newExtended h := by
    obtain rfl := Except.ok.inj h
    exact ⟨rfl, rfl⟩
  onNewTemplate {ch t o ch'} h := by
    obtain rfl := Except.ok.inj h
    refine ⟨⟨?_, ?_, fun htip => ?_⟩, fun j hj => RefChannel.mem_jobs_onNewTemplate hj⟩
    all_goals
      simp only [reference, RefChannel.onNewTemplate] at *
      split <;> first | rfl | exact htip
  onSetNewPrevHash h := by
    obtain ⟨hp, hr, htip, hjobs⟩ := RefChannel.onSetNewPrevHash_eq_ok h
    exact ⟨⟨hp, hr, fun _ => htip⟩, htip, hjobs⟩
  onGroupChannelJob {ch g ch'} h := by
    obtain rfl := Except.ok.inj h
    refine ⟨⟨?_, ?_, fun htip => ?_⟩, fun j hj => RefChannel.mem_jobs_onGroupChannelJob hj⟩
    all_goals
      simp only [reference, RefChannel.onGroupChannelJob] at *
      split <;> first | rfl | exact htip
  setExtranoncePrefix h := by
    obtain rfl := Except.ok.inj h
    exact ⟨rfl, rfl, fun htip => htip⟩
  validateStandard := ⟨⟨rfl, rfl, fun htip => htip⟩, fun j hj => hj⟩
  validateStandard_ok h := RefChannel.validate_ok h
  validateStandard_error h := RefChannel.validate_error h
  validateExtended {ch m} := by
    have hsame : (reference.validateExtended ch m).1 = ch := by
      simp only [reference]
      split <;> rfl
    rw [hsame]
    exact ⟨⟨rfl, rfl, fun htip => htip⟩, fun j hj => hj⟩
  validateExtended_ok {ch m r} h := by
    simp only [reference] at h
    split at h
    · cases h
    · exact RefChannel.validate_ok h
  validateExtended_error {ch m e} h := by
    simp only [reference] at h
    split at h
    · obtain rfl := Except.error.inj h
      simp
    · exact (RefChannel.validate_error h).2
  groupJob {g t o g' j} h hj := by
    obtain rfl := Except.ok.inj h
    simp only [reference, JobOps.jobOf, RefChannel.onNewTemplate, RefChannel.futureJob] at hj
    by_cases ht : t.futureTemplate = true
    · simp only [ht, if_true, List.find?_cons, decide_true, Option.some.injEq] at hj
      subst hj
      exact ⟨rfl, rfl⟩
    · simp only [ht, Bool.false_eq_true, if_false, Option.some.injEq] at hj
      subst hj
      exact ⟨rfl, rfl⟩
  newUpstream := ⟨rfl, rfl⟩
  setUpstreamPrefix h := by
    obtain rfl := Except.ok.inj h
    exact ⟨rfl, rfl, fun htip => htip⟩
  onChainTipUpdate := ⟨⟨rfl, rfl, fun _ => rfl⟩, rfl⟩
  onSetCustomMiningJobSuccess {u m i} := by
    simp only [reference]
    split <;> exact ⟨rfl, rfl, fun htip => htip⟩
  validateUpstream := ⟨rfl, rfl, fun htip => htip⟩
  validateUpstream_error {u m e} h := by
    simp only [reference, RefUpstream.validate] at h
    split at h
    · rename_i htip
      obtain rfl := Except.error.inj h
      exact ⟨by simp, fun _ => by simpa [reference] using htip⟩
    · split at h
      · rename_i hlen
        obtain rfl := Except.error.inj h
        exact ⟨fun _ _ => hlen, by simp⟩
      · split at h
        · obtain rfl := Except.error.inj h
          simp
        · split at h <;> cases h
  newCustomJob h := by
    obtain rfl := Except.ok.inj (Prod.mk.inj h).2
    rfl
  newCoinbaseTxPrefixAndSuffix {f t o n f' p q} h := by
    simp only [reference] at h
    split at h
    · rename_i hdec
      obtain ⟨rfl, rfl⟩ := Prod.mk.inj (Except.ok.inj (Prod.mk.inj h).2)
      simp [reference, hdec]
    · cases (Prod.mk.inj h).2
  allocateStandard {a slot p} h := by
    simp only [reference] at h
    split at h
    · rename_i hroom
      obtain rfl := Except.ok.inj h
      refine ⟨by simp [ExtranonceAllocator.withIndex], ?_⟩
      simp [ExtranonceAllocator.withIndex]
      omega
    · cases h
  allocateExtended {a slot n p} h := by
    simp only [reference] at h
    split at h
    · rename_i hroom
      obtain rfl := Except.ok.inj h
      exact ⟨by simp [ExtranonceAllocator.withIndex], hroom⟩
    · cases h

end GridPoolSv2.JobDeclaratorClient
