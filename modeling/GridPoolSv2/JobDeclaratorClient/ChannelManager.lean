import GridPoolSv2.JobDeclaratorClient.Channels
import GridPoolSv2.Lib.Handler
import GridPoolSv2.Lib.Sha256
import GridPoolSv2.Lib.TxWeight
import Mathlib.Logic.Function.Basic

/-!
# JobDeclaratorClient.ChannelManager: the state and the handlers of the client

The model of `jd-client/src/lib/channel_manager/`: the handlers of templates, previous
hashes, transaction data, tokens, declarations and of the upstream channel, the opening
and closing of downstream channels, and what each of them sends. Shares are in `Shares`.

* A handler is a function into `Visit.Outcome`: the state it leaves, the messages it sends
  (`Note`) and the error it returns. `JDCError.action` says what the loop of `start` does
  about the error; a panic ends the manager like a shutdown.
* Loops over maps visit the keys one after the other and thread the whole state, as the
  closures of the source do. The messages they collect are sent after the loop, and only
  when it did not fail (`Handler.collect`).
* A message that declares a job carries, as **ghost** data, the template it is for and the
  prefix of the upstream channel at that moment; a share that is passed on carries the
  downstream job it was checked against and the miner's part of the extranonce.

The slots of the extranonce allocator are given by the events.
-/

namespace GridPoolSv2.JobDeclaratorClient

open Consensus (Bytes TxOut Transaction)
open Function (update)
open Visit Handler

/-- `JDMode`. -/
inductive JDMode where
  | coinbaseOnly
  | fullTemplate
  | soloMining
  deriving Repr, DecidableEq

/-- `UpstreamState`. -/
inductive UpstreamState where
  | noChannel
  | pending
  | connected
  | soloMining
  deriving Repr, DecidableEq

inductive ChannelKind where
  | standard
  | extended
  deriving Repr, DecidableEq

/-- `AllocateMiningJobTokenSuccess`. -/
structure AllocateMiningJobTokenSuccess where
  requestId : RequestId
  miningJobToken : Bytes
  coinbaseOutputs : Bytes
  deriving Repr, DecidableEq

/-- `DeclareMiningJob`. -/
structure DeclareMiningJob where
  requestId : RequestId
  miningJobToken : Bytes
  version : UInt32
  coinbaseTxPrefix : Bytes
  coinbaseTxSuffix : Bytes
  wtxidList : List Bytes
  excessData : Bytes
  deriving Repr, DecidableEq

/-- `PushSolution`. -/
structure PushSolution where
  extranonce : Bytes
  ntime : UInt32
  nonce : UInt32
  version : UInt32
  nbits : UInt32
  prevHash : Bytes
  deriving Repr, DecidableEq

/-- `DeclaredJob`. -/
structure DeclaredJob where
  declareMiningJob : Option DeclareMiningJob
  template : NewTemplate
  prevHash : Option SetNewPrevHash
  setCustomMiningJob : Option SetCustomMiningJob
  coinbaseOutput : Bytes
  txList : List Bytes
  deriving Repr, DecidableEq

/-- A declared job of the template that a `SetNewPrevHash` activates. -/
def DeclaredJob.activate (m : SetNewPrevHash) (job : DeclaredJob) : DeclaredJob :=
  if job.template.futureTemplate && job.template.templateId = m.templateId then
    { job with prevHash := some m, template := job.template.activated }
  else job

/-- Where a share for the pool comes from: the downstream job and the miner's extranonce. -/
structure Origin where
  job : Job
  extranonce : Bytes
  deriving Repr, DecidableEq

/-- The extranonce of the downstream share's coinbase. -/
def Origin.full (o : Origin) : Bytes :=
  o.job.extranoncePrefix ++ o.extranonce

/-- `SharesOrderedByDiff`. -/
structure SharesOrderedByDiff where
  share : SubmitSharesExtended
  shareHash : Nat
  origin : Origin
  deriving Repr, DecidableEq

/-- `PendingChannelRequest`. -/
structure PendingChannelRequest where
  downstreamId : DownstreamId
  kind : ChannelKind
  message : OpenMiningChannel
  deriving Repr, DecidableEq

/-- The mining messages sent to downstreams. -/
inductive Mining where
  | openMiningChannelSuccess (kind : ChannelKind) (requestId : Nat)
      (channelId groupChannelId : ChannelId) (extranoncePrefix : Bytes)
  | openMiningChannelError (requestId : Nat) (code : String)
  | newMiningJob (channelId : ChannelId) (job : Job)
  | newExtendedMiningJob (channelId : ChannelId) (job : Job)
  | setNewPrevHash (channelId : ChannelId) (jobId : JobId) (prevHash : Bytes)
      (minNtime nbits : UInt32)
  | setExtranoncePrefix (channelId : ChannelId) (extranoncePrefix : Bytes)
  | submitSharesSuccess (channelId : ChannelId) (accounting : ShareAccounting)
  | submitSharesError (channelId : ChannelId) (sequenceNumber : UInt32) (code : String)
  | closeChannel (channelId : ChannelId) (reason : String)
  deriving Repr, DecidableEq

/-- `CoinbaseOutputConstraints`. -/
structure CoinbaseOutputConstraints where
  coinbaseOutputMaxAdditionalSize : UInt32
  coinbaseOutputMaxAdditionalSigops : UInt16
  deriving Repr, DecidableEq

/-- `RouteMessageTo`: a message and whom it is sent to. -/
inductive Note where
  | openExtendedMiningChannel (request : OpenMiningChannel)
  | closeUpstreamChannel (channelId : ChannelId) (reason : String)
  | setCustomMiningJob (template : NewTemplate) (upstreamPrefix : Bytes)
      (message : SetCustomMiningJob)
  | submitSharesExtended (origin : Origin) (message : SubmitSharesExtended)
  | allocateMiningJobToken (requestId : RequestId)
  | declareMiningJob (template : NewTemplate) (upstreamPrefix : Bytes) (message : DeclareMiningJob)
  | pushSolution (origin : Origin) (message : PushSolution)
  | requestTransactionData (templateId : TemplateId)
  | coinbaseOutputConstraints (message : CoinbaseOutputConstraints)
  | submitSolution (templateId : TemplateId) (version headerTimestamp headerNonce : UInt32)
      (coinbaseTx : Bytes)
  | downstream (downstreamId : DownstreamId) (message : Mining)
  deriving Repr, DecidableEq

/-- The panics of the handlers. -/
inductive Panic where
  | sliceOutOfRange
  | unreachableCode
  | indexOutOfBounds
  | expect (text : String)
  deriving Repr, DecidableEq

/-- `JDCErrorKind`, and panics. -/
inductive JDCErrorKind where
  | channelSv2 (error : ChannelError)
  | extranoncePrefix (text : String)
  | binarySv2
  | bitcoinEncodeError
  | channelManagerHasBadCoinbaseOutputs
  | declaredJobHasBadCoinbaseOutputs
  | downstreamNotFound (downstreamId : DownstreamId)
  | futureTemplateNotPresent
  | lastNewPrevhashNotFound
  | lastDeclareJobNotFound (requestId : RequestId)
  | templateNotFound (templateId : TemplateId)
  | failedToCreateCustomJob
  | failedToCreateGroupChannel
  | declareMiningJobError
  | customJobError
  | upstreamNotFound
  | openMiningChannelError
  | openStandardMiningChannelError
  | closeChannel
  | extranonceSizeTooSmall
  | extranonceSizeTooLarge
  | panic (panic : Panic)
  deriving Repr, DecidableEq

/-- `Action`. -/
inductive Action where
  | log
  | disconnect (downstreamId : DownstreamId)
  | fallback
  | shutdown
  deriving Repr, DecidableEq

/-- `JDCError`. -/
structure JDCError where
  kind : JDCErrorKind
  action : Action
  deriving Repr, DecidableEq

namespace JDCError

def log (kind : JDCErrorKind) : JDCError := ⟨kind, .log⟩
def disconnect (kind : JDCErrorKind) (d : DownstreamId) : JDCError := ⟨kind, .disconnect d⟩
def fallback (kind : JDCErrorKind) : JDCError := ⟨kind, .fallback⟩
def shutdown (kind : JDCErrorKind) : JDCError := ⟨kind, .shutdown⟩
def panic (p : Panic) : JDCError := ⟨.panic p, .shutdown⟩

end JDCError

/-- `JDC_LOCAL_PREFIX_BYTES`: `bytes_needed` of 65536 channels. -/
def localPrefixBytes : Nat := 2

/-- `SOLO_FULL_EXTRANONCE_SIZE`. -/
def soloFullExtranonceSize : Nat := 20

/-- `MAX_EXTRANONCE_LEN`, which also bounds a `B032`. -/
def maxExtranonceLen : Nat := 32

/-- The longest `B064K`, and the longest `Seq064K`. -/
def maxB064K : Nat := 65535

/-! ### Coinbase outputs

The token's outputs are bytes. In the solo mode, and before a token, the configured ones are
used. -/

/-- `deserialize_outputs`: the bytes hold a vector of outputs and nothing else. -/
def deserializeOutputs (bs : Bytes) : Option (List TxOut) :=
  match Consensus.decodeVec TxOut.decode bs with
  | some (outputs, []) => some outputs
  | _ => none

/-- `coinbase_outputs[0].value = ..`. -/
def withReward (reward : UInt64) : List TxOut → Option (List TxOut)
  | [] => none
  | o :: rest => some ({ o with value := reward } :: rest)

/-- The stored outputs, with the reward of a template in the first one. -/
def rewardOutputs (stored : Bytes) (t : NewTemplate) : Except JDCError (List TxOut) :=
  match deserializeOutputs stored with
  | none => .error (.shutdown .channelManagerHasBadCoinbaseOutputs)
  | some outputs =>
      match withReward t.coinbaseTxValueRemaining outputs with
      | none => .error (.panic .indexOutOfBounds)
      | some outputs => .ok outputs

/-- The constraints for the outputs of a token: their size, and the sigop cost of a coinbase that
holds them. -/
def coinbaseOutputConstraints (outputs : List TxOut) : CoinbaseOutputConstraints where
  coinbaseOutputMaxAdditionalSize := UInt32.ofNat (outputs.map TxOut.size).sum
  coinbaseOutputMaxAdditionalSigops :=
    UInt16.ofNat (4 * (outputs.map fun o => Consensus.countSigopsLegacy o.scriptPubkey).sum)

/-! ### The state

`channel?` looks up a downstream channel, `setChannel` and `modifyDownstream` write it back. The
lemmas say which channels an update leaves alone. -/

/-- `Downstream`. The flag is set by `SetupConnection`, before the first mining message. -/
structure Downstream (api : ChannelsSv2) where
  requireStdJob : Bool
  groupChannel : api.Group
  /-- `standard_channels` and `extended_channels`. -/
  channels : ChannelKind → AList fun _ : ChannelId => api.Channel
  channelIdFactory : ChannelId

/-- `ChannelManager`. -/
structure ChannelManager (api : ChannelsSv2) where
  mode : JDMode
  upstreamState : UpstreamState
  downstream : AList fun _ : DownstreamId => Downstream api
  downstreamIdFactory : DownstreamId
  extranonceAllocator : ExtranonceAllocator
  requestIdFactory : RequestId
  sequenceNumberFactory : UInt32
  lastFutureTemplate : Option NewTemplate
  lastNewPrevHash : Option SetNewPrevHash
  allocateTokens : List AllocateMiningJobTokenSuccess
  templateStore : TemplateId → Option NewTemplate
  lastDeclareJobStore : List (RequestId × DeclaredJob)
  templateIdToUpstreamJobId : TemplateId → Option JobId
  /-- `downstream_channel_id_and_job_id_to_template_id`. -/
  jobTemplateId : DownstreamId × ChannelId × JobId → Option TemplateId
  coinbaseOutputs : Bytes
  upstreamChannel : Option api.Upstream
  pendingDownstreamRequests : List PendingChannelRequest
  jobFactory : Option api.JobFactory
  /-- The channels with a vardiff entry. -/
  vardiff : DownstreamId × ChannelId → Bool
  cachedShares : TemplateId → Option (List SharesOrderedByDiff)
  reservedDownstreamRollableExtranonceSize : Nat

/-- What a handler returns. -/
abbrev Handled (api : ChannelsSv2) := Outcome (ChannelManager api) Note JDCError

namespace ChannelManager

variable {api : ChannelsSv2}

/-- `ChannelManager::new`. The mode of the configuration is activated later. -/
def new (coinbaseOutputs : Bytes) (reserved : Nat) : ChannelManager api where
  mode := .soloMining
  upstreamState := .soloMining
  downstream := ∅
  downstreamIdFactory := 0
  extranonceAllocator := ⟨[], soloFullExtranonceSize⟩
  requestIdFactory := 0
  sequenceNumberFactory := 1
  lastFutureTemplate := none
  lastNewPrevHash := none
  allocateTokens := []
  templateStore := fun _ => none
  lastDeclareJobStore := []
  templateIdToUpstreamJobId := fun _ => none
  jobTemplateId := fun _ => none
  coinbaseOutputs := coinbaseOutputs
  upstreamChannel := none
  pendingDownstreamRequests := []
  jobFactory := none
  vardiff := fun _ => false
  cachedShares := fun _ => none
  reservedDownstreamRollableExtranonceSize := reserved

/-- The prefix of the upstream channel. -/
def upstreamPrefix (s : ChannelManager api) : Bytes :=
  match s.upstreamChannel with
  | some u => api.upstreamPrefix u
  | none => []

/-- A channel of a registered downstream. -/
def channel? (s : ChannelManager api) (d : DownstreamId) (k : ChannelKind) (c : ChannelId) :
    Option api.Channel :=
  match s.downstream.lookup d with
  | none => none
  | some ds => (ds.channels k).lookup c

/-- Change a registered downstream. -/
def modifyDownstream (s : ChannelManager api) (d : DownstreamId)
    (f : Downstream api → Downstream api) : ChannelManager api :=
  { s with downstream := match s.downstream.lookup d with
      | none => s.downstream
      | some ds => s.downstream.insert d (f ds) }

/-- Put a channel back, or in. -/
def setChannel (s : ChannelManager api) (d : DownstreamId) (k : ChannelKind) (c : ChannelId)
    (ch : api.Channel) : ChannelManager api :=
  s.modifyDownstream d fun ds =>
    { ds with channels := update ds.channels k ((ds.channels k).insert c ch) }

def setGroup (s : ChannelManager api) (d : DownstreamId) (g : api.Group) : ChannelManager api :=
  s.modifyDownstream d fun ds => { ds with groupChannel := g }

/-- What is found after an update is the old downstream, or the updated one. -/
theorem lookup_modifyDownstream {s : ChannelManager api} {d d' : DownstreamId}
    {f : Downstream api → Downstream api} {ds : Downstream api}
    (h : (s.modifyDownstream d f).downstream.lookup d' = some ds) :
    s.downstream.lookup d' = some ds ∨
      d' = d ∧ ∃ old, s.downstream.lookup d = some old ∧ ds = f old := by
  simp only [modifyDownstream] at h
  split at h
  · exact .inl h
  · rename_i old hold
    by_cases hd : d' = d
    · subst hd
      rw [AList.lookup_insert] at h
      exact .inr ⟨rfl, old, hold, (Option.some.inj h).symm⟩
    · rw [AList.lookup_insert_ne hd] at h
      exact .inl h

/-- A channel is found in the map of its downstream. -/
theorem channel?_eq_some {s : ChannelManager api} {d : DownstreamId} {k : ChannelKind}
    {c : ChannelId} {ch : api.Channel} :
    s.channel? d k c = some ch ↔
      ∃ ds, s.downstream.lookup d = some ds ∧ (ds.channels k).lookup c = some ch := by
  unfold channel?
  cases s.downstream.lookup d <;> simp

/-- A change that keeps the channels of a downstream. -/
theorem channel?_modifyDownstream {s : ChannelManager api} {d d' : DownstreamId} {k : ChannelKind}
    {c : ChannelId} {f : Downstream api → Downstream api} {ch : api.Channel}
    (hf : ∀ ds, (f ds).channels = ds.channels)
    (h : (s.modifyDownstream d f).channel? d' k c = some ch) : s.channel? d' k c = some ch := by
  obtain ⟨ds, hds, hch⟩ := channel?_eq_some.mp h
  rcases lookup_modifyDownstream hds with hold | ⟨rfl, old, hold, rfl⟩
  · exact channel?_eq_some.mpr ⟨ds, hold, hch⟩
  · rw [hf] at hch
    exact channel?_eq_some.mpr ⟨old, hold, hch⟩

/-- A channel after `setChannel` was there before, or is the new one. -/
theorem channel?_setChannel {s : ChannelManager api} {d d' : DownstreamId} {k k' : ChannelKind}
    {c c' : ChannelId} {ch ch' : api.Channel}
    (h : (s.setChannel d k c ch).channel? d' k' c' = some ch') :
    s.channel? d' k' c' = some ch' ∨ k' = k ∧ ch' = ch := by
  obtain ⟨ds, hds, hch⟩ := channel?_eq_some.mp h
  rcases lookup_modifyDownstream hds with hold | ⟨rfl, old, hold, rfl⟩
  · exact .inl (channel?_eq_some.mpr ⟨ds, hold, hch⟩)
  · by_cases hk : k' = k
    · subst hk
      simp only [Function.update_self] at hch
      by_cases hc : c' = c
      · subst hc
        rw [AList.lookup_insert] at hch
        exact .inr ⟨rfl, (Option.some.inj hch).symm⟩
      · rw [AList.lookup_insert_ne hc] at hch
        exact .inl (channel?_eq_some.mpr ⟨old, hold, hch⟩)
    · simp only [Function.update_of_ne hk] at hch
      exact .inl (channel?_eq_some.mpr ⟨old, hold, hch⟩)

/-- The channel that was replaced is the new one. -/
theorem channel?_setChannel_self {s : ChannelManager api} {d : DownstreamId} {k : ChannelKind}
    {c : ChannelId} {old ch : api.Channel} (h : s.channel? d k c = some old) :
    (s.setChannel d k c ch).channel? d k c = some ch := by
  obtain ⟨ds, hds, -⟩ := channel?_eq_some.mp h
  simp [channel?, setChannel, modifyDownstream, hds]

/-- The channel ids of a downstream's channels of one kind. -/
def channelIds (s : ChannelManager api) (d : DownstreamId) (k : ChannelKind) : List ChannelId :=
  match s.downstream.lookup d with
  | none => []
  | some ds => (ds.channels k).keys

/-- A channel that is found is visited by the loops. -/
theorem mem_channelIds {s : ChannelManager api} {d : DownstreamId} {k : ChannelKind} {c : ChannelId}
    {ch : api.Channel} (h : s.channel? d k c = some ch) :
    d ∈ s.downstream.keys ∧ c ∈ s.channelIds d k := by
  obtain ⟨ds, hds, hch⟩ := channel?_eq_some.mp h
  refine ⟨AList.lookup_isSome.mp (by rw [hds]; rfl), ?_⟩
  simp only [channelIds, hds]
  exact AList.lookup_isSome.mp (by rw [hch]; rfl)

/-- Remember the template of a channel's job. -/
def mapJob (s : ChannelManager api) (d : DownstreamId) (c : ChannelId) (j : JobId)
    (t : TemplateId) :
    ChannelManager api :=
  { s with jobTemplateId := update s.jobTemplateId (d, c, j) (some t) }

/-- Remember the template of a job that several channels have. -/
def mapJobs (s : ChannelManager api) (d : DownstreamId) (cs : List ChannelId) (j : JobId)
    (t : TemplateId) : ChannelManager api :=
  { s with jobTemplateId := fun key =>
      if key.1 = d ∧ key.2.1 ∈ cs ∧ key.2.2 = j then some t else s.jobTemplateId key }

def declaredJob? (s : ChannelManager api) (r : RequestId) : Option DeclaredJob :=
  s.lastDeclareJobStore.lookup r

def storeDeclaredJob (s : ChannelManager api) (r : RequestId) (job : DeclaredJob) :
    ChannelManager api :=
  { s with lastDeclareJobStore := (r, job) :: s.lastDeclareJobStore.filter (·.1 ≠ r) }

def removeDeclaredJob (s : ChannelManager api) (r : RequestId) : ChannelManager api :=
  { s with lastDeclareJobStore := s.lastDeclareJobStore.filter (·.1 ≠ r) }

/-- `remove_downstream`. -/
def removeDownstream (s : ChannelManager api) (d : DownstreamId) : ChannelManager api :=
  { s with
    downstream := s.downstream.erase d
    jobTemplateId := fun key => if key.1 = d then none else s.jobTemplateId key
    vardiff := fun key => if key.1 = d then false else s.vardiff key }

theorem channel?_removeDownstream {s : ChannelManager api} {d d' : DownstreamId} {k : ChannelKind}
    {c : ChannelId} {ch : api.Channel}
    (h : (s.removeDownstream d).channel? d' k c = some ch) : s.channel? d' k c = some ch := by
  obtain ⟨ds, hds, hch⟩ := channel?_eq_some.mp h
  simp only [removeDownstream] at hds
  by_cases hd : d' = d
  · rw [hd, AList.lookup_erase] at hds
    cases hds
  · rw [AList.lookup_erase_ne hd] at hds
    exact channel?_eq_some.mpr ⟨ds, hds, hch⟩

/-! ### Tokens and custom jobs

At most one token is kept for the next job. `takeToken` takes it, and `allocateTokenIf` asks for
another. -/

/-- One turn of `allocate_tokens`. -/
def allocateToken (s : ChannelManager api) : Handled api :=
  ⟨{ s with requestIdFactory := s.requestIdFactory + 1 },
    [.allocateMiningJobToken s.requestIdFactory], none⟩

/-- `allocate_tokens(1)`, if a token was taken. -/
def allocateTokenIf (taken : Bool) (s : ChannelManager api) : Handled api :=
  if taken then s.allocateToken else .keep s

/-- `allocate_tokens.pop_front()` under a condition. -/
def takeToken (wanted : Bool) (s : ChannelManager api) :
    Option AllocateMiningJobTokenSuccess × ChannelManager api :=
  (if wanted then s.allocateTokens.head? else none,
    { s with allocateTokens := if wanted then s.allocateTokens.tail else s.allocateTokens })

/-- `new_custom_job` under a new request id. A job that was built is stored with the raw outputs. -/
def customJob (s : ChannelManager api) (f : api.JobFactory) (u : api.Upstream)
    (token : AllocateMiningJobTokenSuccess) (m : SetNewPrevHash) (t : NewTemplate)
    (outputs : List TxOut) : ChannelManager api × api.JobFactory × Option SetCustomMiningJob :=
  let requestId := s.requestIdFactory
  let built := api.newCustomJob f (api.upstreamChannelId u) requestId token.miningJobToken
    m.chainTip t outputs (api.upstreamFullSize u)
  ({ s with
      requestIdFactory := requestId + 1
      lastDeclareJobStore := match built.2 with
        | .error _ => s.lastDeclareJobStore
        | .ok message =>
            (s.storeDeclaredJob requestId
              ⟨none, t, some m, some message, s.coinbaseOutputs, []⟩).lastDeclareJobStore },
    built.1, built.2.toOption)

/-- The custom job of `handle_new_template` and `handle_set_new_prev_hash`: with a token, on the
upstream channel. -/
def sendCustomJob (token : Option AllocateMiningJobTokenSuccess) (m : Option SetNewPrevHash)
    (t : Option NewTemplate) (outputs : List TxOut) (s : ChannelManager api) : Handled api :=
  match token, s.upstreamChannel, m, t with
  | some token, some u, some m, some t =>
      match s.jobFactory with
      | none => .fail s (.panic (.expect "job_factory should be present"))
      | some f =>
          let r := s.customJob f u token m t outputs
          let s := { r.1 with jobFactory := some r.2.1 }
          match r.2.2 with
          | none => .keep s
          | some message => say [.setCustomMiningJob t (api.upstreamPrefix u) message] s
  | _, _, _, _ => .keep s

/-! ### Templates

A template reaches every downstream channel first. In the full-template mode it is declared when the
transaction data arrives. -/

/-- The loop body of `handle_new_template` over standard channels. -/
def newTemplateStandard (t : NewTemplate) (outputs : List TxOut) (groupJob : Job)
    (requiresStandardJobs : Bool) (d : DownstreamId) (c : ChannelId) (s : ChannelManager api) :
    Handled api :=
  match s.channel? d .standard c with
  | none => .keep s
  | some ch =>
      if requiresStandardJobs then
        match api.channel.onNewTemplate ch t outputs with
        | .error e => .fail s (.shutdown (.channelSv2 e))
        | .ok ch' =>
            let s := s.setChannel d .standard c ch'
            match api.channel.jobOf ch' t with
            | none => .fail s (.panic (.expect "job must exist"))
            | some job =>
                say [.downstream d (.newMiningJob c job)] (s.mapJob d c job.jobId t.templateId)
      else
        let s := s.mapJob d c groupJob.jobId t.templateId
        match api.onGroupChannelJob ch groupJob with
        | .error e => .fail s (.shutdown (.channelSv2 e))
        | .ok ch' => .keep (s.setChannel d .standard c ch')

/-- The loop body of `handle_new_template` over extended channels. -/
def newTemplateExtended (t : NewTemplate) (groupJob : Job) (d : DownstreamId) (c : ChannelId)
    (s : ChannelManager api) : Handled api :=
  match s.channel? d .extended c with
  | none => .keep s
  | some ch =>
      let s := s.mapJob d c groupJob.jobId t.templateId
      match api.onGroupChannelJob ch groupJob with
      | .error e => .fail s (.shutdown (.channelSv2 e))
      | .ok ch' => .keep (s.setChannel d .extended c ch')

/-- The body of the downstream loop of `handle_new_template`. -/
def newTemplateDownstream (t : NewTemplate) (outputs : List TxOut)
    (token : Option AllocateMiningJobTokenSuccess) (d : DownstreamId) (s : ChannelManager api) :
    Handled api :=
  match s.downstream.lookup d with
  | none => .keep s
  | some ds =>
      match api.group.onNewTemplate ds.groupChannel t outputs with
      | .error e => .fail s (.shutdown (.channelSv2 e))
      | .ok group =>
          let s := s.setGroup d group
          match api.group.jobOf group t with
          | none => .fail s (.panic (.expect "job must exist"))
          | some groupJob =>
              let announced : List Note :=
                if !ds.requireStdJob && !(api.members group).isEmpty then
                  [.downstream d (.newExtendedMiningJob (api.groupChannelId group) groupJob)]
                else []
              (s.sendCustomJob token s.lastNewPrevHash (some t) outputs).andThen fun s =>
                Outcome.andThen (say announced s) fun s =>
                  (forEach (newTemplateStandard t outputs groupJob ds.requireStdJob d)
                    (ds.channels .standard).keys s).andThen
                    (forEach (newTemplateExtended t groupJob d) (ds.channels .extended).keys)

/-- Whether `handle_new_template` asks for a token. -/
def wantsTemplateToken (s : ChannelManager api) (t : NewTemplate) : Bool :=
  !t.futureTemplate && s.mode = .coinbaseOnly && s.upstreamChannel.isSome &&
    s.lastNewPrevHash.isSome && s.jobFactory.isSome

/-- `handle_new_template`. -/
def handleNewTemplate (t : NewTemplate) (s : ChannelManager api) : Handled api :=
  let s := { s with
    templateStore := update s.templateStore t.templateId (some t)
    lastFutureTemplate := if t.futureTemplate then some t else s.lastFutureTemplate }
  match rewardOutputs s.coinbaseOutputs t with
  | .error e => .fail s e
  | .ok outputs =>
      let requested : List Note :=
        if s.mode = .fullTemplate then [.requestTransactionData t.templateId] else []
      let r := s.takeToken (s.wantsTemplateToken t)
      Outcome.andThen (say requested r.2) fun s =>
        collect (forEach (newTemplateDownstream t outputs r.1) s.downstream.keys s)
          (allocateTokenIf r.1.isSome)

/-- `handle_request_tx_data_success`, for a token and a template. -/
def declareJob (requestId : RequestId) (prevHash : Option SetNewPrevHash)
    (token : AllocateMiningJobTokenSuccess) (t : NewTemplate) (outputs : List TxOut)
    (transactionList : List Bytes) (excessData : Bytes) (s : ChannelManager api) : Handled api :=
  match transactionList.mapM Transaction.deserialize with
  | none => .fail s (.panic (.expect "invalid tx"))
  | some txs =>
      if maxB064K < txs.length then .fail s (.shutdown .binarySv2)
      else
        match s.upstreamChannel, s.jobFactory with
        | some u, some f =>
            let built := api.newCoinbaseTxPrefixAndSuffix f t outputs (api.upstreamFullSize u)
            let s := { s with jobFactory := some built.1 }
            match built.2 with
            | .error _ => .keep s
            | .ok (coinbaseTxPrefix, coinbaseTxSuffix) =>
                if maxB064K < coinbaseTxPrefix.length ∨ maxB064K < coinbaseTxSuffix.length then
                  .fail s (.panic (.expect "called `Result::unwrap()` on an `Err` value"))
                else
                  let message : DeclareMiningJob :=
                    ⟨requestId, token.miningJobToken, t.version, coinbaseTxPrefix,
                      coinbaseTxSuffix, txs.map fun tx => Sha256.digestTwice tx.encode, excessData⟩
                  let s := s.storeDeclaredJob requestId
                    ⟨some message, t, prevHash, none, TxOut.encodeVec outputs, transactionList⟩
                  -- a future template is declared when its previous hash arrives
                  if t.futureTemplate && prevHash.map (·.templateId) ≠ some t.templateId then
                    .keep s
                  else say [.declareMiningJob t (api.upstreamPrefix u) message] s
        | _, _ => .keep s

/-- `handle_request_tx_data_success`. -/
def handleRequestTxDataSuccess (templateId : TemplateId) (transactionList : List Bytes)
    (excessData : Bytes) (s : ChannelManager api) : Handled api :=
  match deserializeOutputs s.coinbaseOutputs with
  | none => .fail s (.shutdown .channelManagerHasBadCoinbaseOutputs)
  | some outputs =>
      let token := s.allocateTokens.head?
      let template := s.templateStore templateId
      let requestId := s.requestIdFactory
      let s := { s with
        allocateTokens := s.allocateTokens.tail
        templateStore := update s.templateStore templateId none
        requestIdFactory := requestId + 1 }
      s.allocateToken.andThen fun s =>
        match token with
        | none => .keep s
        | some token =>
            match template with
            | none => .fail s (.log (.templateNotFound templateId))
            | some t =>
                match withReward t.coinbaseTxValueRemaining outputs with
                | none => .fail s (.panic .indexOutOfBounds)
                | some outputs =>
                    s.declareJob requestId s.lastNewPrevHash token t outputs transactionList
                      excessData

/-! ### Previous hashes

A previous hash activates the future job of every channel. The declaration of the last future
template is completed with it. -/

/-- The loop body of `handle_set_new_prev_hash` over channels: standard channels are told when the
downstream requires standard jobs. -/
def prevHashChannel (m : SetNewPrevHash) (requiresStandardJobs : Bool) (d : DownstreamId)
    (k : ChannelKind) (c : ChannelId) (s : ChannelManager api) : Handled api :=
  match s.channel? d k c with
  | none => .keep s
  | some ch =>
      match api.channel.onSetNewPrevHash ch m with
      | .error e => .fail s (.fallback (.channelSv2 e))
      | .ok ch' =>
          let s := s.setChannel d k c ch'
          match k with
          | .extended => .keep s
          | .standard =>
              if requiresStandardJobs then
                match api.channel.activeJob ch' with
                | none => .fail s (.panic (.expect "active job must exist"))
                | some job =>
                    say [.downstream d
                        (.setNewPrevHash c job.jobId m.prevHash m.headerTimestamp m.nBits)]
                      (s.mapJob d c job.jobId m.templateId)
              else .keep s

/-- The body of the downstream loop of `handle_set_new_prev_hash`. -/
def prevHashDownstream (m : SetNewPrevHash) (d : DownstreamId) (s : ChannelManager api) :
    Handled api :=
  match s.downstream.lookup d with
  | none => .keep s
  | some ds =>
      match api.group.onSetNewPrevHash ds.groupChannel m with
      | .error e => .fail s (.fallback (.channelSv2 e))
      | .ok group =>
          let s := s.setGroup d group
          match api.group.activeJob group with
          | none => .fail s (.panic (.expect "active job must exist"))
          | some job =>
              let announced : Handled api :=
                if !ds.requireStdJob && !(api.members group).isEmpty then
                  say [.downstream d (.setNewPrevHash (api.groupChannelId group) job.jobId
                      m.prevHash m.headerTimestamp m.nBits)]
                    ((s.mapJobs d (ds.channels .standard).keys job.jobId m.templateId).mapJobs d
                      (ds.channels .extended).keys job.jobId m.templateId)
                else .keep s
              announced.andThen fun s =>
                (forEach (prevHashChannel m ds.requireStdJob d .standard)
                  (ds.channels .standard).keys s).andThen
                  (forEach (prevHashChannel m ds.requireStdJob d .extended)
                    (ds.channels .extended).keys)

/-- The declared job of the last future template, the last one that the loop over the store
visits. -/
def futureDeclaredJob (s : ChannelManager api) : Option DeclaredJob :=
  ((s.lastDeclareJobStore.filter fun e =>
    some e.2.template.templateId = s.lastFutureTemplate.map (·.templateId)).map (·.2)).getLast?

/-- The future job is stored, and it is for the last future template. -/
theorem mem_futureDeclaredJob {s : ChannelManager api} {job : DeclaredJob}
    (h : s.futureDeclaredJob = some job) :
    ∃ r, (r, job) ∈ s.lastDeclareJobStore ∧
      some job.template.templateId = s.lastFutureTemplate.map (·.templateId) := by
  obtain ⟨e, he, rfl⟩ := List.mem_map.mp (List.mem_of_getLast? h)
  obtain ⟨hmem, hid⟩ := List.mem_filter.mp he
  exact ⟨e.1, hmem, by simpa using hid⟩

theorem futureDeclaredJob_eq_none {s : ChannelManager api} :
    s.futureDeclaredJob = none ↔ ∀ e ∈ s.lastDeclareJobStore,
      some e.2.template.templateId ≠ s.lastFutureTemplate.map (·.templateId) := by
  simp [futureDeclaredJob]

/-- The declaration that `handle_set_new_prev_hash` sends in full-template mode. -/
def declareFuture (s : ChannelManager api) : List Note :=
  if s.mode = .fullTemplate then
    match s.futureDeclaredJob with
    | some ⟨some message, t, _, _, _, _⟩ => [.declareMiningJob t s.upstreamPrefix message]
    | _ => []
  else []

/-- The state part of `handle_set_new_prev_hash`. -/
def applyPrevHash (m : SetNewPrevHash) (s : ChannelManager api) : ChannelManager api :=
  { s with
    cachedShares := fun _ => none
    upstreamChannel := s.upstreamChannel.map fun u => api.onChainTipUpdate u m.chainTip
    lastNewPrevHash := some m
    lastDeclareJobStore := s.lastDeclareJobStore.map fun e => (e.1, e.2.activate m) }

/-- `handle_set_new_prev_hash`. -/
def handleSetNewPrevHash (m : SetNewPrevHash) (s : ChannelManager api) : Handled api :=
  match deserializeOutputs s.coinbaseOutputs with
  | none => .fail s (.shutdown .channelManagerHasBadCoinbaseOutputs)
  | some outputs =>
      let r := (s.applyPrevHash m).takeToken
        (s.mode = .coinbaseOnly && s.lastFutureTemplate.isSome)
      Outcome.andThen (say s.declareFuture r.2) fun s =>
        collect ((s.sendCustomJob r.1 (some m) s.lastFutureTemplate outputs).andThen fun s =>
            forEach (prevHashDownstream m) s.downstream.keys s)
          (allocateTokenIf (r.1.isSome && s.upstreamChannel.isSome))

/-! ### The job declarator server -/

/-- `handle_allocate_mining_job_token_success`. -/
def handleAllocateMiningJobTokenSuccess (m : AllocateMiningJobTokenSuccess)
    (s : ChannelManager api) : Handled api :=
  let changed := s.coinbaseOutputs ≠ m.coinbaseOutputs
  let s := { s with
    coinbaseOutputs := m.coinbaseOutputs
    allocateTokens := s.allocateTokens ++ [m] }
  if changed then
    match deserializeOutputs m.coinbaseOutputs with
    | none => .fail s (.shutdown .bitcoinEncodeError)
    | some outputs =>
        say [.coinbaseOutputConstraints (JobDeclaratorClient.coinbaseOutputConstraints outputs)] s
  else .keep s

/-- `ERROR_CODE_DECLARE_MINING_JOB_STALE_CHAIN_TIP` and its `SetCustomMiningJob` twin. -/
def staleChainTip : String := "stale-chain-tip"

/-- `handle_declare_mining_job_error`. -/
def handleDeclareMiningJobError (errorCode : String) (s : ChannelManager api) : Handled api :=
  if errorCode = staleChainTip then .keep s else .fail s (.fallback .declareMiningJobError)

/-- `handle_declare_mining_job_success`. -/
def handleDeclareMiningJobSuccess (requestId : RequestId) (newMiningJobToken : Bytes)
    (s : ChannelManager api) : Handled api :=
  match s.declaredJob? requestId with
  | none => .fail s (.log (.lastDeclareJobNotFound requestId))
  | some job =>
      match job.prevHash with
      | none => .fail s (.log .lastNewPrevhashNotFound)
      | some prevHash =>
          match deserializeOutputs job.coinbaseOutput with
          | none => .fail s (.shutdown .channelManagerHasBadCoinbaseOutputs)
          | some outputs =>
              match s.upstreamChannel, s.jobFactory with
              | some u, some f =>
                  let built := api.newCustomJob f (api.upstreamChannelId u) requestId
                    newMiningJobToken prevHash.chainTip job.template outputs
                      (api.upstreamFullSize u)
                  let s := { s with jobFactory := some built.1 }
                  match built.2 with
                  | .error _ => .fail s (.log .failedToCreateCustomJob)
                  | .ok message =>
                      say [.setCustomMiningJob job.template (api.upstreamPrefix u) message]
                        (s.storeDeclaredJob requestId
                          { job with setCustomMiningJob := some message })
              | _, _ => .fail s (.log .failedToCreateCustomJob)

/-! ### Downstream channels -/

/-- `bootstrap_group_channel`, and the registration of the connection. It is accepted once there is
a future template and a previous hash. -/
def connect (requireStdJob : Bool) (s : ChannelManager api) : Handled api :=
  match s.lastFutureTemplate, s.lastNewPrevHash with
  | some t, some m =>
      let d := s.downstreamIdFactory
      let s := { s with downstreamIdFactory := d + 1 }
      let full := match s.upstreamChannel with
        | some u => api.upstreamFullSize u
        | none => soloFullExtranonceSize
      match api.newGroup 1 full with
      | .error _ => .fail s (.shutdown .failedToCreateGroupChannel)
      | .ok g =>
          match deserializeOutputs s.coinbaseOutputs with
          | none => .fail s (.shutdown .failedToCreateGroupChannel)
          | some outputs =>
              match withReward t.coinbaseTxValueRemaining outputs with
              -- only the task of this connection panics
              | none => .keep s
              | some outputs =>
                  match api.group.onNewTemplate g t outputs with
                  | .error _ => .fail s (.shutdown .failedToCreateGroupChannel)
                  | .ok g =>
                      match api.group.onSetNewPrevHash g m with
                      | .error _ => .fail s (.shutdown .failedToCreateGroupChannel)
                      | .ok g =>
                          .keep { s with
                            downstream := s.downstream.insert d ⟨requireStdJob, g, fun _ => ∅, 2⟩ }
  | _, _ => .keep s

/-- What `connect` changes, and the error it can end with. -/
theorem connect_spec (s : ChannelManager api) (r : Bool) :
    ∃ i ds, (s.connect r).value = { s with downstreamIdFactory := i, downstream := ds } ∧
      (s.connect r).notes = [] ∧
      ∀ e, (s.connect r).error = some e → e = .shutdown .failedToCreateGroupChannel := by
  unfold connect
  split
  · dsimp only
    split
    · exact ⟨_, _, rfl, rfl, fun e he => (Option.some.inj he).symm⟩
    · split
      · exact ⟨_, _, rfl, rfl, fun e he => (Option.some.inj he).symm⟩
      · split
        · exact ⟨_, _, rfl, rfl, nofun⟩
        · split
          · exact ⟨_, _, rfl, rfl, fun e he => (Option.some.inj he).symm⟩
          · split
            · exact ⟨_, _, rfl, rfl, fun e he => (Option.some.inj he).symm⟩
            · exact ⟨_, _, rfl, rfl, nofun⟩
  · exact ⟨_, _, rfl, rfl, nofun⟩

/-- A new downstream has no channels. -/
theorem channel?_connect {s : ChannelManager api} {r : Bool} {d : DownstreamId} {k : ChannelKind}
    {c : ChannelId} {ch : api.Channel} (h : (s.connect r).value.channel? d k c = some ch) :
    s.channel? d k c = some ch := by
  unfold connect at h
  split at h
  · dsimp only at h
    split at h
    · exact h
    · split at h
      · exact h
      · split at h
        · exact h
        · split at h
          · exact h
          · split at h
            · exact h
            · obtain ⟨ds, hds, hch⟩ := channel?_eq_some.mp h
              simp only [Outcome.keep_value] at hds
              by_cases hd : d = s.downstreamIdFactory
              · rw [hd, AList.lookup_insert] at hds
                obtain rfl := Option.some.inj hds
                simp at hch
              · rw [AList.lookup_insert_ne hd] at hds
                exact channel?_eq_some.mpr ⟨ds, hds, hch⟩
  · exact h

/-- Count a channel id. -/
def nextChannelId (s : ChannelManager api) (d : DownstreamId) : ChannelManager api :=
  s.modifyDownstream d fun ds => { ds with channelIdFactory := ds.channelIdFactory + 1 }

/-- The second half of both open handlers: the new channel gets the last future template and the
last previous hash, is registered and joins the group. -/
def activateChannel (d : DownstreamId) (k : ChannelKind) (c : ChannelId) (requestId : Nat)
    (ch : api.Channel) (t : NewTemplate) (m : SetNewPrevHash) (outputs : List TxOut)
    (joins : Bool) (size : Nat) (s : ChannelManager api) : Handled api :=
  match api.channel.onNewTemplate ch t outputs with
  | .error e => .fail s (.shutdown (.channelSv2 e))
  | .ok ch' =>
      match api.channel.futureJob ch' t.templateId with
      | none => .fail s (.panic (.expect "future job must exist"))
      | some job =>
          match api.channel.onSetNewPrevHash ch' m with
          | .error e => .fail s (.shutdown (.channelSv2 e))
          | .ok ch'' =>
              match s.downstream.lookup d with
              | none => .fail s (.disconnect (.downstreamNotFound d) d)
              | some ds =>
                  let s := ({ s with vardiff := update s.vardiff (d, c) true }.setChannel d k c
                    ch'').mapJob d c job.jobId t.templateId
                  let announced : List Note :=
                    [.downstream d (.openMiningChannelSuccess k requestId c
                        (api.groupChannelId ds.groupChannel) (api.extranoncePrefix ch)),
                      .downstream d (match k with
                        | .standard => .newMiningJob c job
                        | .extended => .newExtendedMiningJob c job),
                      .downstream d
                        (.setNewPrevHash c job.jobId m.prevHash m.headerTimestamp m.nBits)]
                  if joins then
                    match api.addChannelId ds.groupChannel c size with
                    | .error e => .fail s (.shutdown (.channelSv2 e))
                    | .ok g => say announced (s.setGroup d g)
                  else say announced s

/-- `handle_open_standard_mining_channel`. -/
def handleOpenStandardMiningChannel (d : DownstreamId) (msg : OpenMiningChannel) (slot : Nat)
    (s : ChannelManager api) : Handled api :=
  match deserializeOutputs s.coinbaseOutputs with
  | none => .fail s (.shutdown .channelManagerHasBadCoinbaseOutputs)
  | some outputs =>
      match s.lastFutureTemplate with
      | none => .fail s (.disconnect .futureTemplateNotPresent d)
      | some t =>
          match s.lastNewPrevHash with
          | none => .fail s (.disconnect .lastNewPrevhashNotFound d)
          | some m =>
              match withReward t.coinbaseTxValueRemaining outputs with
              | none => .fail s (.panic .indexOutOfBounds)
              | some outputs =>
                  match s.downstream.lookup d with
                  | none => .fail s (.disconnect (.downstreamNotFound d) d)
                  | some ds =>
                      let c := ds.channelIdFactory
                      let s := s.nextChannelId d
                      match api.allocateStandard s.extranonceAllocator slot with
                      | .error e => .fail s (.shutdown (.extranoncePrefix e))
                      | .ok p =>
                          match api.newStandard c msg p with
                          | .error (.openChannelInvalidNominalHashrate code) =>
                              say [.downstream d (.openMiningChannelError msg.requestId code)] s
                          | .error e => .fail s (.disconnect (.channelSv2 e) d)
                          | .ok ch =>
                              s.activateChannel d .standard c msg.requestId ch t m outputs
                                (!ds.requireStdJob) (api.extranoncePrefix ch).length

/-- `handle_open_extended_mining_channel`. -/
def handleOpenExtendedMiningChannel (d : DownstreamId) (msg : OpenMiningChannel) (slot : Nat)
    (s : ChannelManager api) : Handled api :=
  match s.lastFutureTemplate with
  | none => .fail s (.disconnect .futureTemplateNotPresent d)
  | some t =>
      match s.lastNewPrevHash with
      | none => .fail s (.disconnect .lastNewPrevhashNotFound d)
      | some m =>
          match s.downstream.lookup d with
          | none => .fail s (.disconnect (.downstreamNotFound d) d)
          | some ds =>
              if ds.requireStdJob then
                say [.downstream d (.openMiningChannelError msg.requestId
                  "extended-channels-not-supported-for-standard-jobs")] s
              else
                let c := ds.channelIdFactory
                let s := s.nextChannelId d
                match api.allocateExtended s.extranonceAllocator slot msg.minExtranonceSize with
                | .error _ =>
                    say [.downstream d (.openMiningChannelError msg.requestId
                      "min-extranonce-size-too-large")] s
                | .ok p =>
                    let full := match s.upstreamChannel with
                      | some u => api.upstreamFullSize u
                      | none => soloFullExtranonceSize
                    -- a `usize` subtraction, cut to a `u16`
                    let rollable := (full + 2 ^ 64 - p.length) % 2 ^ 16
                    match api.newExtended c msg p rollable with
                    | .error (.openChannelInvalidNominalHashrate code) =>
                        say [.downstream d (.openMiningChannelError msg.requestId code)] s
                    | .error e => .fail s (.disconnect (.channelSv2 e) d)
                    | .ok ch =>
                        match rewardOutputs s.coinbaseOutputs t with
                        | .error e => .fail s e
                        | .ok outputs =>
                            s.activateChannel d .extended c msg.requestId ch t m outputs true
                              (api.fullExtranonceSize ch)

/-- The mining handler of an open request. -/
def handleOpenMiningChannel (r : PendingChannelRequest) (slot : Nat) (s : ChannelManager api) :
    Handled api :=
  match r.kind with
  | .standard => s.handleOpenStandardMiningChannel r.downstreamId r.message slot
  | .extended => s.handleOpenExtendedMiningChannel r.downstreamId r.message slot

/-- The request the first open request of a downstream makes to the pool. -/
def upstreamRequest (s : ChannelManager api) (r : PendingChannelRequest) : OpenMiningChannel :=
  let reserved := s.reservedDownstreamRollableExtranonceSize
  { r.message with
    requestId := 1
    minExtranonceSize := match r.kind with
      | .standard => localPrefixBytes + reserved
      | .extended => (localPrefixBytes + max reserved r.message.minExtranonceSize) % 2 ^ 16 }

/-- The open requests in `handle_downstream_message`. -/
def handleDownstreamOpen (r : PendingChannelRequest) (slot : Nat) (s : ChannelManager api) :
    Handled api :=
  match s.upstreamState with
  | .noChannel =>
      say [.openExtendedMiningChannel (s.upstreamRequest r)]
        { s with
          pendingDownstreamRequests := r :: s.pendingDownstreamRequests
          upstreamState := .pending }
  | .pending =>
      .keep { s with pendingDownstreamRequests := s.pendingDownstreamRequests ++ [r] }
  | .connected | .soloMining => s.handleOpenMiningChannel r slot

/-- `handle_close_channel` of a downstream. -/
def handleCloseChannel (d : DownstreamId) (c : ChannelId) (s : ChannelManager api) : Handled api :=
  match s.downstream.lookup d with
  | none => .fail s (.disconnect (.downstreamNotFound d) d)
  | some ds =>
      let g := if c ∈ api.members ds.groupChannel then api.removeChannelId ds.groupChannel c
        else ds.groupChannel
      let ds := { ds with groupChannel := g, channels := fun k => (ds.channels k).erase c }
      .keep { s with
        downstream := s.downstream.insert d ds
        vardiff := update s.vardiff (d, c) false }

/-- What `handle_close_channel` changes, and the error it can end with. -/
theorem handleCloseChannel_spec (s : ChannelManager api) (d : DownstreamId) (c : ChannelId) :
    ∃ ds vardiff, (s.handleCloseChannel d c).value =
        { s with downstream := ds, vardiff := vardiff } ∧
      (s.handleCloseChannel d c).notes = [] ∧
      ∀ e, (s.handleCloseChannel d c).error = some e →
        e = .disconnect (.downstreamNotFound d) d := by
  unfold handleCloseChannel
  split
  · exact ⟨_, _, rfl, rfl, fun e he => (Option.some.inj he).symm⟩
  · exact ⟨_, _, rfl, rfl, nofun⟩

/-- Closing a channel adds none. -/
theorem channel?_handleCloseChannel {s : ChannelManager api} {d d' : DownstreamId}
    {c c' : ChannelId} {k : ChannelKind} {ch : api.Channel}
    (h : (s.handleCloseChannel d c).value.channel? d' k c' = some ch) :
    s.channel? d' k c' = some ch := by
  unfold handleCloseChannel at h
  split at h
  · exact h
  · rename_i ds hds
    obtain ⟨ds', hds', hch⟩ := channel?_eq_some.mp h
    simp only [Outcome.keep_value] at hds'
    by_cases hd : d' = d
    · subst hd
      rw [AList.lookup_insert] at hds'
      obtain rfl := Option.some.inj hds'
      by_cases hc : c' = c
      · subst hc
        rw [AList.lookup_erase] at hch
        cases hch
      · rw [AList.lookup_erase_ne hc] at hch
        exact channel?_eq_some.mpr ⟨ds, hds, hch⟩
    · rw [AList.lookup_insert_ne hd] at hds'
      exact channel?_eq_some.mpr ⟨ds', hds', hch⟩

/-! ### The upstream channel -/

/-- The channel the pool opened is closed again. -/
def giveUpUpstream (channelId : ChannelId) (s : ChannelManager api) : Handled api :=
  say [.closeUpstreamChannel channelId "downstream not available"]
    { s with upstreamState := .noChannel }

/-- `set_full_extranonce_size` on every group channel. -/
def resizeGroups (size : Nat) (s : ChannelManager api) : ChannelManager api :=
  let resize (_ : DownstreamId) (ds : Downstream api) : Outcome (Downstream api) Note JDCError :=
    .keep { ds with groupChannel := api.setFullExtranonceSize ds.groupChannel size }
  { s with downstream := (visit resize s.downstream).value }

theorem channel?_resizeGroups {s : ChannelManager api} {size : Nat} {d : DownstreamId}
    {k : ChannelKind} {c : ChannelId} {ch : api.Channel}
    (h : (s.resizeGroups size).channel? d k c = some ch) : s.channel? d k c = some ch := by
  obtain ⟨ds, hds, hch⟩ := channel?_eq_some.mp h
  obtain ⟨old, hold, rfl | rfl⟩ := visit_lookup_some hds
  · exact channel?_eq_some.mpr ⟨_, hold, hch⟩
  · exact channel?_eq_some.mpr ⟨old, hold, hch⟩

/-- Whether `handle_open_extended_mining_channel_success` asks for a token. -/
def wantsUpstreamToken (s : ChannelManager api) : Bool :=
  s.mode = .coinbaseOnly && s.jobFactory.isSome && s.lastFutureTemplate.isSome &&
    s.lastNewPrevHash.isSome

/-- The upstream channel of a success message. -/
def upstreamOf (m : OpenExtendedMiningChannelSuccess) (hashrate : UInt32)
    (s : ChannelManager api) : api.Upstream :=
  match s.lastNewPrevHash with
  | none => api.newUpstream m hashrate
  | some tip => api.onChainTipUpdate (api.newUpstream m hashrate) tip.chainTip

/-- The custom job of `handle_open_extended_mining_channel_success`, from the new job factory. -/
def upstreamCustomJob (u : api.Upstream) (token : Option AllocateMiningJobTokenSuccess)
    (outputs : List TxOut) (s : ChannelManager api) :
    ChannelManager api × api.JobFactory × Option (NewTemplate × SetCustomMiningJob) :=
  match token, s.lastNewPrevHash, s.lastFutureTemplate with
  | some token, some m, some t =>
      let r := s.customJob api.newJobFactory u token m t outputs
      (r.1, r.2.1, r.2.2.map fun message => (t, message))
  | _, _, _ => (s, api.newJobFactory, none)

/-- `handle_open_extended_mining_channel_success`. `slots` gives the allocator's slot for each
pending request. -/
def handleOpenExtendedMiningChannelSuccess (m : OpenExtendedMiningChannelSuccess)
    (slots : Nat → Nat) (s : ChannelManager api) : Handled api :=
  match deserializeOutputs s.coinbaseOutputs with
  | none => .fail s (.shutdown .declaredJobHasBadCoinbaseOutputs)
  | some outputs =>
      if m.extranonceSize < localPrefixBytes + s.reservedDownstreamRollableExtranonceSize then
        .fail s (.fallback .extranonceSizeTooSmall)
      else
        match s.pendingDownstreamRequests.head? with
        | none => s.giveUpUpstream m.channelId
        | some first =>
            let totalLen := (m.extranoncePrefix.length + m.extranonceSize) % 2 ^ 16
            match api.fromUpstreamPrefix m.extranoncePrefix (totalLen % 2 ^ 8) with
            | .error _ => s.giveUpUpstream m.channelId
            | .ok allocator =>
                let u := s.upstreamOf m first.message.nominalHashRate
                let taken := s.takeToken s.wantsUpstreamToken
                let r := taken.2.upstreamCustomJob u taken.1 outputs
                let s := resizeGroups (api.upstreamFullSize u) { r.1 with
                  extranonceAllocator := allocator
                  upstreamChannel := some u
                  jobFactory := some r.2.1
                  upstreamState := .connected }
                let requested : List Note :=
                  match s.mode, s.lastFutureTemplate with
                  | .fullTemplate, some t => [.requestTransactionData t.templateId]
                  | _, _ => []
                let custom : List Note :=
                  match r.2.2 with
                  | some (t, message) => [.setCustomMiningJob t (api.upstreamPrefix u) message]
                  | none => []
                let pending := s.pendingDownstreamRequests
                Outcome.andThen (say (requested ++ custom) s) fun s =>
                  (s.allocateTokenIf r.2.2.isSome).andThen fun s =>
                    forEach (fun r => handleOpenMiningChannel r.1 (slots r.2)) pending.zipIdx
                      { s with pendingDownstreamRequests := [] }

/-- The loop bodies of `handle_set_extranonce_prefix`. The errors they push are dropped by the
`flatten` of the sending loop. -/
def reassignPrefix (slots : DownstreamId → ChannelKind → ChannelId → Nat) (d : DownstreamId)
    (k : ChannelKind) (c : ChannelId) (s : ChannelManager api) : Handled api :=
  match s.channel? d k c with
  | none => .keep s
  | some ch =>
      let allocated := match k with
        | .standard => api.allocateStandard s.extranonceAllocator (slots d k c)
        | .extended =>
            api.allocateExtended s.extranonceAllocator (slots d k c) (api.rollableExtranonceSize ch)
      match allocated with
      | .error _ => .keep s
      | .ok p =>
          match api.setExtranoncePrefix ch p with
          | .error _ => .keep s
          | .ok ch' => say [.downstream d (.setExtranoncePrefix c p)] (s.setChannel d k c ch')

/-- `handle_set_extranonce_prefix`. `slots` gives the allocator's slot for each channel. -/
def handleSetExtranoncePrefix (p : Bytes) (slots : DownstreamId → ChannelKind → ChannelId → Nat)
    (s : ChannelManager api) : Handled api :=
  match s.upstreamChannel with
  | none => .keep s
  | some u =>
      if maxExtranonceLen < p.length then .fail s (.fallback .extranonceSizeTooLarge)
      else
        match api.setUpstreamPrefix u p with
        | .error e => .fail s (.fallback (.channelSv2 e))
        | .ok u' =>
            let s := { s with upstreamChannel := some u' }
            let full := p.length + api.upstreamRollable u'
            if maxExtranonceLen < full then .fail s (.fallback .extranonceSizeTooLarge)
            else
              match api.fromUpstreamPrefix p full with
              | .error e => .fail s (.fallback (.extranoncePrefix e))
              | .ok allocator =>
                  let s := { s with extranonceAllocator := allocator }
                  forEach (fun d s =>
                      (forEach (reassignPrefix slots d .standard) (s.channelIds d .standard)
                        s).andThen
                        fun s => forEach (reassignPrefix slots d .extended)
                          (s.channelIds d .extended) s)
                    s.downstream.keys s

end ChannelManager

end GridPoolSv2.JobDeclaratorClient
