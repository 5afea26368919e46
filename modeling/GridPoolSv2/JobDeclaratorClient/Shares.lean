import GridPoolSv2.JobDeclaratorClient.ChannelManager
import GridPoolSv2.Lib.Runs
import Mathlib.Data.List.MinMax

/-!
# JobDeclaratorClient.Shares: shares, and the client as a whole

The second half of the channel manager: shares of standard and extended channels, their
translation for the pool, the cache for shares whose custom job the pool has not accepted
yet, and the handlers that end its wait. `relayShare` is what all three ways to the pool
have in common; standard and extended channels differ in the arms of their error matches,
in the error of an oversized extranonce and in the extranonce of a solution.

`Client` is the manager in its loop. One `Event` is one message handled to its end, and
`Client.step` does with the result what the loop of `start` does. `unanswered` counts, as
ghost data, the token requests the job declarator server has not answered.
-/

namespace GridPoolSv2.JobDeclaratorClient

open Consensus (Bytes TxOut)
open Function (update)
open Visit Handler

/-- `CACHED_SHARES_CAPACITY`. -/
def cachedSharesCapacity : Nat := 100

/-- `add_share_to_cache`: a full cache keeps the lowest hashes. -/
def addShareToCache (heap : List SharesOrderedByDiff) (entry : SharesOrderedByDiff) :
    List SharesOrderedByDiff :=
  if heap.length < cachedSharesCapacity then heap ++ [entry]
  else
    match heap.argmax (·.shareHash) with
    | none => heap
    | some worst => if entry.shareHash < worst.shareHash then heap.erase worst ++ [entry] else heap

/-- The cache holds nothing but what was put into it. -/
theorem mem_addShareToCache {heap : List SharesOrderedByDiff} {entry x : SharesOrderedByDiff}
    (h : x ∈ addShareToCache heap entry) : x ∈ heap ∨ x = entry := by
  unfold addShareToCache at h
  split at h
  · simpa using h
  · split at h
    · exact .inl h
    · split at h
      · rcases List.mem_append.mp h with h | h
        · exact .inl (List.mem_of_mem_erase h)
        · exact .inr (by simpa using h)
      · exact .inl h

/-- The code an error match has an arm for; the other errors reach `unreachable!()`. The matches for
standard channels lack the arm of `BadExtranonceSize`. -/
def ShareValidationError.code (k : ChannelKind) : ShareValidationError → Option String
  | .invalid c | .stale c | .invalidJobId c | .doesNotMeetTarget c | .duplicateShare c
  | .versionRollingNotAllowed c => some c
  | .badExtranonceSize c =>
      match k with
      | .standard => none
      | .extended => some c
  | .other => none

/-- A standard share as the message it becomes; it has no extranonce of its own. -/
def SubmitSharesStandard.extended (m : SubmitSharesStandard) : SubmitSharesExtended :=
  ⟨m.channelId, m.sequenceNumber, m.jobId, m.nonce, m.ntime, m.version, []⟩

namespace ChannelManager

variable {api : ChannelsSv2}

/-- Validate a share on the upstream channel and send it. A share that found a block is sent as a
solution too, with the extranonce `solution` computes. -/
def relayShare (k : ChannelKind) (prevHash : SetNewPrevHash) (origin : Origin)
    (share : SubmitSharesExtended) (solution : api.Upstream → Bytes) (oversized : JDCError)
    (s : ChannelManager api) : Handled api :=
  match s.upstreamChannel with
  | none => .keep s
  | some u =>
      let r := api.validateUpstream u share
      let numbered := { share with sequenceNumber := s.sequenceNumberFactory }
      let s := { s with upstreamChannel := some r.1 }
      match r.2 with
      | .ok (.valid _) =>
          say [.submitSharesExtended origin numbered]
            { s with sequenceNumberFactory := s.sequenceNumberFactory + 1 }
      | .ok (.blockFound _) =>
          let s := { s with sequenceNumberFactory := s.sequenceNumberFactory + 1 }
          if maxExtranonceLen < (solution r.1).length then .fail s oversized
          else
            say [.pushSolution origin ⟨solution r.1, share.ntime, share.nonce, share.version,
                prevHash.nBits, prevHash.prevHash⟩,
              .submitSharesExtended origin numbered] s
      | .error e =>
          match e.code k with
          | none => .fail s (.panic .unreachableCode)
          | some _ => .keep s

/-- `validate_cached_share`. -/
def validateCachedShare (prevHash : SetNewPrevHash) (jobId : JobId) (entry : SharesOrderedByDiff)
    (s : ChannelManager api) : Handled api :=
  s.relayShare .extended prevHash entry.origin { entry.share with jobId := jobId }
    (fun u => api.upstreamPrefix u ++ entry.share.extranonce) (.panic (.expect "extranonce"))

/-! ### Shares of downstreams

`submitShares` is the part both handlers share: the channel validates, the answer goes to the
downstream, and `translateShare` passes on what was accepted, or puts it in the cache while the
custom job is not accepted yet. -/

/-- `with_mut_or_default` and `add_share_to_cache`. -/
def cacheShare (s : ChannelManager api) (t : TemplateId) (entry : SharesOrderedByDiff) :
    ChannelManager api :=
  { s with cachedShares :=
      update s.cachedShares t (some (addShareToCache ((s.cachedShares t).getD []) entry)) }

/-- The error of an extranonce that is too long for the upstream message. -/
def oversizedExtranonce (k : ChannelKind) (d : DownstreamId) : JDCError :=
  match k with
  | .standard => .shutdown .binarySv2
  | .extended => .disconnect .binarySv2 d

/-- The extranonce of a solution. -/
def solutionExtranonce (k : ChannelKind) (ch : api.Channel) (extranonce : Bytes)
    (u : api.Upstream) :
    Bytes :=
  match k with
  | .standard => api.extranoncePrefix ch
  | .extended => api.upstreamPrefix u ++ extranonce

/-- The second half of both share handlers: a share that is valid downstream goes to the pool, or
waits in the cache for the upstream job of its template. -/
def translateShare (k : ChannelKind) (d : DownstreamId) (prevHash : SetNewPrevHash)
    (ch : api.Channel) (msg : SubmitSharesExtended) (res : ShareValidationResult)
    (s : ChannelManager api) : Handled api :=
  match s.upstreamChannel with
  | none => .keep s
  | some u =>
      let p := api.extranoncePrefix ch
      let n := (api.upstreamPrefix u).length
      if p.length < n then .fail s (.panic .sliceOutOfRange)
      else
        let extranonce := p.drop n ++ msg.extranonce
        if maxExtranonceLen < extranonce.length then .fail s (oversizedExtranonce k d)
        else
          let share := { msg with
            channelId := api.upstreamChannelId u
            sequenceNumber := 0
            jobId := match k with
              | .standard => 0
              | .extended => msg.jobId
            extranonce := extranonce }
          let origin : Origin := ⟨res.job, msg.extranonce⟩
          let templateId := s.jobTemplateId (d, msg.channelId, msg.jobId)
          match templateId.bind s.templateIdToUpstreamJobId with
          | some jobId =>
              s.relayShare k prevHash origin { share with jobId := jobId }
                (solutionExtranonce k ch extranonce) (.shutdown .binarySv2)
          | none =>
              match templateId with
              | none => .keep s
              | some t => .keep (s.cacheShare t ⟨share, res.shareHash, origin⟩)

/-- The answer to a valid share, and the solution for the template provider. -/
def acknowledgeShare (d : DownstreamId) (ch : api.Channel) (msg : SubmitSharesExtended)
    (res : ShareValidationResult) (s : ChannelManager api) : Handled api :=
  let accounting := api.shareAccounting ch
  let success : Note := .downstream d (.submitSharesSuccess msg.channelId accounting)
  match res with
  | .valid _ _ => if accounting.shouldAcknowledge then say [success] s else .keep s
  | .blockFound _ _ templateId coinbase =>
      match templateId with
      | none => say [success] s
      | some t =>
          if maxB064K < coinbase.length then .fail s (.shutdown .binarySv2)
          else say [.submitSolution t msg.version msg.ntime msg.nonce coinbase, success] s

/-- The end of both share handlers. Without a vardiff entry the channel is closed and the collected
messages are lost; a panic is not caught. -/
def checkVardiff (d : DownstreamId) (c : ChannelId) (o : Handled api) : Handled api :=
  match o.error with
  | some ⟨.panic p, _⟩ => .fail o.value (.panic p)
  | _ =>
      if o.value.vardiff (d, c) then collect o .keep
      else say [.downstream d (.closeChannel c "invalid-channel-id")] o.value

/-- The answer changes nothing. -/
theorem acknowledgeShare_value (d : DownstreamId) (ch : api.Channel) (msg : SubmitSharesExtended)
    (res : ShareValidationResult) (s : ChannelManager api) :
    (s.acknowledgeShare d ch msg res).value = s := by
  unfold acknowledgeShare
  dsimp only
  split
  · split <;> rfl
  · split
    · rfl
    · split <;> rfl

section Rules

variable {P : ChannelManager api → Prop} {Q : Note → Prop} {R : JDCError → Prop}

/-- The rule for the acknowledgement, for any invariant of the state. -/
theorem acknowledgeShare_leaves {s : ChannelManager api} (h : P s)
    (hdownstream : ∀ d m, Q (.downstream d m))
    (hsolution : ∀ t version ntime nonce coinbase,
    Q (.submitSolution t version ntime nonce coinbase))
    (herror : R (.shutdown .binarySv2)) {d : DownstreamId} {ch : api.Channel}
    {msg : SubmitSharesExtended} {res : ShareValidationResult} :
    Leaves P Q R (s.acknowledgeShare d ch msg res) := by
  unfold acknowledgeShare
  dsimp only
  split
  · split
    · exact .say h (by simpa using hdownstream _ _)
    · exact .keep h
  · split
    · exact .say h (by simpa using hdownstream _ _)
    · split
      · exact .fail h herror
      · exact .say h (by simpa using ⟨hsolution _ _ _ _ _, hdownstream _ _⟩)

/-- The rule for the vardiff check, which turns an error of the handler into a panic. -/
theorem checkVardiff_leaves {o : Handled api} (h : Leaves P Q R o)
    (hdownstream : ∀ d m, Q (.downstream d m))
    (hpanic : ∀ p action, R ⟨.panic p, action⟩ → R (.panic p)) {d : DownstreamId}
    {c : ChannelId} : Leaves P Q R (checkVardiff d c o) := by
  unfold checkVardiff
  split
  · exact .fail h.value (hpanic _ _ (h.error _ ‹_›))
  · split
    · exact h.collect fun _ h => .keep h
    · exact .say h.value (by simpa using hdownstream _ _)

end Rules

/-- What both share handlers do, given how the channel validates the share. -/
def submitShares (k : ChannelKind) (d : DownstreamId) (msg : SubmitSharesExtended)
    (validate : api.Channel → api.Channel × Except ShareValidationError ShareValidationResult)
    (s : ChannelManager api) : Handled api :=
  match s.lastNewPrevHash with
  | none => .fail s (.disconnect .lastNewPrevhashNotFound d)
  | some prevHash =>
      match s.downstream.lookup d with
      | none => .fail s (.disconnect (.downstreamNotFound d) d)
      | some _ =>
          match s.channel? d k msg.channelId with
          | none =>
              say [.downstream d (.submitSharesError msg.channelId msg.sequenceNumber
                "invalid-channel-id")] s
          | some ch =>
              let r := validate ch
              let s := s.setChannel d k msg.channelId r.1
              checkVardiff d msg.channelId
                (match r.2 with
                | .error e =>
                    match e.code k with
                    | none => .fail s (.panic .unreachableCode)
                    | some code =>
                        say [.downstream d (.submitSharesError msg.channelId msg.sequenceNumber
                          code)] s
                | .ok res =>
                    (s.acknowledgeShare d r.1 msg res).andThen
                      (translateShare k d prevHash r.1 msg res))

/-- `handle_submit_shares_standard`. -/
def handleSubmitSharesStandard (d : DownstreamId) (m : SubmitSharesStandard)
    (s : ChannelManager api) : Handled api :=
  s.submitShares .standard d m.extended fun ch => api.validateStandard ch m

/-- `handle_submit_shares_extended`. -/
def handleSubmitSharesExtended (d : DownstreamId) (m : SubmitSharesExtended)
    (s : ChannelManager api) : Handled api :=
  s.submitShares .extended d m fun ch => api.validateExtended ch m

/-! ### The answers to a custom job

Success releases the cached shares of the job's template. After `stale-chain-tip` the job is
forgotten, any other error is a reason to leave the pool. -/

/-- `handle_set_custom_mining_job_success`. -/
def handleSetCustomMiningJobSuccess (requestId : RequestId) (jobId : JobId)
    (s : ChannelManager api) : Handled api :=
  match s.declaredJob? requestId with
  | none => .fail s (.fallback (.lastDeclareJobNotFound requestId))
  | some job =>
      let t := job.template.templateId
      let cached := s.cachedShares t
      let s := { s.removeDeclaredJob requestId with
        templateIdToUpstreamJobId := update s.templateIdToUpstreamJobId t (some jobId)
        cachedShares := update s.cachedShares t none }
      match s.upstreamChannel with
      | none => .fail s (.log .upstreamNotFound)
      | some u =>
          match job.setCustomMiningJob with
          | none => .fail s (.shutdown .customJobError)
          | some message =>
              let r := api.onSetCustomMiningJobSuccess u message jobId
              let s := { s with upstreamChannel := some r.1 }
              match r.2 with
              | some .chainTipMismatch => .fail s (.log (.channelSv2 .chainTipMismatch))
              | some e => .fail s (.fallback (.channelSv2 e))
              | none =>
                  match s.lastNewPrevHash, cached with
                  | some prevHash, some shares =>
                      collect (forEach (validateCachedShare prevHash jobId) shares s) .keep
                  | _, _ => .keep s

/-- `handle_set_custom_mining_job_error`. -/
def handleSetCustomMiningJobError (requestId : RequestId) (errorCode : String)
    (s : ChannelManager api) : Handled api :=
  if errorCode = staleChainTip then
    match s.declaredJob? requestId with
    | none => .keep s
    | some job =>
        .keep { s.removeDeclaredJob requestId with
          cachedShares := update s.cachedShares job.template.templateId none }
  else .fail s (.fallback .customJobError)

/-! ### The loop

A `Client` is the manager with the messages it has sent. `step` ignores every event once the manager
has ended. -/

/-- What `initialize_jd` does to the manager once there is an upstream: the mode of the
configuration is activated. -/
def activate (mode : JDMode) (s : ChannelManager api) : Handled api :=
  .keep { s with mode := mode }

/-- The last step of the start: `upstream_state.set(NoChannel)` and `allocate_tokens(2)`. -/
def requestInitialTokens (s : ChannelManager api) : Handled api :=
  ({ s with upstreamState := .noChannel } : ChannelManager api).allocateToken.andThen
    fun s => s.allocateToken

end ChannelManager

/-- The messages the manager handles, with the slots the extranonce allocator gives. -/
inductive Event where
  | activate (mode : JDMode)
  | requestInitialTokens
  | connect (requireStdJob : Bool)
  | disconnect (downstream : DownstreamId)
  | newTemplate (template : NewTemplate)
  | requestTxDataSuccess (templateId : TemplateId) (transactionList : List Bytes)
      (excessData : Bytes)
  | setNewPrevHash (message : SetNewPrevHash)
  | allocateMiningJobTokenSuccess (message : AllocateMiningJobTokenSuccess)
  | declareMiningJobSuccess (requestId : RequestId) (newMiningJobToken : Bytes)
  | declareMiningJobError (errorCode : String)
  | openExtendedMiningChannelSuccess (message : OpenExtendedMiningChannelSuccess)
      (slots : Nat → Nat)
  | openStandardMiningChannelSuccess
  | openMiningChannelError
  | closeUpstreamChannel
  | setExtranoncePrefix (extranoncePrefix : Bytes) (slots : DownstreamId → ChannelKind →
      ChannelId → Nat)
  | setCustomMiningJobSuccess (requestId : RequestId) (jobId : JobId)
  | setCustomMiningJobError (requestId : RequestId) (errorCode : String)
  | openMiningChannel (request : PendingChannelRequest) (slot : Nat)
  | closeChannel (downstream : DownstreamId) (channelId : ChannelId)
  | submitSharesStandard (downstream : DownstreamId) (message : SubmitSharesStandard)
  | submitSharesExtended (downstream : DownstreamId) (message : SubmitSharesExtended)

/-- Messages of the pool and of the job declarator server; in solo mode nobody reads them. -/
def Event.fromUpstream : Event → Bool
  | .allocateMiningJobTokenSuccess _ | .declareMiningJobSuccess _ _ | .declareMiningJobError _
  | .openExtendedMiningChannelSuccess _ _ | .openStandardMiningChannelSuccess
  | .openMiningChannelError | .closeUpstreamChannel | .setExtranoncePrefix _ _
  | .setCustomMiningJobSuccess _ _ | .setCustomMiningJobError _ _ => true
  | _ => false

namespace ChannelManager

variable {api : ChannelsSv2}

/-- The handler of an event. -/
def handler : Event → ChannelManager api → Handled api
  | .activate mode => activate mode
  | .requestInitialTokens => requestInitialTokens
  | .connect requireStdJob => connect requireStdJob
  | .disconnect d => fun s => .keep (s.removeDownstream d)
  | .newTemplate t => handleNewTemplate t
  | .requestTxDataSuccess t txs excess => handleRequestTxDataSuccess t txs excess
  | .setNewPrevHash m => handleSetNewPrevHash m
  | .allocateMiningJobTokenSuccess m => handleAllocateMiningJobTokenSuccess m
  | .declareMiningJobSuccess r token => handleDeclareMiningJobSuccess r token
  | .declareMiningJobError code => handleDeclareMiningJobError code
  | .openExtendedMiningChannelSuccess m slots => handleOpenExtendedMiningChannelSuccess m slots
  | .openStandardMiningChannelSuccess => fun s =>
      .fail s (.fallback .openStandardMiningChannelError)
  | .openMiningChannelError => fun s => .fail s (.fallback .openMiningChannelError)
  | .closeUpstreamChannel => fun s =>
      .fail { s with upstreamChannel := none } (.fallback .closeChannel)
  | .setExtranoncePrefix p slots => handleSetExtranoncePrefix p slots
  | .setCustomMiningJobSuccess r j => handleSetCustomMiningJobSuccess r j
  | .setCustomMiningJobError r code => handleSetCustomMiningJobError r code
  | .openMiningChannel r slot => handleDownstreamOpen r slot
  | .closeChannel d c => handleCloseChannel d c
  | .submitSharesStandard d m => handleSubmitSharesStandard d m
  | .submitSharesExtended d m => handleSubmitSharesExtended d m

/-- One turn of the loop of `start`. -/
def handle (e : Event) (s : ChannelManager api) : Handled api :=
  if s.mode = .soloMining && e.fromUpstream then .keep s else handler e s

end ChannelManager

/-- The manager in its loop. -/
structure Client (api : ChannelsSv2) where
  manager : ChannelManager api
  /-- Cleared by a fallback, a shutdown or a panic. -/
  running : Bool
  initialized : Bool
  /-- The token requests that were not answered. -/
  unanswered : List RequestId
  history : List Note
  failures : List JDCError

namespace Client

variable {api : ChannelsSv2}

/-- The manager before anything happened. -/
def start (coinbaseOutputs : Bytes) (reserved : Nat) : Client api where
  manager := .new coinbaseOutputs reserved
  running := true
  initialized := false
  unanswered := []
  history := []
  failures := []

/-- The token request of a message. -/
def tokenRequest? : Note → Option RequestId
  | .allocateMiningJobToken r => some r
  | _ => none

/-- The token requests an event leaves unanswered, before those its handler makes. In solo mode the
answer is not read. -/
def stillUnanswered (w : Client api) : Event → List RequestId
  | .allocateMiningJobTokenSuccess m =>
      if w.manager.mode = .soloMining then w.unanswered else w.unanswered.erase m.requestId
  | _ => w.unanswered

/-- `handle_error_action`, on the manager. -/
def managerAfter (o : Handled api) : ChannelManager api :=
  match o.error with
  | some ⟨_, .disconnect d⟩ => o.value.removeDownstream d
  | _ => o.value

/-- Whether the loop goes on after a handler. -/
def goesOn (o : Handled api) : Bool :=
  match o.error with
  | none | some ⟨_, .log⟩ | some ⟨_, .disconnect _⟩ => true
  | some ⟨_, .fallback⟩ | some ⟨_, .shutdown⟩ => false

/-- One event, unless the loop has ended. -/
def step (w : Client api) (e : Event) : Client api :=
  if w.running then
    let o := ChannelManager.handle e w.manager
    { manager := managerAfter o
      running := goesOn o
      initialized := match e with
        | .requestInitialTokens => true
        | _ => w.initialized
      unanswered := w.stillUnanswered e ++ o.notes.filterMap tokenRequest?
      history := w.history ++ o.notes
      failures := w.failures ++ o.error.toList }
  else w

theorem step_stopped {w : Client api} (h : w.running = false) (e : Event) : w.step e = w := by
  simp [step, h]

end Client

end GridPoolSv2.JobDeclaratorClient
