import GridPoolSv2.JobDeclarator.JobValidation
import GridPoolSv2.Lib.Runs

/-!
# JobDeclarator.Declarator: tokens, clients and runs of the job declarator

The model of `TokenManager` and `JobDeclarator`. A client asks for an **allocated** token,
declares a job with it and, on success, receives an **active** token that a later
`SetCustomMiningJob` presents.

* The messages of all clients go through one loop that handles them one after the other. A
  declaration is suspended while the node answers (`inFlight`); custom jobs, janitors and
  disconnects are served by other tasks and may fall in between.
* A handler that panics ends that loop (`jdpAlive`).
* `issued` and `presented` are **ghost** fields: the job each active token was issued for,
  and the active tokens that a `SetCustomMiningJob` has presented. No handler reads them.
-/

namespace GridPoolSv2.JobDeclarator

open Consensus (Bytes TxOut)
open Function (update)

/-! ### The token manager -/

/-- `TokenManager`. -/
structure TokenManager where
  tokenFactory : JdToken := 0
  /-- Insertion time and owner. -/
  allocatedTokens : JdToken → Option (Nat × DownstreamId) := fun _ => none
  /-- Allocated token, activation time and owner. -/
  activeTokens : JdToken → Option (JdToken × Nat × DownstreamId) := fun _ => none

namespace TokenManager

/-- `TokenManager::allocate`. -/
def allocate (tm : TokenManager) (now : Nat) (c : DownstreamId) : TokenManager × JdToken :=
  ({ tm with
      tokenFactory := tm.tokenFactory + 1
      allocatedTokens := update tm.allocatedTokens tm.tokenFactory (some (now, c)) },
    tm.tokenFactory)

/-- `TokenManager::deallocate`. -/
def deallocate (tm : TokenManager) (t : JdToken) : TokenManager :=
  { tm with allocatedTokens := update tm.allocatedTokens t none }

/-- `TokenManager::is_allocated`. -/
def isAllocated (tm : TokenManager) (t : JdToken) (c : DownstreamId) : Bool :=
  (tm.allocatedTokens t).any (·.2 == c)

/-- `TokenManager::activate`; the allocated token need not be there any more. -/
def activate (tm : TokenManager) (now : Nat) (t : JdToken) (c : DownstreamId) :
    TokenManager × JdToken :=
  ({ tokenFactory := tm.tokenFactory + 1
     allocatedTokens := update tm.allocatedTokens t none
     activeTokens := update tm.activeTokens tm.tokenFactory (some (t, now, c)) },
    tm.tokenFactory)

/-- `TokenManager::deactivate`. -/
def deactivate (tm : TokenManager) (active : JdToken) : TokenManager :=
  { tm with activeTokens := update tm.activeTokens active none }

/-- `TokenManager::allocated_from_active`. -/
def allocatedFromActive (tm : TokenManager) (active : JdToken) : Option JdToken :=
  (tm.activeTokens active).map (·.1)

/-- `TokenManager::remove_downstream`: active tokens outlive their client. -/
def removeDownstream (tm : TokenManager) (c : DownstreamId) : TokenManager :=
  { tm with allocatedTokens := fun t => (tm.allocatedTokens t).filter (·.2 ≠ c) }

/-- One pass of the token janitor. -/
def janitor (tm : TokenManager) (now : Nat) : TokenManager :=
  { tm with
    allocatedTokens := fun t =>
      (tm.allocatedTokens t).filter fun x => now - x.1 ≤ allocatedTokenTimeoutSecs
    activeTokens := fun t =>
      (tm.activeTokens t).filter fun x => now - x.2.1 ≤ activeTokenTimeoutSecs }

end TokenManager

/-! ### The declarator -/

/-- The replies to a client. -/
inductive Reply where
  | allocateMiningJobTokenSuccess (requestId : RequestId) (token : JdToken)
      (coinbaseOutputs : Bytes)
  | declareMiningJobSuccess (requestId : RequestId) (newMiningJobToken : JdToken)
  | declareMiningJobError (requestId : RequestId) (code : ErrorCode)
  | provideMissingTransactions (requestId : RequestId) (unknownTxPositionList : List Nat)
  deriving Repr, DecidableEq

/-- A connected client: its declarations that wait for missing transactions. -/
structure Client where
  pendingDeclareMiningJobs : RequestId → Option (Nat × DeclareMiningJob) := fun _ => none

/-- A declaration the node has been asked about. -/
structure InFlight where
  client : DownstreamId
  declaration : DeclareMiningJob
  token : JdToken
  retry : Bool
  previous : Option ValidationContext
  deriving Repr, DecidableEq

/-- **Ghost.** The job an active token was issued for, and when. -/
structure Issued where
  job : DeclaredCustomJob
  issuedAt : Nat
  deriving Repr, DecidableEq

/-- The state of the job declarator. -/
structure Declarator where
  coinbaseRewardScript : Bytes
  clock : Nat := 0
  tokenManager : TokenManager := {}
  engine : Engine := {}
  clients : DownstreamId → Option Client := fun _ => none
  jdpAlive : Bool := true
  inFlight : Option InFlight := none
  /-- Replies sent to the clients, newest first. -/
  outbox : List (DownstreamId × Reply) := []
  /-- Ghost: what each active token was issued for. -/
  issued : JdToken → Option Issued := fun _ => none
  /-- Ghost: the active tokens that were presented since they were issued. -/
  presented : JdToken → Bool := fun _ => false

namespace Declarator

def reply (s : Declarator) (c : DownstreamId) (r : Reply) : Declarator :=
  { s with outbox := (c, r) :: s.outbox }

/-- `cleanup_downstream`. -/
def cleanupDownstream (s : Declarator) (c : DownstreamId) : Declarator :=
  { s with
    clients := update s.clients c none
    tokenManager := s.tokenManager.removeDownstream c }

/-- `handle_allocate_mining_job_token`. -/
def handleAllocateMiningJobToken (s : Declarator) (c : DownstreamId) (requestId : RequestId) :
    Declarator :=
  let (tm, token) := s.tokenManager.allocate s.clock c
  reply { s with tokenManager := tm } c
    (.allocateMiningJobTokenSuccess requestId token
      (TxOut.encodeVec [⟨0, s.coinbaseRewardScript⟩]))

/-- The start of a validation by the engine: its own checks, and the request to the node. -/
def startValidation (s : Declarator) (c : DownstreamId) (t : JdToken) (d : DeclareMiningJob)
    (retry : Bool) : Declarator :=
  match Engine.precheck d with
  | .error _ => { s with jdpAlive := false }
  | .ok (some code) =>
      reply { s with tokenManager := s.tokenManager.deallocate t } c
        (.declareMiningJobError d.requestId code)
  | .ok none =>
      { s with
        inFlight := some
          { client := c
            declaration := d
            token := t
            retry := retry
            previous := s.engine.previousPendingContext retry d } }

/-- `handle_declare_mining_job`, up to the answer of the node. -/
def handleDeclareMiningJob (s : Declarator) (c : DownstreamId) (d : DeclareMiningJob) :
    Declarator :=
  match parseToken d.miningJobToken with
  | none => s.reply c (.declareMiningJobError d.requestId .invalidMiningJobToken)
  | some t =>
      if s.tokenManager.isAllocated t c then s.startValidation c t d false
      else s.reply c (.declareMiningJobError d.requestId .invalidMiningJobToken)

/-- `handle_provide_missing_transactions_success`, up to the answer of the node. -/
def handleProvideMissingTransactionsSuccess (s : Declarator) (c : DownstreamId) (client : Client)
    (requestId : RequestId) : Declarator :=
  match client.pendingDeclareMiningJobs requestId with
  | none => s
  | some (_, d) =>
      let client := { client with
        pendingDeclareMiningJobs := update client.pendingDeclareMiningJobs requestId none }
      let s := { s with clients := update s.clients c (some client) }
      match parseToken d.miningJobToken with
      | none => { s with jdpAlive := false }
      | some t => s.startValidation c t d true

/-- The position in the declared list of each missing transaction, as `u16`. -/
def unknownTxPositions (d : DeclareMiningJob) (missing : List Bytes) : List Nat :=
  missing.filterMap fun w => (d.wtxidList.findIdx? (· = w)).map (· % 2 ^ 16)

/-- **Ghost.** The job a successful answer of the node makes of a declaration. -/
def declaredJob (d : DeclareMiningJob) : JdResponse → Option DeclaredCustomJob
  | .success ctx txids => some ⟨d, ctx, some txids, true⟩
  | _ => none

/-- What `handle_declare_mining_job` or `handle_provide_missing_transactions_success` does with the
engine's result. -/
def settle (s : Declarator) (f : InFlight) (response : JdResponse) :
    DeclareMiningJobResult → Declarator
  | .success =>
      let (tm, active) := s.tokenManager.activate s.clock f.token f.client
      reply
        { s with
          tokenManager := tm
          issued := update s.issued active
            ((declaredJob f.declaration response).map fun job => ⟨job, s.clock⟩)
          presented := update s.presented active false }
        f.client (.declareMiningJobSuccess f.declaration.requestId active)
  | .error code =>
      reply { s with tokenManager := s.tokenManager.deallocate f.token } f.client
        (.declareMiningJobError f.declaration.requestId code)
  | .missingTransactions missing =>
      -- a retry must not be missing anything
      if f.retry then
        reply { s with tokenManager := s.tokenManager.deallocate f.token } f.client
          (.declareMiningJobError f.declaration.requestId .missingTxs)
      else
        match s.clients f.client with
        | none => s.cleanupDownstream f.client
        | some client =>
            let client := { client with
              pendingDeclareMiningJobs := update client.pendingDeclareMiningJobs
                f.declaration.requestId (some (s.clock, f.declaration)) }
            reply { s with clients := update s.clients f.client (some client) } f.client
              (.provideMissingTransactions f.declaration.requestId
                (unknownTxPositions f.declaration missing))

/-- The node answers. -/
def handleNodeAnswer (s : Declarator) (f : InFlight) (response : JdResponse) : Declarator :=
  let (engine, result) :=
    s.engine.finish s.clock f.token f.declaration f.retry f.previous response
  settle { s with engine := engine, inFlight := none } f response result

/-- `JobDeclarator::handle_set_custom_mining_job`. -/
def handleSetCustomMiningJob (hash : Bytes → Bytes) (s : Declarator) (m : SetCustomMiningJob) :
    Declarator × Except ErrorCode Unit :=
  match parseToken m.token with
  | none => (s, .error .invalidMiningJobToken)
  | some active =>
      let presented := update s.presented active true
      match s.tokenManager.allocatedFromActive active with
      | none => ({ s with presented := presented }, .error .invalidMiningJobToken)
      | some t =>
          let (engine, result) := s.engine.handleSetCustomMiningJob hash m t
          ({ s with
              tokenManager := s.tokenManager.deactivate active
              engine := engine
              presented := presented },
            result)

/-- One pass of the janitor of a client's pending declarations. -/
def pendingJanitor (s : Declarator) (c : DownstreamId) : Declarator :=
  match s.clients c with
  | none => s
  | some client =>
      let pending := fun r => (client.pendingDeclareMiningJobs r).filter
        fun x => s.clock - x.1 ≤ allocatedTokenTimeoutSecs
      { s with
        clients := update s.clients c (some { client with pendingDeclareMiningJobs := pending }) }

/-! ### Runs -/

/-- What can happen next. -/
inductive Event where
  | advance (secs : Nat)
  | connect (c : DownstreamId)
  | disconnect (c : DownstreamId)
  | allocateMiningJobToken (c : DownstreamId) (requestId : RequestId)
  | declareMiningJob (c : DownstreamId) (d : DeclareMiningJob)
  | provideMissingTransactionsSuccess (c : DownstreamId) (requestId : RequestId)
  | nodeAnswer (response : JdResponse)
  | setCustomMiningJob (m : SetCustomMiningJob)
  | tokenJanitor
  | engineJanitor
  | pendingJanitor (c : DownstreamId)
  deriving Repr, DecidableEq

/-- The message loop handles a message of a connected client; a message of a client that is gone
only repeats its cleanup. While a declaration is in flight, and after a panic, messages wait. -/
def jdpMessage (s : Declarator) (c : DownstreamId) (handler : Client → Declarator) : Declarator :=
  if s.jdpAlive && s.inFlight.isNone then
    match s.clients c with
    | none => s.cleanupDownstream c
    | some client => handler client
  else s

/-- One step of the job declarator. -/
def step (hash : Bytes → Bytes) (s : Declarator) : Event → Declarator
  | .advance secs => { s with clock := s.clock + secs }
  | .connect c =>
      match s.clients c with
      | some _ => s
      | none => { s with clients := update s.clients c (some {}) }
  | .disconnect c => s.cleanupDownstream c
  | .allocateMiningJobToken c r => s.jdpMessage c fun _ => s.handleAllocateMiningJobToken c r
  | .declareMiningJob c d => s.jdpMessage c fun _ => s.handleDeclareMiningJob c d
  | .provideMissingTransactionsSuccess c r =>
      s.jdpMessage c fun client => s.handleProvideMissingTransactionsSuccess c client r
  | .nodeAnswer response =>
      match s.inFlight with
      | none => s
      | some f => s.handleNodeAnswer f response
  | .setCustomMiningJob m => (s.handleSetCustomMiningJob hash m).1
  | .tokenJanitor => { s with tokenManager := s.tokenManager.janitor s.clock }
  | .engineJanitor => { s with engine := s.engine.janitor s.clock }
  | .pendingJanitor c => s.pendingJanitor c

/-- The declarator before its first event. -/
def initial (coinbaseRewardScript : Bytes) : Declarator :=
  { coinbaseRewardScript := coinbaseRewardScript }

end Declarator

end GridPoolSv2.JobDeclarator
