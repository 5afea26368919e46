import GridPoolSv2.Lib.Consensus
import Mathlib.Data.List.AList
import Mathlib.Logic.Function.Basic

/-!
# JobDeclarator.JobValidation: the engine that checks custom jobs

The model of `jd-server/src/lib/job_declarator/job_validation/bitcoin_core_ipc.rs`. The
engine keeps a declared job until the `SetCustomMiningJob` that uses it, and reaches it
through **two maps** that all clients share: `allocatedTokenEntries` from the token a job
was declared with to the `request_id` of the declaration, and `declaredCustomJobs` from
that `request_id`, which the client chose, to the job.

* `getCoinbaseTx` can **panic**: it slices the prefix at byte 43 and subtracts without a
  check. `CoinbaseFault` keeps panics and decoding errors apart.
* `checkCustomJob` is the part of `handle_set_custom_mining_job` that compares a message
  with a declared job, in the order of the source; `checkCustomJob_eq_ok` says when it
  succeeds.
* The hash of transactions and merkle nodes is the parameter `hash`.

The answer of the node (`JdResponse`) comes from outside and is an argument of `finish`.
-/

namespace GridPoolSv2.JobDeclarator

open Consensus (Bytes TxOut TxIn Transaction)
open Function (update)

/-- `JdToken`, a `u64` counter value. -/
abbrev JdToken := Nat
abbrev RequestId := UInt32
abbrev DownstreamId := Nat

/-- `DeclareMiningJob`. -/
structure DeclareMiningJob where
  requestId : RequestId
  miningJobToken : Bytes
  version : UInt32
  coinbaseTxPrefix : Bytes
  coinbaseTxSuffix : Bytes
  wtxidList : List Bytes
  deriving Repr, DecidableEq

/-- `SetCustomMiningJob`. -/
structure SetCustomMiningJob where
  channelId : UInt32
  requestId : RequestId
  token : Bytes
  version : UInt32
  prevHash : Bytes
  minNtime : UInt32
  nbits : UInt32
  coinbaseTxVersion : UInt32
  coinbasePrefix : Bytes
  coinbaseTxInputNSequence : UInt32
  coinbaseTxOutputs : Bytes
  coinbaseTxLocktime : UInt32
  merklePath : List Bytes
  deriving Repr, DecidableEq

/-- The error codes of the replies; `node` carries a code the node chose. -/
inductive ErrorCode where
  | invalidMiningJobToken
  | internalError
  | invalidCoinbaseTx
  | invalidCoinbaseTxInput
  | staleChainTip
  | missingTxs
  | jobNotYetValidated
  | invalidNbits
  | invalidVersion
  | invalidCoinbaseTxVersion
  | invalidCoinbasePrefix
  | invalidCoinbaseTxInputNSequence
  | invalidCoinbaseTxOutputs
  | invalidCoinbaseTxLocktime
  | invalidMerklePath
  | node (code : String)
  deriving Repr, DecidableEq

/-- `ValidationContext`: the chain tip a declaration was validated on. -/
structure ValidationContext where
  prevHash : Bytes
  nbits : UInt32
  minNtime : UInt32
  deriving Repr, DecidableEq

/-- `JdResponse`, with the failure of the request or response channel. -/
inductive JdResponse where
  | success (ctx : ValidationContext) (txidList : List Bytes)
  | error (errorCode : String) (ctx : ValidationContext)
  | missingTransactions (missingWtxids : List Bytes) (ctx : ValidationContext)
  | channelClosed
  deriving Repr, DecidableEq

/-- `DeclaredCustomJob`. -/
structure DeclaredCustomJob where
  declareMiningJob : DeclareMiningJob
  validationContext : ValidationContext
  txidList : Option (List Bytes)
  validated : Bool
  deriving Repr, DecidableEq

/-- Why a coinbase could not be rebuilt. -/
inductive CoinbaseFault where
  /-- The task panics. -/
  | panic
  /-- A decoding error. -/
  | invalid
  deriving Repr, DecidableEq

/-- The bytes of a coinbase with witness marker before the length of its script signature. -/
def coinbasePrefixLen : Nat := 43

/-- `DeclaredCustomJob::get_coinbase_tx`: the declared coinbase with a zero extranonce, whose size
follows from the declared length of the script signature. -/
def getCoinbaseTx (d : DeclareMiningJob) : Except CoinbaseFault Transaction :=
  let pre := d.coinbaseTxPrefix
  if pre.length < coinbasePrefixLen then .error .panic
  else
    match Consensus.decodeVarInt (pre.drop coinbasePrefixLen) with
    | none => .error .invalid
    | some (scriptSigSize, _) =>
        let varintSize := (Consensus.encodeVarInt scriptSigSize).length
        let scriptSigBytesInPrefix := pre.length - (coinbasePrefixLen + varintSize)
        let fullExtranonceSize := scriptSigSize - scriptSigBytesInPrefix
        -- the subtraction underflows, or the zero extranonce is too large for a `Vec`
        if scriptSigSize < scriptSigBytesInPrefix ∨ 2 ^ 63 ≤ fullExtranonceSize then .error .panic
        else
          match Transaction.decode
              (pre ++ List.replicate fullExtranonceSize 0 ++ d.coinbaseTxSuffix) with
          | none => .error .invalid
          | some (tx, _) => .ok tx

/-- One level of the merkle tree; the last hash of an odd level is paired with itself. -/
def nextLevel (hash : Bytes → Bytes) : List Bytes → List Bytes
  | a :: b :: rest => hash (a ++ b) :: nextLevel hash rest
  | [a] => [hash (a ++ a)]
  | [] => []

/-- The siblings of the first leaf, level by level; `fuel` bounds the number of levels. -/
def merkleBranch (hash : Bytes → Bytes) : Nat → List Bytes → List Bytes
  | fuel + 1, a :: b :: rest => b :: merkleBranch hash fuel (nextLevel hash (a :: b :: rest))
  | _, _ => []

/-- `DeclaredCustomJob::get_merkle_path`. -/
def getMerklePath (hash : Bytes → Bytes) (job : DeclaredCustomJob) : Option (List Bytes) :=
  if job.validated then
    match job.txidList, getCoinbaseTx job.declareMiningJob with
    | some txids, .ok tx =>
        let hashes := hash tx.encodeBase :: txids
        some (merkleBranch hash hashes.length hashes)
    | _, _ => none
  else none

/-! ### Comparing a custom job with its declaration

The checks are in the order of the source, and each has its own error code. They are a chain of
`ensure`, so the first one that fails decides. -/

/-- An early return with an error code unless `p` holds. -/
def ensure (p : Prop) [Decidable p] (code : ErrorCode) : Except ErrorCode Unit :=
  if p then .ok () else .error code

@[simp] theorem ensure_eq_ok {p : Prop} [Decidable p] {code : ErrorCode} :
    ensure p code = .ok () ↔ p := by
  unfold ensure
  split <;> simp [*]

@[simp] theorem ensure_bind_eq_ok {p : Prop} [Decidable p] {code : ErrorCode}
    {f : Unit → Except ErrorCode Unit} : (ensure p code >>= f) = .ok () ↔ p ∧ f () = .ok () := by
  unfold ensure
  split
  · simp_all [Bind.bind, Except.bind]
  · simp_all [Bind.bind, Except.bind]

/-- The comparisons `handle_set_custom_mining_job` makes once it has found the declared job, in the
order of the source; the first that fails decides the error code. -/
def checkCustomJob (hash : Bytes → Bytes) (job : DeclaredCustomJob) (m : SetCustomMiningJob) :
    Except ErrorCode Unit := do
  ensure job.validated .jobNotYetValidated
  ensure (m.prevHash = job.validationContext.prevHash) .staleChainTip
  ensure (m.nbits = job.validationContext.nbits) .invalidNbits
  ensure (m.version = job.declareMiningJob.version) .invalidVersion
  match getCoinbaseTx job.declareMiningJob with
  | .error _ => .error .invalidCoinbaseTx
  | .ok tx =>
      ensure (tx.version = m.coinbaseTxVersion.toNat) .invalidCoinbaseTxVersion
      -- `input[0]`: a declaration with another number of inputs is never stored
      match tx.input with
      | [] => .error .invalidCoinbaseTx
      | input :: _ =>
          ensure (m.coinbasePrefix <+: input.scriptSig) .invalidCoinbasePrefix
          ensure (input.sequence = m.coinbaseTxInputNSequence.toNat)
            .invalidCoinbaseTxInputNSequence
          ensure (TxOut.encodeVec tx.output = m.coinbaseTxOutputs) .invalidCoinbaseTxOutputs
          ensure (tx.lockTime = m.coinbaseTxLocktime.toNat) .invalidCoinbaseTxLocktime
          match getMerklePath hash job with
          | none => .error .jobNotYetValidated
          | some path => ensure (path = m.merklePath) .invalidMerklePath

/-- A custom job agrees with a declared one: chain tip, version, coinbase fields, merkle path. -/
structure Agrees (hash : Bytes → Bytes) (job : DeclaredCustomJob) (tx : Transaction) (input : TxIn)
    (m : SetCustomMiningJob) : Prop where
  prevHash : m.prevHash = job.validationContext.prevHash
  nbits : m.nbits = job.validationContext.nbits
  version : m.version = job.declareMiningJob.version
  coinbaseTxVersion : tx.version = m.coinbaseTxVersion.toNat
  coinbasePrefix : m.coinbasePrefix <+: input.scriptSig
  sequence : input.sequence = m.coinbaseTxInputNSequence.toNat
  outputs : TxOut.encodeVec tx.output = m.coinbaseTxOutputs
  lockTime : tx.lockTime = m.coinbaseTxLocktime.toNat
  merklePath : getMerklePath hash job = some m.merklePath

/-- A job the engine has validated: its coinbase can be rebuilt and has the one input `input`. -/
structure Validated (job : DeclaredCustomJob) (tx : Transaction) (input : TxIn) : Prop where
  validated : job.validated = true
  coinbase : getCoinbaseTx job.declareMiningJob = .ok tx
  input : tx.input = [input]
  txidList : job.txidList.isSome

/-- All checks pass exactly if the message agrees with the declared coinbase in every field that is
compared. -/
theorem checkCustomJob_eq_ok {hash : Bytes → Bytes} {job : DeclaredCustomJob} {tx : Transaction}
    {input : TxIn} (hv : Validated job tx input) (m : SetCustomMiningJob) :
    checkCustomJob hash job m = .ok () ↔ Agrees hash job tx input m := by
  have hpath : (getMerklePath hash job).isSome := by
    obtain ⟨txids, htxids⟩ := Option.isSome_iff_exists.mp hv.txidList
    simp [getMerklePath, hv.validated, hv.coinbase, htxids]
  obtain ⟨path, hpath⟩ := Option.isSome_iff_exists.mp hpath
  unfold checkCustomJob
  simp only [hv.coinbase, hv.input, hpath, ensure_bind_eq_ok, ensure_eq_ok]
  constructor
  · rintro ⟨_, h1, h2, h3, h4, h5, h6, h7, h8, h9⟩
    exact ⟨h1, h2, h3, h4, h5, h6, h7, h8, by rw [hpath, h9]⟩
  · rintro ⟨h1, h2, h3, h4, h5, h6, h7, h8, h9⟩
    rw [hpath] at h9
    exact ⟨hv.validated, h1, h2, h3, h4, h5, h6, h7, h8, Option.some.inj h9⟩

/-! ### The engine

The two maps, with `store` and `remove` that keep them in step. A janitor forgets what is too
old. -/

/-- `AllocatedTokenEntry`. -/
structure AllocatedTokenEntry where
  requestId : RequestId
  insertedAt : Nat
  deriving Repr, DecidableEq

/-- The maps of `BitcoinCoreIPCEngine`. -/
structure Engine where
  allocatedTokenEntries : AList (fun _ : JdToken => AllocatedTokenEntry) := ∅
  declaredCustomJobs : RequestId → Option DeclaredCustomJob := fun _ => none

/-- `ALLOCATED_TOKEN_TIMEOUT_SECS`. -/
def allocatedTokenTimeoutSecs : Nat := 144 * 60 * 10

/-- `ACTIVE_TOKEN_TIMEOUT_SECS`. -/
def activeTokenTimeoutSecs : Nat := 10

/-- `validation_context_drifted`. -/
def validationContextDrifted (previous current : ValidationContext) : Bool :=
  previous.prevHash ≠ current.prevHash || previous.nbits ≠ current.nbits ||
    previous.minNtime ≠ current.minNtime

/-- The result of `handle_declare_mining_job`. -/
inductive DeclareMiningJobResult where
  | success
  | error (code : ErrorCode)
  | missingTransactions (missingWtxids : List Bytes)
  deriving Repr, DecidableEq

/-- `try_as_array::<8>` and `u64::from_le_bytes`. -/
def parseToken (token : Bytes) : Option JdToken :=
  if token.length = 8 then some (Consensus.leNat token) else none

namespace Engine

/-- Remember a declared job under its token and request id. -/
def store (e : Engine) (now : Nat) (t : JdToken) (job : DeclaredCustomJob) : Engine :=
  { declaredCustomJobs :=
      update e.declaredCustomJobs job.declareMiningJob.requestId (some job)
    allocatedTokenEntries :=
      e.allocatedTokenEntries.insert t ⟨job.declareMiningJob.requestId, now⟩ }

/-- Forget the job of a request id and the entry of a token. -/
def remove (e : Engine) (t : JdToken) (r : RequestId) : Engine :=
  { declaredCustomJobs := update e.declaredCustomJobs r none
    allocatedTokenEntries := e.allocatedTokenEntries.erase t }

/-- The checks `handle_declare_mining_job` makes before it asks the node. -/
def precheck (d : DeclareMiningJob) : Except CoinbaseFault (Option ErrorCode) :=
  match getCoinbaseTx d with
  | .error .panic => .error .panic
  | .error .invalid => .ok (some .invalidCoinbaseTx)
  | .ok tx => .ok (if tx.input.length ≠ 1 then some .invalidCoinbaseTxInput else none)

/-- What `handle_declare_mining_job` remembers of a pending declaration on a retry. -/
def previousPendingContext (e : Engine) (retry : Bool) (d : DeclareMiningJob) :
    Option ValidationContext :=
  if retry then (e.declaredCustomJobs d.requestId).map (·.validationContext) else none

/-- The rest of `handle_declare_mining_job`, once the node has answered. -/
def finish (e : Engine) (now : Nat) (t : JdToken) (d : DeclareMiningJob) (retry : Bool)
    (previous : Option ValidationContext) : JdResponse → Engine × DeclareMiningJobResult
  | .success ctx txids =>
      (e.store now t ⟨d, ctx, some txids, true⟩, .success)
  | .error code ctx =>
      let tipDrifted := previous.any (validationContextDrifted · ctx)
      (e.remove t d.requestId, .error (if tipDrifted then .staleChainTip else .node code))
  | .missingTransactions missing ctx =>
      let tipDrifted := previous.any (validationContextDrifted · ctx)
      if retry && tipDrifted then (e.remove t d.requestId, .error .staleChainTip)
      else (e.store now t ⟨d, ctx, none, false⟩, .missingTransactions missing)
  | .channelClosed => (e, .error .internalError)

/-- `handle_set_custom_mining_job` of the engine: the entry and the job are consumed whatever the
comparison says. -/
def handleSetCustomMiningJob (hash : Bytes → Bytes) (e : Engine) (m : SetCustomMiningJob)
    (t : JdToken) : Engine × Except ErrorCode Unit :=
  match e.allocatedTokenEntries.lookup t with
  | none => (e, .error .invalidMiningJobToken)
  | some entry =>
      match e.declaredCustomJobs entry.requestId with
      | none =>
          ({ e with allocatedTokenEntries := e.allocatedTokenEntries.erase t },
            .error .invalidMiningJobToken)
      | some job => (e.remove t entry.requestId, checkCustomJob hash job m)

/-- The entries the janitor finds expired. -/
def expired (e : Engine) (now : Nat) : List (JdToken × RequestId) :=
  (e.allocatedTokenEntries.entries.filter fun x =>
    allocatedTokenTimeoutSecs < now - x.2.insertedAt).map fun x => (x.1, x.2.requestId)

/-- One pass of the engine's janitor. -/
def janitor (e : Engine) (now : Nat) : Engine :=
  (e.expired now).foldl (fun e x => e.remove x.1 x.2) e

end Engine

end GridPoolSv2.JobDeclarator
