import GridPoolSv2.JobDeclarator.JobValidation
import GridPoolSv2.Lib.TxWeight

/-!
# JobDeclarator.MempoolMirror: what the node side knows of the mempool

The model of `bitcoin-core-sv2/src/unix_capnp/v31x/job_declaration_protocol`: the mirror of
the node's mempool, and what `handle_declare_mining_job` answers to the engine.

* The mirror keeps the transactions of the templates it has seen **since the tip changed**
  and those the clients provided. A template with another previous hash clears it, one with
  the same hash only adds to it.
* A request is answered from one or two **samples** of the mirror: the first when the
  request is taken up, the second after a rejection by `checkBlock`. `NodeAnswer` keeps the
  samples, `NodeAnswer.response` is the message the engine gets.
* The hash of transactions is the parameter `hash`, as in the engine.
-/

namespace GridPoolSv2.JobDeclarator

open Consensus (Bytes Transaction)
open Function (update)

/-- The parts of a template's block the mirror reads. -/
structure Template where
  prevHash : Bytes
  bits : UInt32
  time : UInt32
  coinbase : Transaction
  transactions : List Transaction
  deriving Repr, DecidableEq

/-- `decode_bip34_height_from_coinbase_script_sig`: a small-integer opcode, or a push of at most
four bytes. -/
def decodeBip34Height : Bytes → Option Nat
  | [] => none
  | first :: rest =>
      if first = 0x00 then some 0
      else if 0x51 ≤ first ∧ first ≤ 0x60 then some (first - 0x50).toNat
      else if 4 < first.toNat ∨ rest.length < first.toNat then none
      else some (Consensus.leNat (rest.take first.toNat))

/-- The height a coinbase claims; its lock time where the script signature shows none. -/
def bip34Height (coinbase : Transaction) : Nat :=
  (coinbase.input.head?.bind fun input => decodeBip34Height input.scriptSig).getD coinbase.lockTime

/-- `MempoolMirror`, once it has seen a template. -/
structure MempoolMirror where
  txdata : Bytes → Option Transaction
  context : ValidationContext
  bip34Height : Nat

/-- The transactions, under their witness hash. -/
def insertTxs (hash : Bytes → Bytes) (txdata : Bytes → Option Transaction)
    (txs : List Transaction) : Bytes → Option Transaction :=
  txs.foldl (fun txdata tx => update txdata (hash tx.encode) (some tx)) txdata

namespace MempoolMirror

/-- The mirror after `update`, with the transactions that stay. -/
def refilled (hash : Bytes → Bytes) (txdata : Bytes → Option Transaction) (t : Template) :
    MempoolMirror where
  txdata := insertTxs hash txdata t.transactions
  context := ⟨t.prevHash, t.bits, t.time⟩
  bip34Height := JobDeclarator.bip34Height t.coinbase

/-- `MempoolMirror::new` and the first `update`. -/
def bootstrap (hash : Bytes → Bytes) (t : Template) : MempoolMirror :=
  refilled hash (fun _ => none) t

/-- `MempoolMirror::update`. -/
def update (hash : Bytes → Bytes) (m : MempoolMirror) (t : Template) : MempoolMirror :=
  refilled hash (if m.context.prevHash = t.prevHash then m.txdata else fun _ => none) t

/-- `MempoolMirror::add_transactions`. -/
def addTransactions (hash : Bytes → Bytes) (m : MempoolMirror) (txs : List Transaction) :
    MempoolMirror :=
  { m with txdata := insertTxs hash m.txdata txs }

/-- `MempoolMirror::get_txdata`. -/
def getTxdata (m : MempoolMirror) (wtxids : List Bytes) : List Transaction :=
  wtxids.filterMap m.txdata

/-- `MempoolMirror::verify`: the wtxids that are not there. -/
def verify (m : MempoolMirror) (wtxids : List Bytes) : List Bytes :=
  wtxids.filter fun w => (m.txdata w).isNone

/-- A transaction of the mirror. -/
def Has (m : MempoolMirror) (w : Bytes) : Prop := (m.txdata w).isSome

/-- `verify` lists the declared transactions the mirror does not have. -/
theorem mem_verify {m : MempoolMirror} {wtxids : List Bytes} {w : Bytes} :
    w ∈ m.verify wtxids ↔ w ∈ wtxids ∧ ¬m.Has w := by
  rw [verify, List.mem_filter, Has, Option.isNone_iff_eq_none, Option.not_isSome_iff_eq_none]

theorem verify_eq_nil {m : MempoolMirror} {wtxids : List Bytes} :
    m.verify wtxids = [] ↔ ∀ w ∈ wtxids, m.Has w := by
  rw [List.eq_nil_iff_forall_not_mem]
  constructor
  · intro h w hw
    by_contra hnot
    exact h w (mem_verify.mpr ⟨hw, hnot⟩)
  · intro h w hw
    obtain ⟨hmem, hnot⟩ := mem_verify.mp hw
    exact hnot (h w hmem)

end MempoolMirror

section Insert

variable {hash : Bytes → Bytes} {txdata : Bytes → Option Transaction} {txs : List Transaction}

theorem insertTxs_cons (tx : Transaction) :
    insertTxs hash txdata (tx :: txs) =
      insertTxs hash (update txdata (hash tx.encode) (some tx)) txs := rfl

theorem insertTxs_keeps {w : Bytes} (h : (txdata w).isSome) :
    (insertTxs hash txdata txs w).isSome := by
  induction txs generalizing txdata with
  | nil => exact h
  | cons tx txs ih =>
      rw [insertTxs_cons]
      refine ih ?_
      by_cases hw : w = hash tx.encode
      · rw [hw, Function.update_self]
        rfl
      · rw [Function.update_of_ne hw]
        exact h

theorem insertTxs_has {tx : Transaction} (h : tx ∈ txs) :
    (insertTxs hash txdata txs (hash tx.encode)).isSome := by
  induction txs generalizing txdata with
  | nil => cases h
  | cons first txs ih =>
      rw [insertTxs_cons]
      rcases List.mem_cons.mp h with rfl | h
      · refine insertTxs_keeps ?_
        rw [Function.update_self]
        rfl
      · exact ih h

end Insert

namespace MempoolMirror

variable {hash : Bytes → Bytes} {m : MempoolMirror}

/-- A template on the same tip takes nothing away. -/
theorem Has.update {w : Bytes} (h : m.Has w) {t : Template} (ht : t.prevHash = m.context.prevHash) :
    (m.update hash t).Has w := by
  unfold MempoolMirror.update
  rw [if_pos ht.symm]
  exact insertTxs_keeps h

theorem Has.addTransactions {w : Bytes} (h : m.Has w) (txs : List Transaction) :
    (m.addTransactions hash txs).Has w :=
  insertTxs_keeps h

/-- What a client provides is found under its hash. -/
theorem has_addTransactions {tx : Transaction} {txs : List Transaction} (h : tx ∈ txs) :
    (m.addTransactions hash txs).Has (hash tx.encode) :=
  insertTxs_has h

end MempoolMirror

/-! ### The answers

What the node side found out, in the form in which it is compared again by the engine. The codes are
the ones of the source. -/

/-- `ERROR_CODE_DECLARE_MINING_JOB_STALE_CHAIN_TIP`. -/
def staleChainTipCode : String := "stale-chain-tip"

/-- `ERROR_CODE_DECLARE_MINING_JOB_INVALID_JOB`. -/
def invalidJobCode : String := "invalid-job"

/-- `ERROR_CODE_DECLARE_MINING_JOB_INTERNAL_ERROR`. -/
def internalErrorCode : String := "internal-error"

/-- The answers to a request, with the samples of the mirror they were made from. -/
inductive NodeAnswer where
  /-- Some transactions are not in the mirror. -/
  | missingTransactions (initial : MempoolMirror)
  /-- `checkBlock` accepts the block. -/
  | success (initial : MempoolMirror)
  /-- `checkBlock` rejects the block. -/
  | rejected (initial latest : MempoolMirror)
  /-- A request to Bitcoin Core fails. -/
  | internalError (initial : MempoolMirror)
  /-- The node side is gone. -/
  | channelClosed

/-- The sample taken with the request. -/
def NodeAnswer.initial? : NodeAnswer → Option MempoolMirror
  | .missingTransactions initial | .success initial | .rejected initial _
  | .internalError initial => some initial
  | .channelClosed => none

/-- The height in the declared coinbase, which the engine has rebuilt before it asks the node. -/
def declaredHeight (d : DeclareMiningJob) : Nat :=
  match getCoinbaseTx d with
  | .ok tx => bip34Height tx
  | .error _ => 0

/-- `context_drifted`: the template changed between the samples, or the declared height is
another. -/
def contextDrifted (d : DeclareMiningJob) (initial latest : MempoolMirror) : Bool :=
  initial.context.prevHash ≠ latest.context.prevHash ||
    initial.context.nbits ≠ latest.context.nbits ||
    initial.context.minNtime ≠ latest.context.minNtime ||
    initial.bip34Height ≠ latest.bip34Height ||
    declaredHeight d ≠ latest.bip34Height

/-- The response of the node side to the request for a declaration. -/
def NodeAnswer.response (hash : Bytes → Bytes) (d : DeclareMiningJob) : NodeAnswer → JdResponse
  | .missingTransactions initial =>
      .missingTransactions (initial.verify d.wtxidList) initial.context
  | .success initial =>
      .success initial.context ((initial.getTxdata d.wtxidList).map fun tx => hash tx.encodeBase)
  | .rejected initial latest =>
      .error (if contextDrifted d initial latest then staleChainTipCode else invalidJobCode)
        latest.context
  | .internalError initial => .error internalErrorCode initial.context
  | .channelClosed => .channelClosed

/-- The samples show the same template. -/
def SameTemplate (m m' : MempoolMirror) : Prop :=
  m.context = m'.context ∧ m.bip34Height = m'.bip34Height

/-- The engine compares the two contexts field by field. -/
theorem validationContextDrifted_iff {c c' : ValidationContext} :
    validationContextDrifted c c' = true ↔ c ≠ c' := by
  cases c
  cases c'
  simp only [validationContextDrifted, Bool.or_eq_true, decide_eq_true_eq, ne_eq,
    ValidationContext.mk.injEq]
  tauto

/-- The node side compares the height as well, which is no field of the context. -/
theorem contextDrifted_iff {d : DeclareMiningJob} {initial latest : MempoolMirror} :
    contextDrifted d initial latest = true ↔
      ¬SameTemplate initial latest ∨ declaredHeight d ≠ latest.bip34Height := by
  have hcontext := @validationContextDrifted_iff initial.context latest.context
  unfold validationContextDrifted at hcontext
  unfold contextDrifted SameTemplate
  rw [Bool.or_eq_true, Bool.or_eq_true, hcontext]
  simp only [decide_eq_true_eq]
  tauto

end GridPoolSv2.JobDeclarator
