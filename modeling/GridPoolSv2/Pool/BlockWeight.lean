import GridPoolSv2.Lib.Sha256
import GridPoolSv2.Lib.TxWeight
import GridPoolSv2.Pool.RpcTemplateProvider

/-!
# Pool.BlockWeight: the weight of a solved block

The model of what `RpcTemplate::from_gbt` does with the transactions of a response and of
`RpcTemplate::solution_block`. The template keeps a prefix of the node's transactions whose
weights, together with a reserve for the coinbase, fit into a block; the block of a solution
is the solved coinbase followed by these transactions.

* The reserve is `max (4 * size) 2000` for coinbase outputs of `size` bytes. It is all there
  is for the coinbase: its fixed fields, the script signature, the commitment output, the
  witness, and the transaction count of the block.
* `BuiltOn` says which coinbases belong to a template and `TrueWeights` that the node tells
  the weights of its transactions as they are.
* `withinLimit_iff` gives the sizes for which no block is overweight: up to 288 bytes the
  fixed reserve covers the rest of the coinbase, and from 65513 bytes on the reserve is
  larger than any coinbase a `SubmitSolution` can carry.

The test of the header against its target is the parameter `validatePow`.

Proof shape: both directions are arithmetic on four lengths, those of the script signature, the
added outputs, the counts and the selected transactions. `BuiltOn.base_length` and `fromGbt_ok`
give these lengths for every block, and `fillingTransactions` are transactions of any total
weight, with which the bounds are reached.
-/

namespace GridPoolSv2.Pool

open Consensus
open Payout (Text)

/-! ### Transactions of a response

A transaction comes with its hex data and a weight. The data is parsed, and the weight is
believed. -/

/-- `GetBlockTemplateTransaction`. -/
structure GetBlockTemplateTransaction where
  data : Text
  txid : Text
  hash : Text
  weight : Option UInt64
  deriving Repr, DecidableEq

/-- `GetBlockTemplate` with its transactions. -/
structure GbtResponse extends GetBlockTemplate where
  version : UInt32
  transactions : List GetBlockTemplateTransaction
  deriving Repr, DecidableEq

/-- `MAX_BLOCK_WEIGHT`. -/
def maxBlockWeight : Nat := 4000000

/-- `MIN_BLOCK_RESERVED_WEIGHT`. -/
def minBlockReservedWeight : Nat := 2000

/-- `u64::saturating_add`. -/
def saturatingAdd (a b : Nat) : Nat :=
  min (a + b) (2 ^ 64 - 1)

/-- The weight `select_transaction_prefix` counts for a transaction. -/
def countedWeight (tx : GetBlockTemplateTransaction) : Nat :=
  match tx.weight with
  | some w => w.toNat
  | none =>
      match hexDecode tx.data with
      | .ok bytes => bytes.length * 4
      | .error _ => 0

/-- The loop of `select_transaction_prefix`. -/
def selectFrom (budget : Nat) : Nat → List GetBlockTemplateTransaction → Nat
  | _, [] => 0
  | used, tx :: txs =>
      if budget < saturatingAdd used (countedWeight tx) then 0
      else selectFrom budget (saturatingAdd used (countedWeight tx)) txs + 1

/-- `select_transaction_prefix`. -/
def selectTransactionPrefix (txs : List GetBlockTemplateTransaction) (budget : Nat) : Nat :=
  selectFrom budget 320 txs

/-- The weight `from_gbt` leaves for transactions. -/
def transactionBudget (size : UInt32) : Nat :=
  maxBlockWeight - max (size.toNat * 4) minBlockReservedWeight

/-- `Txid::from_str` and `Wtxid::from_str`: 32 bytes, written in reverse. -/
def hashFromStr (text : Text) : Option Bytes :=
  match hexDecode text with
  | .ok bytes => if bytes.length = 32 then some bytes.reverse else none
  | .error _ => none

/-- A transaction `from_gbt` has checked. -/
structure SelectedTransaction where
  bytes : Bytes
  transaction : Transaction
  txid : Bytes
  wtxid : Bytes
  deriving Repr, DecidableEq

/-- What `from_gbt` does with one selected transaction. -/
def parseTransaction (hash : Bytes → Bytes) (tx : GetBlockTemplateTransaction) :
    Except String SelectedTransaction :=
  match hexDecode tx.data with
  | .error e => .error ("invalid GBT transaction hex: " ++ e)
  | .ok bytes =>
      match Transaction.deserialize bytes with
      | none => .error "invalid GBT transaction"
      | some transaction =>
          match hashFromStr tx.txid with
          | none => .error "invalid GBT txid"
          | some txid =>
              match hashFromStr tx.hash with
              | none => .error "invalid GBT wtxid"
              | some wtxid =>
                  if hash transaction.encodeBase ≠ txid ∨ hash transaction.encode ≠ wtxid then
                    .error ("GBT transaction " ++ String.ofList tx.txid ++ " hash mismatch")
                  else .ok ⟨bytes, transaction, txid, wtxid⟩

/-- The loop of `from_gbt` over the selected transactions. -/
def parseTransactions (hash : Bytes → Bytes) :
    List GetBlockTemplateTransaction → Except String (List SelectedTransaction)
  | [] => .ok []
  | tx :: txs =>
      match parseTransaction hash tx with
      | .error e => .error e
      | .ok x =>
          match parseTransactions hash txs with
          | .error e => .error e
          | .ok xs => .ok (x :: xs)

/-! ### Merkle trees -/

/-- `hash_pair`. -/
def hashPair (hash : Bytes → Bytes) (left right : Bytes) : Bytes :=
  hash (left ++ right)

/-- The next level of a merkle tree; the last node of an odd level is paired with itself. -/
def merkleLevel (hash : Bytes → Bytes) : List Bytes → List Bytes
  | a :: b :: rest => hashPair hash a b :: merkleLevel hash rest
  | [a] => [hashPair hash a a]
  | [] => []

/-- The loop of `merkle_root`; a level has at most half the nodes of the one below. -/
def merkleRootFrom (hash : Bytes → Bytes) : Nat → List Bytes → Bytes
  | _, [] => List.replicate 32 0
  | _, [a] => a
  | 0, a :: _ => a
  | fuel + 1, level => merkleRootFrom hash fuel (merkleLevel hash level)

/-- `merkle_root`. -/
def merkleRoot (hash : Bytes → Bytes) (level : List Bytes) : Bytes :=
  merkleRootFrom hash level.length level

/-- The loop of `merkle_path_for_first_leaf`. -/
def merklePathFrom (hash : Bytes → Bytes) : Nat → List Bytes → List Bytes
  | fuel + 1, a :: b :: rest => b :: merklePathFrom hash fuel (merkleLevel hash (a :: b :: rest))
  | _, _ => []

/-- `coinbase_merkle_path`. -/
def coinbaseMerklePath (hash : Bytes → Bytes) (txids : List Bytes) : List Bytes :=
  merklePathFrom hash (txids.length + 1) (List.replicate 32 0 :: txids)

/-- `apply_merkle_path`. -/
def applyMerklePath (hash : Bytes → Bytes) (leaf : Bytes) (path : List Bytes) : Bytes :=
  path.foldl (hashPair hash) leaf

theorem applyMerklePath_merklePathFrom (hash : Bytes → Bytes) (fuel : Nat) (leaf first : Bytes)
    (rest : List Bytes) :
    applyMerklePath hash leaf (merklePathFrom hash fuel (first :: rest)) =
      merkleRootFrom hash fuel (leaf :: rest) := by
  induction fuel generalizing leaf first rest with
  | zero => cases rest <;> rfl
  | succ fuel ih =>
      cases rest with
      | nil => rfl
      | cons b rest =>
          exact ih (hashPair hash leaf b) (hashPair hash first b) (merkleLevel hash rest)

/-- The path of a template leads from any coinbase to the root of the tree it is in. -/
theorem applyMerklePath_coinbaseMerklePath (hash : Bytes → Bytes) (coinbase : Bytes)
    (txids : List Bytes) :
    applyMerklePath hash coinbase (coinbaseMerklePath hash txids) =
      merkleRoot hash (coinbase :: txids) :=
  applyMerklePath_merklePathFrom hash (txids.length + 1) coinbase (List.replicate 32 0) txids

/-- `witness_commitment_output`. -/
def witnessCommitmentOutput (hash : Bytes → Bytes) (wtxids : List Bytes) : TxOut where
  value := 0
  scriptPubkey := [0x6a, 0x24, 0xaa, 0x21, 0xa9, 0xed] ++
    hash (merkleRoot hash (List.replicate 32 0 :: wtxids) ++ List.replicate 32 0)

/-! ### Templates and blocks -/

/-- `RpcTemplate` with what a block is made from. -/
structure RpcBlockTemplate extends RpcTemplate where
  version : UInt32
  requiredOutputs : List TxOut
  transactions : List Transaction
  transactionBytes : List Bytes
  merklePath : List Bytes
  deriving Repr, DecidableEq

structure Header where
  version : UInt32
  prevBlockhash : Bytes
  merkleRoot : Bytes
  time : UInt32
  bits : UInt32
  nonce : UInt32
  deriving Repr, DecidableEq

structure Block where
  header : Header
  txdata : List Transaction
  deriving Repr, DecidableEq

/-- `Block::weight`: a header of 80 bytes, the transaction count and the transactions. -/
def Block.weight (b : Block) : Nat :=
  4 * (80 + (encodeVarInt b.txdata.length).length) + (b.txdata.map Transaction.weight).sum

namespace RpcBlockTemplate

/-- `RpcTemplate::from_gbt`, for outputs of `size` additional bytes. -/
def fromGbt (hash : Bytes → Bytes) (id : TemplateId) (gbt : GbtResponse) (size : UInt32) :
    Except String RpcBlockTemplate :=
  let selected := gbt.transactions.take
    (selectTransactionPrefix gbt.transactions (transactionBudget size))
  match parseTransactions hash selected with
  | .error e => .error e
  | .ok xs =>
      match RpcTemplate.fromGbt id (.ok gbt.toGetBlockTemplate) with
      | .error e => .error e
      | .ok t =>
          .ok
            { toRpcTemplate := t
              version := gbt.version
              requiredOutputs := [witnessCommitmentOutput hash (xs.map (·.wtxid))]
              transactions := xs.map (·.transaction)
              transactionBytes := xs.map (·.bytes)
              merklePath := coinbaseMerklePath hash (xs.map (·.txid)) }

/-- `RpcTemplate::solution_block`. -/
def solutionBlock (hash : Bytes → Bytes) (validatePow : Header → Bool) (t : RpcBlockTemplate)
    (s : SubmitSolution) : Except String Block :=
  match Transaction.deserialize s.coinbaseTx with
  | none => .error "invalid solved coinbase transaction"
  | some coinbase =>
      let header : Header :=
        { version := s.version
          prevBlockhash := t.prevHash
          merkleRoot := applyMerklePath hash (hash coinbase.encodeBase) t.merklePath
          time := s.headerTimestamp
          bits := t.bits
          nonce := s.headerNonce }
      if validatePow header then .ok ⟨header, coinbase :: t.transactions⟩
      else .error "SV2 solution does not meet network target"

end RpcBlockTemplate

/-! ### The selected transactions -/

section Selection

variable {budget used : Nat} {txs : List GetBlockTemplateTransaction}

theorem saturatingAdd_of_le {a b : Nat} (hb : budget < 2 ^ 64 - 1)
    (h : ¬budget < saturatingAdd a b) : saturatingAdd a b = a + b := by
  unfold saturatingAdd at h ⊢
  omega

/-- What is selected stays within the budget, unless nothing is. -/
theorem selectFrom_fits (hb : budget < 2 ^ 64 - 1) (used : Nat)
    (txs : List GetBlockTemplateTransaction) :
    selectFrom budget used txs = 0 ∨
      used + ((txs.take (selectFrom budget used txs)).map countedWeight).sum ≤ budget := by
  induction txs generalizing used with
  | nil => exact .inl rfl
  | cons tx txs ih =>
      rw [selectFrom]
      split
      · exact .inl rfl
      · rename_i hfits
        have hadd := saturatingAdd_of_le hb hfits
        rw [hadd] at hfits ⊢
        refine .inr ?_
        rw [List.take_succ_cons, List.map_cons, List.sum_cons]
        rcases ih (used + countedWeight tx) with hzero | hsum
        · rw [hzero, List.take_zero, List.map_nil, List.sum_nil]
          omega
        · omega

theorem selectFrom_all (hb : budget < 2 ^ 64 - 1)
    (h : used + (txs.map countedWeight).sum ≤ budget) :
    selectFrom budget used txs = txs.length := by
  induction txs generalizing used with
  | nil => rfl
  | cons tx txs ih =>
      rw [List.map_cons, List.sum_cons] at h
      have hadd : saturatingAdd used (countedWeight tx) = used + countedWeight tx := by
        unfold saturatingAdd
        omega
      rw [selectFrom, hadd, if_neg (by omega), ih (by omega), List.length_cons]

theorem transactionBudget_lt (size : UInt32) : transactionBudget size < 2 ^ 64 - 1 := by
  unfold transactionBudget maxBlockWeight
  omega

end Selection

/-- The weights the node declares are those of the transactions. -/
def TrueWeights (gbt : GbtResponse) : Prop :=
  ∀ tx ∈ gbt.transactions, ∀ bytes transaction, hexDecode tx.data = .ok bytes →
    Transaction.deserialize bytes = some transaction →
      ∀ w, tx.weight = some w → w.toNat = transaction.weight

section Parsing

variable {hash : Bytes → Bytes}

theorem parseTransaction_ok {tx : GetBlockTemplateTransaction} {x : SelectedTransaction}
    (h : parseTransaction hash tx = .ok x) :
    hexDecode tx.data = .ok x.bytes ∧ Transaction.deserialize x.bytes = some x.transaction := by
  unfold parseTransaction at h
  split at h
  · cases h
  · rename_i bytes hbytes
    split at h
    · cases h
    · rename_i transaction htx
      split at h
      · cases h
      · split at h
        · cases h
        · split at h
          · cases h
          · cases h
            exact ⟨hbytes, htx⟩

/-- A transaction weighs at most what it is counted for. -/
theorem weight_le_countedWeight {tx : GetBlockTemplateTransaction} {x : SelectedTransaction}
    (h : parseTransaction hash tx = .ok x)
    (htrue : ∀ bytes transaction, hexDecode tx.data = .ok bytes →
      Transaction.deserialize bytes = some transaction →
        ∀ w, tx.weight = some w → w.toNat = transaction.weight) :
    x.transaction.weight ≤ countedWeight tx := by
  obtain ⟨hbytes, htx⟩ := parseTransaction_ok h
  unfold countedWeight
  split
  · rename_i w hw
    exact (htrue x.bytes x.transaction hbytes htx w hw).ge
  · -- without a declared weight, four times all the bytes are counted
    rw [hbytes]
    dsimp only
    have hle := x.transaction.weight_le
    rw [Transaction.encode_of_deserialize htx] at hle
    omega

/-- Weights that are told as they are add up to what was counted. -/
theorem sum_weight_le {txs : List GetBlockTemplateTransaction} {xs : List SelectedTransaction}
    (h : parseTransactions hash txs = .ok xs)
    (hle : ∀ tx ∈ txs, ∀ x, parseTransaction hash tx = .ok x →
      x.transaction.weight ≤ countedWeight tx) :
    xs.length = txs.length ∧
      (xs.map (·.transaction.weight)).sum ≤ (txs.map countedWeight).sum := by
  induction txs generalizing xs with
  | nil =>
      cases h
      exact ⟨rfl, le_rfl⟩
  | cons tx txs ih =>
      simp only [parseTransactions] at h
      split at h
      · cases h
      · rename_i x hx
        split at h
        · cases h
        · rename_i rest hrest
          cases h
          obtain ⟨htx, htxs⟩ := List.forall_mem_cons.mp hle
          obtain ⟨hlen, hsum⟩ := ih hrest htxs
          refine ⟨by rw [List.length_cons, List.length_cons, hlen], ?_⟩
          simp only [List.map_cons, List.sum_cons]
          exact Nat.add_le_add (htx x hx) hsum

end Parsing

namespace RpcBlockTemplate

variable {hash : Bytes → Bytes} {id : TemplateId} {gbt : GbtResponse} {size : UInt32}
  {t : RpcBlockTemplate}

theorem fromGbt_ok (h : fromGbt hash id gbt size = .ok t) :
    ∃ xs, parseTransactions hash (gbt.transactions.take
        (selectTransactionPrefix gbt.transactions (transactionBudget size))) = .ok xs ∧
      t.transactions = xs.map (·.transaction) ∧
      t.requiredOutputs = [witnessCommitmentOutput hash (xs.map (·.wtxid))] := by
  unfold fromGbt at h
  dsimp only at h
  split at h
  · cases h
  · rename_i xs hxs
    split at h
    · cases h
    · cases h
      exact ⟨xs, hxs, rfl, rfl⟩

/-- The full `from_gbt` makes the same messages as the one of the provider. -/
theorem fromGbt_toRpcTemplate (h : fromGbt hash id gbt size = .ok t) :
    RpcTemplate.fromGbt id (.ok gbt.toGetBlockTemplate) = .ok t.toRpcTemplate := by
  unfold fromGbt at h
  dsimp only at h
  split at h
  · cases h
  · split at h
    · cases h
    · rename_i ht
      cases h
      exact ht

/-- The transactions of a template fit under the reserve, unless there are none. -/
theorem fromGbt_weight (h : fromGbt hash id gbt size = .ok t) (htrue : TrueWeights gbt) :
    t.transactions = [] ∨
      320 + (t.transactions.map Transaction.weight).sum ≤ transactionBudget size := by
  obtain ⟨xs, hxs, htxs, _⟩ := fromGbt_ok h
  have hle : ∀ tx ∈ gbt.transactions.take
      (selectTransactionPrefix gbt.transactions (transactionBudget size)),
      ∀ x, parseTransaction hash tx = .ok x → x.transaction.weight ≤ countedWeight tx :=
    fun tx hmem x hx => weight_le_countedWeight hx (htrue tx (List.mem_of_mem_take hmem))
  obtain ⟨hlen, hsum⟩ := sum_weight_le hxs hle
  rw [htxs, List.map_map]
  rcases selectFrom_fits (transactionBudget_lt size) 320 gbt.transactions with hzero | hfits
  · refine .inl ?_
    rw [selectTransactionPrefix, hzero, List.take_zero, List.length_nil] at hlen
    rw [List.eq_nil_of_length_eq_zero hlen, List.map_nil]
  · exact .inr (le_trans (Nat.add_le_add_left hsum 320) hfits)

end RpcBlockTemplate

/-! ### The coinbase

A coinbase has one input, and its outputs are those of the template and what the pool added. -/

/-- The outpoint of a coinbase input. -/
def nullOutpoint : Bytes :=
  List.replicate 32 0 ++ List.replicate 4 0xff

/-- A coinbase transaction built on a template: its script signature starts with the template's
prefix, its outputs are the `added` ones and the required ones in some order, and its witness is the
reserved value. -/
structure BuiltOn (t : RpcBlockTemplate) (added : List TxOut) (i : TxIn) (coinbase : Transaction) :
    Prop where
  input : coinbase.input = [i]
  previousOutput : i.previousOutput = nullOutpoint
  prefixed : t.coinbasePrefix <+: i.scriptSig
  scriptSig : i.scriptSig.length ≤ 100
  witness : i.witness = [List.replicate 32 0]
  output : coinbase.output.Perm (added ++ t.requiredOutputs)

/-- The size of an output is the length of its encoding. -/
theorem encode_length_eq_size (o : TxOut) : o.encode.length = o.size := by
  simp only [TxOut.encode, TxOut.size, List.length_append, leBytes_length]

theorem flatMap_encode_length (outs : List TxOut) :
    (outs.flatMap TxOut.encode).length = (outs.map TxOut.size).sum := by
  rw [List.length_flatMap]
  congr 1
  exact List.map_congr_left fun o _ => encode_length_eq_size o

theorem encodeVarInt_length_short {x : Nat} (h : x < 0xFD) : (encodeVarInt x).length = 1 := by
  rw [encodeVarInt, if_pos h, List.length_singleton]

/-- A count below 2^32 has at most five bytes. -/
theorem encodeVarInt_length_le {x : Nat} (h : x < 2 ^ 32) : (encodeVarInt x).length ≤ 5 := by
  unfold encodeVarInt
  split_ifs <;> simp only [List.length_cons, List.length_nil, leBytes_length] <;> omega

section Coinbase

variable {hash : Bytes → Bytes} {id : TemplateId} {gbt : GbtResponse} {size : UInt32}
  {t : RpcBlockTemplate} {added : List TxOut} {i : TxIn} {coinbase : Transaction}

/-- The size of a coinbase without witness: the fixed fields with the commitment output take 97
bytes. -/
theorem BuiltOn.base_length (hlen : ∀ bytes, (hash bytes).length = 32)
    (ht : RpcBlockTemplate.fromGbt hash id gbt size = .ok t) (h : BuiltOn t added i coinbase) :
    coinbase.encodeBase.length = 97 + i.scriptSig.length +
      (encodeVarInt (added.length + 1)).length + (added.map TxOut.size).sum := by
  obtain ⟨xs, _, _, hreq⟩ := RpcBlockTemplate.fromGbt_ok ht
  have hscript : (encodeVarInt i.scriptSig.length).length = 1 :=
    encodeVarInt_length_short (Nat.lt_of_le_of_lt h.scriptSig (by decide))
  have hcommit : TxOut.size (witnessCommitmentOutput hash (xs.map (·.wtxid))) = 47 := by
    simp only [TxOut.size, witnessCommitmentOutput, List.length_append, hlen]
    rfl
  have houtputs : (coinbase.output.map TxOut.size).sum = (added.map TxOut.size).sum + 47 := by
    rw [(h.output.map TxOut.size).sum_nat, List.map_append, List.sum_append, hreq]
    simp only [List.map_cons, List.map_nil, List.sum_cons, List.sum_nil, hcommit, Nat.add_zero]
  have hcount : coinbase.output.length = added.length + 1 := by
    rw [h.output.length_eq, List.length_append, hreq, List.length_singleton]
  simp only [Transaction.encodeBase, TxOut.encodeVec, List.length_append, leBytes_length, h.input,
    List.length_singleton, List.flatMap_cons, List.flatMap_nil, List.append_nil, TxIn.encode,
    h.previousOutput, nullOutpoint, List.length_replicate, hscript, flatMap_encode_length, houtputs,
    hcount, encodeVarInt_length_short (by decide : 1 < 0xFD)]
  omega

/-- The witness of a coinbase takes 36 bytes, flag and marker included. -/
theorem BuiltOn.encode_length (h : BuiltOn t added i coinbase) :
    coinbase.encode.length = coinbase.encodeBase.length + 36 := by
  have hflag : coinbase.flagged = true := by
    simp [Transaction.flagged, h.input, h.witness]
  have hwit : (i.encodeWitness).length = 34 := by
    rw [TxIn.encodeWitness, h.witness]
    rfl
  rw [Transaction.encode_length, hflag, h.input]
  simp only [if_true, List.flatMap_cons, List.flatMap_nil, List.append_nil, hwit]

theorem BuiltOn.weight (h : BuiltOn t added i coinbase) :
    coinbase.weight = 4 * coinbase.encodeBase.length + 36 := by
  rw [Transaction.weight, h.encode_length]
  omega

/-- Every output takes at least nine bytes. -/
theorem length_le_sum_size (outs : List TxOut) : 9 * outs.length ≤ (outs.map TxOut.size).sum := by
  induction outs with
  | nil => exact le_rfl
  | cons o outs ih =>
      have hpos : 1 ≤ (encodeVarInt o.scriptPubkey.length).length := by
        unfold encodeVarInt
        split_ifs <;> simp
      simp only [List.length_cons, List.map_cons, List.sum_cons, TxOut.size]
      omega

end Coinbase

/-! ### The block -/

/-- There are no more transactions than units of weight. -/
theorem length_le_sum_weight (txs : List Transaction) :
    txs.length ≤ (txs.map Transaction.weight).sum := by
  induction txs with
  | nil => exact le_rfl
  | cons tx txs ih =>
      have := tx.weight_pos
      simp only [List.length_cons, List.map_cons, List.sum_cons]
      omega

theorem Block.weight_cons (header : Header) (coinbase : Transaction) (txs : List Transaction) :
    (Block.mk header (coinbase :: txs)).weight =
      320 + 4 * (encodeVarInt (txs.length + 1)).length + coinbase.weight +
        (txs.map Transaction.weight).sum := by
  simp only [Block.weight, List.length_cons, List.map_cons, List.sum_cons]
  omega

/-- A returned block is the solved coinbase and the transactions of the template. -/
theorem RpcBlockTemplate.solutionBlock_ok {hash : Bytes → Bytes} {validatePow : Header → Bool}
    {t : RpcBlockTemplate} {s : SubmitSolution} {block : Block}
    (h : t.solutionBlock hash validatePow s = .ok block) :
    ∃ coinbase, Transaction.deserialize s.coinbaseTx = some coinbase ∧
      block.txdata = coinbase :: t.transactions := by
  unfold RpcBlockTemplate.solutionBlock at h
  split at h
  · cases h
  · rename_i coinbase hcoinbase
    dsimp only at h
    split at h
    · cases h
      exact ⟨coinbase, hcoinbase, rfl⟩
    · cases h

/-- A block whose coinbase weighs no more than the reserve, less the transaction count, is within
the limit. -/
theorem block_weight_le {size : UInt32} {txs : List Transaction} (header : Header)
    {coinbase : Transaction}
    (htxs : txs = [] ∨ 320 + (txs.map Transaction.weight).sum ≤ transactionBudget size)
    (hreserve : coinbase.weight + 20 ≤ max (size.toNat * 4) minBlockReservedWeight)
    (hsmall : coinbase.weight + 20 + 320 ≤ maxBlockWeight) :
    (Block.mk header (coinbase :: txs)).weight ≤ maxBlockWeight := by
  rw [Block.weight_cons]
  rcases htxs with rfl | hfits
  · have hcount : (encodeVarInt (([] : List Transaction).length + 1)).length = 1 := rfl
    rw [hcount, List.map_nil, List.sum_nil]
    omega
  · have hfew := length_le_sum_weight txs
    unfold transactionBudget at hfits
    have hcount : (encodeVarInt (txs.length + 1)).length ≤ 5 := by
      apply encodeVarInt_length_le
      unfold maxBlockWeight at hfits
      omega
    omega

/-! ### Responses and coinbases for given transactions -/

def hexChar (n : Nat) : Char :=
  Char.ofNat (if n < 10 then '0'.toNat + n else 'a'.toNat + (n - 10))

def hexEncode (bytes : Bytes) : Text :=
  bytes.flatMap fun b => [hexChar (b.toNat / 16), hexChar (b.toNat % 16)]

theorem hexDigit_hexChar : ∀ n < 16, hexDigit (hexChar n) = some n := by
  decide

theorem hexPairs_hexEncode (bytes : Bytes) : hexPairs (hexEncode bytes) = some bytes := by
  induction bytes with
  | nil => rfl
  | cons b bytes ih =>
      have hb := b.toNat_lt
      have hhi := hexDigit_hexChar (b.toNat / 16) (by omega)
      have hlo := hexDigit_hexChar (b.toNat % 16) (by omega)
      have hbyte : UInt8.ofNat (16 * (b.toNat / 16) + b.toNat % 16) = b := by
        rw [Nat.div_add_mod, UInt8.ofNat_toNat]
      simp only [hexEncode, List.flatMap_cons, List.cons_append, List.nil_append, hexPairs,
        hhi, hlo]
      rw [← hexEncode, ih]
      simp only [hbyte]

theorem hexDecode_hexEncode (bytes : Bytes) : hexDecode (hexEncode bytes) = .ok bytes := by
  have heven : (hexEncode bytes).length % 2 = 0 := by
    rw [hexEncode, List.length_flatMap]
    induction bytes with
    | nil => rfl
    | cons b bytes ih =>
        simp only [List.map_cons, List.sum_cons, List.length_cons, List.length_nil] at ih ⊢
        omega
  rw [hexDecode, if_neg (not_not.mpr heven), hexPairs_hexEncode]

/-- A transaction as the node describes it. -/
def gbtTransaction (hash : Bytes → Bytes) (tx : Transaction) : GetBlockTemplateTransaction where
  data := hexEncode tx.encode
  txid := hexEncode (hash tx.encodeBase).reverse
  hash := hexEncode (hash tx.encode).reverse
  weight := some (UInt64.ofNat tx.weight)

/-- A response with the given transactions. -/
def gbtOf (hash : Bytes → Bytes) (txs : List Transaction) : GbtResponse where
  previousBlockHash := List.replicate 32 9
  coinbaseScript := [0x03, 0x40, 0x0d, 0x03]
  coinbaseValue := 312500000
  mintime := 1700000000
  curtime := 1700000100
  bits := 0x207fffff
  version := 0x20000000
  transactions := txs.map (gbtTransaction hash)

/-- A coinbase input with a script signature of full length. -/
def fullInput (t : RpcBlockTemplate) : TxIn where
  previousOutput := nullOutpoint
  scriptSig := t.coinbasePrefix ++ List.replicate (100 - t.coinbasePrefix.length) 0
  sequence := 0xffffffff
  witness := [List.replicate 32 0]

/-- A coinbase with one output of the pool. -/
def fullCoinbase (t : RpcBlockTemplate) (script : Bytes) : Transaction where
  version := 2
  input := [fullInput t]
  output := ⟨0, script⟩ :: t.requiredOutputs
  lockTime := 0

section Construction

variable {hash : Bytes → Bytes}

theorem hashFromStr_hexEncode {h : Bytes} (hlen : h.length = 32) :
    hashFromStr (hexEncode h.reverse) = some h := by
  rw [hashFromStr, hexDecode_hexEncode]
  simp [hlen]

theorem parseTransaction_gbtTransaction (hlen : ∀ bytes, (hash bytes).length = 32)
    {tx : Transaction} (h : tx.WellFormed) :
    parseTransaction hash (gbtTransaction hash tx) =
      .ok ⟨tx.encode, tx, hash tx.encodeBase, hash tx.encode⟩ := by
  have hdata : hexDecode (gbtTransaction hash tx).data = .ok tx.encode := hexDecode_hexEncode _
  have htxid : hashFromStr (gbtTransaction hash tx).txid = some (hash tx.encodeBase) :=
    hashFromStr_hexEncode (hlen _)
  have hwtxid : hashFromStr (gbtTransaction hash tx).hash = some (hash tx.encode) :=
    hashFromStr_hexEncode (hlen _)
  have hmatch : ¬(hash tx.encodeBase ≠ hash tx.encodeBase ∨ hash tx.encode ≠ hash tx.encode) := by
    simp
  rw [parseTransaction, hdata]
  dsimp only
  rw [Transaction.deserialize_encode h, htxid, hwtxid]
  dsimp only
  rw [if_neg hmatch]

theorem parseTransactions_gbtOf (hlen : ∀ bytes, (hash bytes).length = 32) {txs : List Transaction}
    (h : ∀ tx ∈ txs, tx.WellFormed) :
    ∃ xs, parseTransactions hash (txs.map (gbtTransaction hash)) = .ok xs ∧
      xs.map (·.transaction) = txs := by
  induction txs with
  | nil => exact ⟨[], rfl, rfl⟩
  | cons tx txs ih =>
      obtain ⟨htx, htxs⟩ := List.forall_mem_cons.mp h
      obtain ⟨xs, hxs, hmap⟩ := ih htxs
      refine ⟨⟨tx.encode, tx, hash tx.encodeBase, hash tx.encode⟩ :: xs, ?_, ?_⟩
      · simp only [List.map_cons, parseTransactions, parseTransaction_gbtTransaction hlen htx, hxs]
      · rw [List.map_cons, hmap]

theorem countedWeight_gbtTransaction {tx : Transaction} (h : tx.weight < 2 ^ 64) :
    countedWeight (gbtTransaction hash tx) = tx.weight := by
  simp only [countedWeight, gbtTransaction, UInt64.toNat_ofNat']
  exact Nat.mod_eq_of_lt h

theorem trueWeights_gbtOf {txs : List Transaction} (hwf : ∀ tx ∈ txs, tx.WellFormed)
    (h : ∀ tx ∈ txs, tx.weight < 2 ^ 64) : TrueWeights (gbtOf hash txs) := by
  intro g hg bytes transaction hbytes hdec w hw
  obtain ⟨tx, htx, rfl⟩ := List.mem_map.mp hg
  rw [gbtTransaction, hexDecode_hexEncode] at hbytes
  obtain rfl := Except.ok.inj hbytes
  rw [Transaction.deserialize_encode (hwf tx htx)] at hdec
  obtain rfl := Option.some.inj hdec
  obtain rfl := Option.some.inj hw
  rw [UInt64.toNat_ofNat']
  exact Nat.mod_eq_of_lt (h tx htx)

/-- Transactions that fit into the budget all go into the template. -/
theorem fromGbt_gbtOf (hlen : ∀ bytes, (hash bytes).length = 32) {txs : List Transaction}
    {size : UInt32} (hwf : ∀ tx ∈ txs, tx.WellFormed) (hweight : ∀ tx ∈ txs, tx.weight < 2 ^ 64)
    (hfits : 320 + (txs.map Transaction.weight).sum ≤ transactionBudget size) :
    ∃ t, RpcBlockTemplate.fromGbt hash 7 (gbtOf hash txs) size = .ok t ∧ t.transactions = txs ∧
      t.coinbasePrefix = [0x03, 0x40, 0x0d, 0x03, 8, 7, 0, 0, 0, 0, 0, 0, 0] ∧
      ∃ o, t.requiredOutputs = [o] ∧ o.scriptPubkey.length = 38 := by
  obtain ⟨xs, hxs, hmap⟩ := parseTransactions_gbtOf hlen hwf
  have hcounted : ((gbtOf hash txs).transactions.map countedWeight) = txs.map
    Transaction.weight := by
    rw [gbtOf, List.map_map]
    exact List.map_congr_left fun tx htx => countedWeight_gbtTransaction (hweight tx htx)
  have hall : selectTransactionPrefix (gbtOf hash txs).transactions (transactionBudget size) =
      (gbtOf hash txs).transactions.length :=
    selectFrom_all (transactionBudget_lt size) (by rw [hcounted]; exact hfits)
  simp only [RpcBlockTemplate.fromGbt, hall, List.take_length]
  rw [show (gbtOf hash txs).transactions = txs.map (gbtTransaction hash) from rfl, hxs]
  refine ⟨_, rfl, hmap, rfl, _, rfl, ?_⟩
  simp only [witnessCommitmentOutput, List.length_append, hlen]
  rfl

end Construction

/-! ### The result

Sizes up to 288 and from 65513 on are safe. For each size in between there is a response that makes
the block overweight. -/

/-- For outputs of `size` additional bytes, every block `solution_block` returns is within the
limit: whatever the response with true weights, the template made of it, and the coinbase built on
that template whose added outputs take at most `size` bytes. A `SubmitSolution` carries a coinbase
of at most 65535 bytes. -/
def WithinLimit (size : UInt32) : Prop :=
  ∀ (validatePow : Header → Bool) (id : TemplateId) (gbt : GbtResponse) (t : RpcBlockTemplate)
    (added : List TxOut) (i : TxIn) (coinbase : Transaction) (s : SubmitSolution) (block : Block),
    TrueWeights gbt → RpcBlockTemplate.fromGbt Sha256.digestTwice id gbt size = .ok t →
    BuiltOn t added i coinbase → (added.map TxOut.size).sum ≤ size.toNat →
    s.coinbaseTx.length ≤ 65535 → Transaction.deserialize s.coinbaseTx = some coinbase →
    t.solutionBlock Sha256.digestTwice validatePow s = .ok block → block.weight ≤ maxBlockWeight

theorem withinLimit_of_size {size : UInt32} (h : size.toNat ≤ 288 ∨ 65513 ≤ size.toNat) :
    WithinLimit size := by
  intro validatePow id gbt t added i coinbase s block htrue ht hbuilt hadded hbytes hdec hblock
  obtain ⟨coinbase', hdec', htxdata⟩ := t.solutionBlock_ok hblock
  obtain rfl := Option.some.inj (hdec.symm.trans hdec')
  obtain ⟨header, txdata⟩ := block
  subst htxdata
  have hbase := hbuilt.base_length Sha256.digestTwice_length ht
  have hsig := hbuilt.scriptSig
  have hlen : coinbase.encodeBase.length + 36 ≤ 65535 := by
    rw [← hbuilt.encode_length, Transaction.encode_of_deserialize hdec]
    exact hbytes
  refine block_weight_le header (t.fromGbt_weight ht htrue) ?_ ?_
  · rw [hbuilt.weight]
    rcases h with hsmall | hlarge
    · have hcount := length_le_sum_size added
      have hvar : (encodeVarInt (added.length + 1)).length = 1 :=
        encodeVarInt_length_short (by omega)
      unfold minBlockReservedWeight
      omega
    · omega
  · rw [hbuilt.weight]
    unfold maxBlockWeight
    omega

/-- A transaction without inputs and outputs. -/
def emptyTransaction : Transaction where
  version := 2
  input := []
  output := []
  lockTime := 0

/-- A transaction with one output whose script has the given length. -/
def wideTransaction (input : List TxIn) (scriptLen : Nat) : Transaction where
  version := 2
  input := input
  output := [⟨0, List.replicate scriptLen 0⟩]
  lockTime := 0

/-- A transaction with a wide output is well formed. -/
theorem wideTransaction_wellFormed {input : List TxIn} (hinput : input.length < 2 ^ 64)
    (hinputs : ∀ i ∈ input, i.WellFormed) {n : Nat} (h : n < 2 ^ 64) :
    (wideTransaction input n).WellFormed where
  version := (by decide : 2 < 2 ^ 32)
  input := ⟨hinput, hinputs⟩
  output := by
    refine ⟨(by decide : 1 < 2 ^ 64), ?_⟩
    simpa [wideTransaction, TxOut.WellFormed] using h
  lockTime := (by decide : 0 < 2 ^ 32)

theorem wideTransaction_base_length (input : List TxIn) {n : Nat} (h : 0x10000 ≤ n)
    (h' : n < 0x100000000) :
    (wideTransaction input n).encodeBase.length =
      22 + (encodeVarInt input.length).length + (input.flatMap TxIn.encode).length + n := by
  have hvar : (encodeVarInt n).length = 5 := by
    rw [encodeVarInt, if_neg (by omega), if_neg (by omega), if_pos h', List.length_cons,
      leBytes_length]
  simp only [wideTransaction, Transaction.encodeBase, TxOut.encodeVec, TxOut.encode,
    List.length_append, leBytes_length, List.flatMap_cons, List.flatMap_nil, List.append_nil,
    List.length_replicate, hvar, List.length_singleton,
    encodeVarInt_length_short (by decide : 1 < 0xFD)]
  omega

/-- The solution that carries a coinbase. -/
def solutionOf (t : RpcBlockTemplate) (coinbase : Transaction) : SubmitSolution where
  templateId := t.id
  version := 0x20000000
  headerTimestamp := 1700000100
  headerNonce := 42
  coinbaseTx := coinbase.encode

/-- A solution whose header meets the target leads to a block. -/
theorem solutionBlock_of_deserialize (hash : Bytes → Bytes) (t : RpcBlockTemplate)
    {s : SubmitSolution} {coinbase : Transaction}
    (h : Transaction.deserialize s.coinbaseTx = some coinbase) :
    ∃ header, t.solutionBlock hash (fun _ => true) s = .ok ⟨header,
      coinbase :: t.transactions⟩ := by
  rw [RpcBlockTemplate.solutionBlock, h]
  exact ⟨_, rfl⟩

/-- The block of given transactions and one added output, with everything that leads to it. -/
theorem block_of_transactions {size : UInt32} {txs : List Transaction} {script : Bytes}
    (hwf : ∀ tx ∈ txs, tx.WellFormed) (hweight : ∀ tx ∈ txs, tx.weight < 2 ^ 64)
    (hfits : 320 + (txs.map Transaction.weight).sum ≤ transactionBudget size)
    (hscript : TxOut.size ⟨0, script⟩ ≤ 65301) :
    ∃ t block, TrueWeights (gbtOf Sha256.digestTwice txs) ∧
      RpcBlockTemplate.fromGbt Sha256.digestTwice 7 (gbtOf Sha256.digestTwice txs) size = .ok t ∧
      BuiltOn t [⟨0, script⟩] (fullInput t) (fullCoinbase t script) ∧
      (solutionOf t (fullCoinbase t script)).coinbaseTx.length ≤ 65535 ∧
      Transaction.deserialize (solutionOf t (fullCoinbase t script)).coinbaseTx =
        some (fullCoinbase t script) ∧
      t.solutionBlock Sha256.digestTwice (fun _ => true) (solutionOf t (fullCoinbase t script)) =
        .ok block ∧
      block.weight = 1148 + 4 * (encodeVarInt (txs.length + 1)).length +
        4 * TxOut.size ⟨0, script⟩ + (txs.map Transaction.weight).sum := by
  obtain ⟨t, ht, htxs, hpre, o, hreq, ho⟩ :=
    fromGbt_gbtOf Sha256.digestTwice_length hwf hweight hfits
  have hsig : (fullInput t).scriptSig.length = 100 := by
    rw [fullInput, hpre]
    rfl
  have hbuilt : BuiltOn t [⟨0, script⟩] (fullInput t) (fullCoinbase t script) :=
    ⟨rfl, rfl, List.prefix_append _ _, hsig.le, rfl, List.Perm.refl _⟩
  have hbase : (fullCoinbase t script).encodeBase.length = 198 + TxOut.size ⟨0, script⟩ := by
    have hvar : (encodeVarInt (([⟨0, script⟩] : List TxOut).length + 1)).length = 1 := rfl
    rw [hbuilt.base_length Sha256.digestTwice_length ht, hsig, hvar, List.map_cons, List.map_nil,
      List.sum_cons, List.sum_nil]
    omega
  have hlen : (fullCoinbase t script).encode.length ≤ 65535 := by
    rw [hbuilt.encode_length, hbase]
    omega
  have hshort : script.length < 2 ^ 64 := by
    simp only [TxOut.size] at hscript
    omega
  have hcoinbase : (fullCoinbase t script).WellFormed := by
    refine ⟨(by decide : 2 < 2 ^ 32), ⟨(by decide : 1 < 2 ^ 64), ?_⟩, ⟨?_, ?_⟩,
      (by decide : 0 < 2 ^ 32)⟩
    · intro i hi
      obtain rfl := List.mem_singleton.mp hi
      refine ⟨rfl, ?_, (by decide : 0xffffffff < 2 ^ 32), (by decide : 1 < 2 ^ 64), ?_⟩
      · rw [hsig]
        decide
      · intro x hx
        obtain rfl := List.mem_singleton.mp hx
        decide
    · show (_ :: t.requiredOutputs).length < _
      rw [hreq]
      exact (by decide : 2 < 2 ^ 64)
    · show ∀ o ∈ _ :: t.requiredOutputs, _
      rw [hreq]
      refine List.forall_mem_cons.mpr ⟨hshort, List.forall_mem_singleton.mpr ?_⟩
      rw [TxOut.WellFormed, ho]
      decide
  have hdec := Transaction.deserialize_encode hcoinbase
  obtain ⟨header, hblock⟩ := solutionBlock_of_deserialize Sha256.digestTwice t
    (s := solutionOf t (fullCoinbase t script)) hdec
  refine ⟨t, _, trueWeights_gbtOf hwf hweight, ht, hbuilt, hlen, hdec, hblock, ?_⟩
  rw [Block.weight_cons, hbuilt.weight, hbase, htxs]
  omega

theorem wideOutput_size {n : Nat} (h : 0xFD ≤ n) (h' : n < 0x10000) :
    TxOut.size ⟨0, List.replicate n 0⟩ = n + 11 := by
  rw [TxOut.size, List.length_replicate, encodeVarInt, if_neg (by omega), if_pos h',
    List.length_cons, leBytes_length]
  exact Nat.add_comm _ _

theorem emptyTransaction_wellFormed : emptyTransaction.WellFormed :=
  ⟨by decide, ⟨by decide, nofun⟩, ⟨by decide, nofun⟩, by decide⟩

/-- Empty transactions, and one that fills the budget. -/
def fillingTransactions (count scriptLen : Nat) : List Transaction :=
  wideTransaction [] scriptLen :: List.replicate count emptyTransaction

theorem wideTransaction_weight {n : Nat} (h : 0x10000 ≤ n) (h' : n < 0x100000000) :
    (wideTransaction [] n).weight = 4 * n + 94 := by
  have hbase := wideTransaction_base_length [] h h'
  have hflag : (wideTransaction [] n).flagged = true := rfl
  have hvar : (encodeVarInt ([] : List TxIn).length).length = 1 := rfl
  rw [hvar, List.flatMap_nil, List.length_nil] at hbase
  rw [Transaction.weight, Transaction.encode_length, hflag, hbase]
  show 3 * (22 + 1 + 0 + n) + (22 + 1 + 0 + n + (2 + 0)) = _
  omega

section Filling

variable {n : Nat} (count : Nat)

/-- What holds of both kinds holds of the list. -/
theorem forall_fillingTransactions {P : Transaction → Prop} (hwide : P (wideTransaction [] n))
    (hempty : P emptyTransaction) : ∀ tx ∈ fillingTransactions count n, P tx := by
  refine List.forall_mem_cons.mpr ⟨hwide, ?_⟩
  intro tx htx
  rw [List.eq_of_mem_replicate htx]
  exact hempty

theorem fillingTransactions_weight (h : 0x10000 ≤ n) (h' : n < 0x100000000) :
    ((fillingTransactions count n).map Transaction.weight).sum = 4 * n + 94 + count * 42 := by
  have hempty : emptyTransaction.weight = 42 := by decide
  rw [fillingTransactions, List.map_cons, List.map_replicate, List.sum_cons, List.sum_replicate_nat,
    hempty, wideTransaction_weight h h']

end Filling

/-- Between the two bounds, a response that fills the budget and a full coinbase are too much. -/
theorem not_withinLimit {size : UInt32} (h : 289 ≤ size.toNat) (h' : size.toNat ≤ 65512) :
    ¬WithinLimit size := by
  intro hlimit
  obtain ⟨count, hcount⟩ : ∃ count : Nat, count = 65535 := ⟨_, rfl⟩
  obtain ⟨n, hn⟩ : ∃ n : Nat, n = 311779 - max size.toNat 500 := ⟨_, rfl⟩
  have hlow : 0x10000 ≤ n := by omega
  have hhigh : n < 0x100000000 := by omega
  have hsum := fillingTransactions_weight count hlow hhigh
  have hwf : ∀ tx ∈ fillingTransactions count n, tx.WellFormed := by
    refine forall_fillingTransactions count ?_ emptyTransaction_wellFormed
    refine wideTransaction_wellFormed (by decide) ?_ (by omega)
    intro i hi
    cases hi
  have hweight : ∀ tx ∈ fillingTransactions count n, tx.weight < 2 ^ 64 := by
    refine forall_fillingTransactions count ?_ (by decide)
    rw [wideTransaction_weight hlow hhigh]
    omega
  have hfits : 320 + ((fillingTransactions count n).map Transaction.weight).sum ≤
      transactionBudget size := by
    rw [hsum, transactionBudget, maxBlockWeight, minBlockReservedWeight]
    omega
  have hout := wideOutput_size (n := min size.toNat 65301 - 11) (by omega) (by omega)
  obtain ⟨t, block, htrue, ht, hbuilt, hlen, hdec, hblock, hw⟩ :=
    block_of_transactions hwf hweight hfits (by rw [hout]; omega)
  have hadded : (([⟨0, List.replicate (min size.toNat 65301 - 11) 0⟩] : List TxOut).map
      TxOut.size).sum ≤ size.toNat := by
    rw [List.map_cons, List.map_nil, List.sum_cons, List.sum_nil, hout]
    omega
  have hbound := hlimit _ _ _ t _ _ _ _ block htrue ht hbuilt hadded hlen hdec hblock
  have hvar : (encodeVarInt ((fillingTransactions count n).length + 1)).length = 5 := by
    rw [fillingTransactions, List.length_cons, List.length_replicate, hcount]
    rfl
  rw [hw, hvar, hout, hsum, maxBlockWeight] at hbound
  omega

/-- The sizes of additional outputs for which no returned block is overweight. -/
theorem withinLimit_iff (size : UInt32) :
    WithinLimit size ↔ size.toNat ≤ 288 ∨ 65513 ≤ size.toNat := by
  refine ⟨?_, withinLimit_of_size⟩
  intro hlimit
  by_contra hrange
  exact not_withinLimit (by omega) (by omega) hlimit

/-- An input that spends some output. -/
def spendingInput : TxIn where
  previousOutput := List.replicate 36 1
  scriptSig := []
  sequence := 0xffffffff

theorem overweight_block_returned :
    ∃ t block,
      TrueWeights (gbtOf Sha256.digestTwice [wideTransaction [spendingInput] 998856]) ∧
      RpcBlockTemplate.fromGbt Sha256.digestTwice 7
        (gbtOf Sha256.digestTwice [wideTransaction [spendingInput] 998856]) 1000 = .ok t ∧
      BuiltOn t [⟨0, List.replicate 989 0⟩] (fullInput t) (fullCoinbase t (List.replicate 989 0)) ∧
      (([⟨0, List.replicate 989 0⟩] : List TxOut).map TxOut.size).sum = 1000 ∧
      (solutionOf t (fullCoinbase t (List.replicate 989 0))).coinbaseTx.length ≤ 65535 ∧
      t.solutionBlock Sha256.digestTwice (fun _ => true)
        (solutionOf t (fullCoinbase t (List.replicate 989 0))) = .ok block ∧
      block.weight = 4000832 ∧ ¬block.weight ≤ maxBlockWeight := by
  generalize hn : 998856 = n
  have hbase := wideTransaction_base_length [spendingInput] (n := n) (by omega) (by omega)
  have hinput : 22 + (encodeVarInt [spendingInput].length).length +
      ([spendingInput].flatMap TxIn.encode).length = 64 := by decide
  have hflag : (wideTransaction [spendingInput] n).flagged = false := rfl
  have hweight : (wideTransaction [spendingInput] n).weight = 3995680 := by
    rw [Transaction.weight, Transaction.encode_length, hflag, hbase, hinput, ← hn]
    rfl
  have hwf : (wideTransaction [spendingInput] n).WellFormed := by
    refine wideTransaction_wellFormed (by decide) (List.forall_mem_singleton.mpr ?_) (by omega)
    exact ⟨by decide, by decide, by decide, by decide, nofun⟩
  have hsum : ([wideTransaction [spendingInput] n].map Transaction.weight).sum = 3995680 := by
    rw [List.map_cons, List.map_nil, List.sum_cons, List.sum_nil, hweight, Nat.add_zero]
  have hfits : 320 + ([wideTransaction [spendingInput] n].map Transaction.weight).sum ≤
      transactionBudget 1000 := by
    rw [hsum]
    decide
  have hout := wideOutput_size (n := 989) (by decide) (by decide)
  obtain ⟨t, block, htrue, ht, hbuilt, hlen, _, hblock, hw⟩ :=
    block_of_transactions (List.forall_mem_singleton.mpr hwf)
      (List.forall_mem_singleton.mpr (by rw [hweight]; decide)) hfits (by rw [hout]; decide)
  have hvar : (encodeVarInt ([wideTransaction [spendingInput] n].length + 1)).length = 1 := rfl
  have htotal : block.weight = 4000832 := by
    rw [hw, hsum, hout, hvar]
  have hadded : (([⟨0, List.replicate 989 0⟩] : List TxOut).map TxOut.size).sum = 1000 := by
    rw [List.map_cons, List.map_nil, List.sum_cons, List.sum_nil, hout, Nat.add_zero]
  exact ⟨t, block, htrue, ht, hbuilt, hadded, hlen, hblock, htotal, by rw [htotal]; decide⟩

end GridPoolSv2.Pool
