import GridPoolSv2.Lib.MerkleTree
import GridPoolSv2.Pool.BlockWeight

/-!
# Pool.MerklePath: the merkle path of a template and the root of its block

The loops of `template_receiver/bitcoin_rpc.rs` over merkle levels, as the source has them:
an odd level gets a copy of its last node and is cut into pairs. The function that hashes
two nodes is a parameter, of any type of nodes.

`merkle_path_for_first_leaf` runs on a list whose first leaf is a placeholder. The path is
the branch of the first leaf, into which that leaf does not enter, so that
`apply_merkle_path` finds the root over any coinbase
(`applyMerklePath_coinbaseMerklePath`). A template keeps the path over the txids it has
computed itself, hence the header of a solved block commits to the transactions of the
block (`header_commits_to_txdata`).
-/

namespace GridPoolSv2.Pool

open Consensus

namespace BitcoinRpc

variable {α : Type}

/-- `level.push(*level.last())` on an odd level. -/
def pushLast (level : List α) : List α :=
  if level.length % 2 = 1 then level ++ level.getLast?.toList else level

/-- `level.chunks_exact(2)`, with `hash_pair` mapped over the chunks. -/
def hashChunks (hashPair : α → α → α) : List α → List α
  | left :: right :: rest => hashPair left right :: hashChunks hashPair rest
  | _ => []

section Loops

variable (hashPair : α → α → α)

/-- One round of the loop is one level of the tree. -/
theorem hashChunks_pushLast (level : List α) :
    hashChunks hashPair (pushLast level) = MerkleTree.level hashPair level := by
  have hchunks : ∀ nodes, hashChunks hashPair nodes = MerkleTree.pairs hashPair nodes := by
    intro nodes
    induction nodes using hashChunks.induct with
    | case1 left right rest ih => rw [hashChunks, MerkleTree.pairs, ih]
    | case2 nodes h => rw [hashChunks.eq_2 _ _ h, MerkleTree.pairs.eq_2 _ _ h]
  rw [hchunks]
  exact MerkleTree.pairs_pad hashPair level

theorem length_hashChunks_lt {level : List α} (h : 1 < level.length) :
    (hashChunks hashPair (pushLast level)).length < level.length := by
  rw [hashChunks_pushLast, MerkleTree.length_level]
  omega

/-- `merkle_path_for_first_leaf`. -/
def merklePathForFirstLeaf (level : List α) : List α :=
  if h : 1 < level.length then
    have : 1 < (pushLast level).length := h.trans_le (MerkleTree.length_pad level)
    (pushLast level)[1] :: merklePathForFirstLeaf (hashChunks hashPair (pushLast level))
  else []
termination_by level.length
decreasing_by exact length_hashChunks_lt hashPair h

/-- `coinbase_merkle_path`; `zero` is `[0; 32]`. -/
def coinbaseMerklePath (zero : α) (txids : List α) : List α :=
  merklePathForFirstLeaf hashPair (zero :: txids)

/-- `apply_merkle_path`. -/
def applyMerklePath (hash : α) (path : List α) : α :=
  path.foldl hashPair hash

/-- The loop of `merkle_root`, which ends with `level[0]`. -/
def merkleRootLoop (level : List α) (hlevel : level ≠ []) : α :=
  if h : 1 < level.length then
    have : hashChunks hashPair (pushLast level) ≠ [] := by
      rw [hashChunks_pushLast, ← List.length_pos_iff, MerkleTree.length_level]
      omega
    merkleRootLoop (hashChunks hashPair (pushLast level)) this
  else level.head hlevel
termination_by level.length
decreasing_by exact length_hashChunks_lt hashPair h

/-- `merkle_root`. -/
def merkleRoot (zero : α) (level : List α) : α :=
  if h : level = [] then zero else merkleRootLoop hashPair level h

end Loops

/-! ### The loops and the tree -/

section Tree

variable (hashPair : α → α → α)

/-- The path is the branch of the first leaf. -/
theorem merklePathForFirstLeaf_cons (first : α) (rest : List α) :
    merklePathForFirstLeaf hashPair (first :: rest) = MerkleTree.branch hashPair rest := by
  induction first, rest using MerkleTree.root.induct hashPair with
  | case1 first =>
      rw [merklePathForFirstLeaf, dif_neg (by simp), MerkleTree.branch_nil]
  | case2 first b rest ih =>
      rw [merklePathForFirstLeaf, dif_pos (by simp)]
      simp only [hashChunks_pushLast, MerkleTree.level, MerkleTree.branch_cons]
      have hpush : pushLast (first :: b :: rest) = first :: b :: pushLast rest :=
        MerkleTree.pad_cons_cons first b rest
      simp only [hpush, List.getElem_cons_succ, List.getElem_cons_zero]
      rw [ih]

theorem merkleRootLoop_cons (first : α) (rest : List α) (h : first :: rest ≠ []) :
    merkleRootLoop hashPair (first :: rest) h = MerkleTree.root hashPair first rest := by
  induction first, rest using MerkleTree.root.induct hashPair with
  | case1 first =>
      rw [merkleRootLoop, dif_neg (by simp), MerkleTree.root_nil, List.head_cons]
  | case2 first b rest ih =>
      rw [merkleRootLoop, dif_pos (by simp), MerkleTree.root_cons]
      simp only [hashChunks_pushLast, MerkleTree.level]
      exact ih _

theorem coinbaseMerklePath_eq_branch (zero : α) (txids : List α) :
    coinbaseMerklePath hashPair zero txids = MerkleTree.branch hashPair txids :=
  merklePathForFirstLeaf_cons hashPair zero txids

/-- The root over a list that is not empty. -/
theorem merkleRoot_cons (zero first : α) (rest : List α) :
    merkleRoot hashPair zero (first :: rest) = MerkleTree.root hashPair first rest := by
  rw [merkleRoot, dif_neg (by simp), merkleRootLoop_cons]

/-- The path of a template leads from any coinbase to the root of the tree over it. -/
theorem applyMerklePath_coinbaseMerklePath (zero coinbase : α) (txids : List α) :
    applyMerklePath hashPair coinbase (coinbaseMerklePath hashPair zero txids) =
      merkleRoot hashPair zero (coinbase :: txids) := by
  rw [coinbaseMerklePath_eq_branch, merkleRoot_cons]
  exact MerkleTree.foldl_branch hashPair coinbase txids

end Tree

end BitcoinRpc

/-! ### The path a template keeps -/

section Template

variable (hash : Bytes → Bytes)

theorem merkleLevel_eq_level (nodes : List Bytes) :
    merkleLevel hash nodes = MerkleTree.level (hashPair hash) nodes := by
  induction nodes using merkleLevel.induct with
  | case1 a b rest ih => rw [merkleLevel, MerkleTree.level, ih]
  | case2 a => rfl
  | case3 => rfl

/-- The fuel of `merklePathFrom` is enough when it covers the leaves. -/
theorem merklePathFrom_eq_branch {fuel : Nat} (first : Bytes) {rest : List Bytes}
    (h : rest.length ≤ fuel) :
    merklePathFrom hash fuel (first :: rest) = MerkleTree.branch (hashPair hash) rest := by
  induction fuel generalizing first rest with
  | zero =>
      obtain rfl := List.eq_nil_of_length_eq_zero (Nat.le_zero.mp h)
      rw [merklePathFrom, MerkleTree.branch_nil]
      exact nofun
  | succ fuel ih =>
      cases rest with
      | nil =>
          rw [merklePathFrom, MerkleTree.branch_nil]
          exact nofun
      | cons b rest =>
          rw [merklePathFrom, MerkleTree.branch_cons, merkleLevel, merkleLevel_eq_level]
          refine congrArg (b :: ·) (ih _ ?_)
          rw [MerkleTree.length_level]
          rw [List.length_cons] at h
          omega

theorem coinbaseMerklePath_eq (txids : List Bytes) :
    coinbaseMerklePath hash txids =
      BitcoinRpc.coinbaseMerklePath (hashPair hash) (List.replicate 32 0) txids := by
  rw [BitcoinRpc.coinbaseMerklePath_eq_branch]
  exact merklePathFrom_eq_branch hash _ (Nat.le_succ _)

end Template

/-- The txids `compute_txid` gives to transactions. -/
def computeTxids (hash : Bytes → Bytes) (txs : List Transaction) : List Bytes :=
  txs.map fun tx => hash tx.encodeBase

section Selected

variable {hash : Bytes → Bytes}

/-- The txid is computed from the transaction, not taken from the node's answer. -/
theorem parseTransaction_txid {tx : GetBlockTemplateTransaction} {x : SelectedTransaction}
    (h : parseTransaction hash tx = .ok x) : x.txid = hash x.transaction.encodeBase := by
  unfold parseTransaction at h
  split at h
  · cases h
  · split at h
    · cases h
    · split at h
      · cases h
      · split at h
        · cases h
        · split at h
          · cases h
          · rename_i hmatch
            cases h
            exact (not_ne_iff.mp (not_or.mp hmatch).1).symm

/-- The txids of a response have been compared with the ones computed from the bytes. -/
theorem parseTransactions_txids {txs : List GetBlockTemplateTransaction}
    {xs : List SelectedTransaction} (h : parseTransactions hash txs = .ok xs) :
    xs.map (·.txid) = computeTxids hash (xs.map (·.transaction)) := by
  induction txs generalizing xs with
  | nil =>
      cases h
      rfl
  | cons tx txs ih =>
      simp only [parseTransactions] at h
      split at h
      · cases h
      · rename_i x hx
        split at h
        · cases h
        · rename_i rest hrest
          cases h
          rw [List.map_cons, List.map_cons, ih hrest, parseTransaction_txid hx]
          rfl

/-- The path of a template is the path over the transactions it keeps. -/
theorem fromGbt_merklePath {id : TemplateId} {gbt : GbtResponse} {size : UInt32}
    {t : RpcBlockTemplate} (h : RpcBlockTemplate.fromGbt hash id gbt size = .ok t) :
    t.merklePath = coinbaseMerklePath hash (computeTxids hash t.transactions) := by
  unfold RpcBlockTemplate.fromGbt at h
  dsimp only at h
  split at h
  · cases h
  · rename_i xs hxs
    split at h
    · cases h
    · cases h
      exact congrArg (coinbaseMerklePath hash) (parseTransactions_txids hxs)

/-- The header of a solved block is made from the solved coinbase and the path of the template. -/
theorem solutionBlock_merkleRoot {validatePow : Header → Bool} {t : RpcBlockTemplate}
    {s : SubmitSolution} {block : Block} (h : t.solutionBlock hash validatePow s = .ok block) :
    ∃ coinbase, block.txdata = coinbase :: t.transactions ∧
      block.header.merkleRoot =
        BitcoinRpc.applyMerklePath (hashPair hash) (hash coinbase.encodeBase) t.merklePath := by
  unfold RpcBlockTemplate.solutionBlock at h
  split at h
  · cases h
  · rename_i coinbase hcoinbase
    dsimp only at h
    split at h
    · cases h
      exact ⟨coinbase, rfl, rfl⟩
    · cases h

end Selected

/-- The path over any txids leads to the root over the coinbase and these txids, and the header of
every block a template returns has the root over the txids of the block. -/
theorem header_commits_to_txdata :
    (∀ (α : Type) (hashPair : α → α → α) (zero coinbase : α) (txids : List α),
      BitcoinRpc.applyMerklePath hashPair coinbase
          (BitcoinRpc.coinbaseMerklePath hashPair zero txids) =
        BitcoinRpc.merkleRoot hashPair zero (coinbase :: txids)) ∧
    ∀ (hash : Bytes → Bytes) (validatePow : Header → Bool) (id : TemplateId) (gbt : GbtResponse)
      (size : UInt32) (t : RpcBlockTemplate) (s : SubmitSolution) (block : Block),
      RpcBlockTemplate.fromGbt hash id gbt size = .ok t →
      t.solutionBlock hash validatePow s = .ok block →
        block.header.merkleRoot =
          BitcoinRpc.merkleRoot (hashPair hash) (List.replicate 32 0)
            (computeTxids hash block.txdata) := by
  refine ⟨?_, ?_⟩
  · intro α hashPair zero coinbase txids
    exact BitcoinRpc.applyMerklePath_coinbaseMerklePath hashPair zero coinbase txids
  · intro hash validatePow id gbt size t s block ht hblock
    obtain ⟨coinbase, htxdata, hroot⟩ := solutionBlock_merkleRoot hblock
    rw [hroot, htxdata, fromGbt_merklePath ht, coinbaseMerklePath_eq]
    exact BitcoinRpc.applyMerklePath_coinbaseMerklePath (hashPair hash) _ _ _

/-- A block of a coinbase and two transactions: a tree with an odd level. -/
theorem header_commits_to_three_transactions :
    ∃ t block,
      RpcBlockTemplate.fromGbt Sha256.digestTwice 7
        (gbtOf Sha256.digestTwice (fillingTransactions 1 0x10000)) 0 = .ok t ∧
      t.solutionBlock Sha256.digestTwice (fun _ => true) (solutionOf t (fullCoinbase t [])) =
        .ok block ∧
      block.txdata = fullCoinbase t [] :: fillingTransactions 1 0x10000 ∧
      block.header.merkleRoot =
        BitcoinRpc.merkleRoot (hashPair Sha256.digestTwice) (List.replicate 32 0)
          (computeTxids Sha256.digestTwice block.txdata) := by
  have hwf : ∀ tx ∈ fillingTransactions 1 0x10000, tx.WellFormed := by
    refine forall_fillingTransactions 1 ?_ emptyTransaction_wellFormed
    refine wideTransaction_wellFormed (by decide) ?_ (by decide)
    intro i hi
    cases hi
  have hweight : ∀ tx ∈ fillingTransactions 1 0x10000, tx.weight < 2 ^ 64 := by
    refine forall_fillingTransactions 1 ?_ (by decide)
    rw [wideTransaction_weight (by decide) (by decide)]
    decide
  have hfits : 320 + ((fillingTransactions 1 0x10000).map Transaction.weight).sum ≤
      transactionBudget 0 := by
    rw [fillingTransactions_weight 1 (by decide) (by decide)]
    decide
  obtain ⟨t, block, _, ht, _, _, hdec, hblock, _⟩ :=
    @block_of_transactions _ _ [] hwf hweight hfits (by decide)
  obtain ⟨t', ht', htxs, _⟩ := fromGbt_gbtOf Sha256.digestTwice_length hwf hweight hfits
  obtain rfl := Except.ok.inj (ht.symm.trans ht')
  obtain ⟨coinbase, hcoinbase, htxdata⟩ := t.solutionBlock_ok hblock
  obtain rfl := Option.some.inj (hdec.symm.trans hcoinbase)
  refine ⟨t, block, ht, hblock, ?_, ?_⟩
  · rw [htxdata, htxs]
  · exact header_commits_to_txdata.2 Sha256.digestTwice _ 7 _ 0 t _ block ht hblock

end GridPoolSv2.Pool
