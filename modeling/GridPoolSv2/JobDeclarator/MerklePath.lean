import GridPoolSv2.JobDeclarator.CoinbaseAgreement
import GridPoolSv2.Pool.MerklePath

/-!
# JobDeclarator.MerklePath: the merkle path of a declared job

The loop of `DeclaredCustomJob::get_merkle_path`, which takes the two children of a node by
their indices, the second one at most the last. The template provider of the pool pads its
levels and cuts them into pairs instead (`Pool.MerklePath`); both loops compute the branch
of the first leaf, so that a declared job has the path of a template with the same txids
(`declared_path_agrees`). The coinbase of the declaration is the first leaf and does not
enter into it.
-/

namespace GridPoolSv2.JobDeclarator

open Consensus (Bytes TxIn Transaction)
open Runs (exec)

section Loop

variable {α : Type} (hashPair : α → α → α)

/-- `next_level`: for each `idx` below `half`, `hashes[2 * idx]` with its right neighbour. -/
def levelByIndex (hashes : List α) : List α :=
  List.ofFn fun idx : Fin ((hashes.length + 1) / 2) =>
    hashPair (hashes.get ⟨2 * idx.val, by omega⟩)
      (hashes.get ⟨min (2 * idx.val + 1) (hashes.length - 1), by omega⟩)

theorem levelByIndex_eq (hashes : List α) :
    levelByIndex hashPair hashes = MerkleTree.level hashPair hashes :=
  MerkleTree.ofFn_eq_level hashPair hashes

/-- The loop of `get_merkle_path`. -/
def merklePathLoop (hashes : List α) : List α :=
  if h : 1 < hashes.length then hashes[1] :: merklePathLoop (levelByIndex hashPair hashes) else []
termination_by hashes.length
decreasing_by
  rw [levelByIndex_eq, MerkleTree.length_level]
  omega

theorem merklePathLoop_cons (first : α) (rest : List α) :
    merklePathLoop hashPair (first :: rest) = MerkleTree.branch hashPair rest := by
  induction first, rest using MerkleTree.root.induct hashPair with
  | case1 first => rw [merklePathLoop, dif_neg (by simp), MerkleTree.branch_nil]
  | case2 first b rest ih =>
      rw [merklePathLoop, dif_pos (by simp), levelByIndex_eq, MerkleTree.level, ih,
        MerkleTree.branch_cons]
      rfl

end Loop

namespace DeclaredCustomJob

/-- `DeclaredCustomJob::get_merkle_path`. -/
def getMerklePath (hash : Bytes → Bytes) (job : DeclaredCustomJob) : Option (List Bytes) :=
  if job.validated then
    match job.txidList with
    | none => none
    | some txids =>
        match getCoinbaseTx job.declareMiningJob with
        -- `expect`: the coinbase of a validated job has been checked
        | .error _ => none
        | .ok tx =>
            let hashes := hash tx.encodeBase :: txids
            if hashes.length = 1 then some []
            else some (merklePathLoop (Pool.hashPair hash) hashes)
  else none

variable {hash : Bytes → Bytes} {job : DeclaredCustomJob} {tx : Transaction} {txids : List Bytes}

theorem getMerklePath_eq_branch (hvalidated : job.validated = true)
    (htx : getCoinbaseTx job.declareMiningJob = .ok tx) (htxids : job.txidList = some txids) :
    job.getMerklePath hash = some (MerkleTree.branch (Pool.hashPair hash) txids) := by
  unfold getMerklePath
  rw [if_pos hvalidated, htxids, htx]
  dsimp only
  split
  · rename_i hone
    obtain rfl : txids = [] := by simpa using hone
    rw [MerkleTree.branch_nil]
  · rw [merklePathLoop_cons]

end DeclaredCustomJob

/-! ### The path in the checks of the engine -/

section Engine

variable (hash : Bytes → Bytes)

theorem nextLevel_eq_level (nodes : List Bytes) :
    nextLevel hash nodes = MerkleTree.level (Pool.hashPair hash) nodes := by
  induction nodes using nextLevel.induct with
  | case1 a b rest ih =>
      rw [nextLevel, MerkleTree.level, ih]
      rfl
  | case2 a => rfl
  | case3 => rfl

theorem merkleBranch_eq_branch {fuel : Nat} (first : Bytes) {rest : List Bytes}
    (h : rest.length ≤ fuel) :
    merkleBranch hash fuel (first :: rest) = MerkleTree.branch (Pool.hashPair hash) rest := by
  induction fuel generalizing first rest with
  | zero =>
      obtain rfl := List.eq_nil_of_length_eq_zero (Nat.le_zero.mp h)
      rw [merkleBranch, MerkleTree.branch_nil]
      exact nofun
  | succ fuel ih =>
      cases rest with
      | nil =>
          rw [merkleBranch, MerkleTree.branch_nil]
          exact nofun
      | cons b rest =>
          rw [merkleBranch, MerkleTree.branch_cons, nextLevel, nextLevel_eq_level]
          refine congrArg (b :: ·) (ih _ ?_)
          rw [MerkleTree.length_level]
          rw [List.length_cons] at h
          omega

/-- `checkCustomJob` compares a custom job with the path the loop computes. -/
theorem getMerklePath_eq (job : DeclaredCustomJob) :
    getMerklePath hash job = job.getMerklePath hash := by
  cases hvalidated : job.validated with
  | false => simp [getMerklePath, DeclaredCustomJob.getMerklePath, hvalidated]
  | true =>
      cases htxids : job.txidList with
      | none => simp [getMerklePath, DeclaredCustomJob.getMerklePath, htxids]
      | some txids =>
          cases htx : getCoinbaseTx job.declareMiningJob with
          | error fault => simp [getMerklePath, DeclaredCustomJob.getMerklePath, htxids, htx]
          | ok tx =>
              rw [DeclaredCustomJob.getMerklePath_eq_branch hvalidated htx htxids, getMerklePath,
                if_pos hvalidated, htxids, htx]
              exact congrArg some (merkleBranch_eq_branch hash _ (Nat.le_succ _))

end Engine

/-- The jobs an engine stores as validated have a coinbase and txids. -/
theorem validated_of_stored {hash : Bytes → Bytes} {script : Bytes} {es : List Declarator.Event}
    {r : RequestId} {job : DeclaredCustomJob}
    (h : (exec (Declarator.step hash) (Declarator.initial script) es).engine.declaredCustomJobs r =
      some job) (hvalidated : job.validated = true) :
    ∃ tx input, Validated job tx input := by
  obtain ⟨⟨tx, input, htx, hinput⟩, htxids⟩ :=
    (stored_exec hash script es).jobs _ _ h
  exact ⟨tx, input, hvalidated, htx, hinput, htxids hvalidated⟩

/-- The path of a validated job is the one a template over its txids has, whatever the declared
coinbase, and leads from any coinbase to the root over it and the txids. -/
theorem declared_path_agrees (hash : Bytes → Bytes) {job : DeclaredCustomJob} {tx : Transaction}
    {input : TxIn} (hv : Validated job tx input) {txids : List Bytes}
    (htxids : job.txidList = some txids) :
    ∃ path, job.getMerklePath hash = some path ∧
      path = Pool.BitcoinRpc.coinbaseMerklePath (Pool.hashPair hash) (List.replicate 32 0) txids ∧
      (∀ (job' : DeclaredCustomJob) (tx' : Transaction) (input' : TxIn), Validated job' tx' input' →
        job'.txidList = some txids → job'.getMerklePath hash = some path) ∧
      ∀ coinbase, Pool.BitcoinRpc.applyMerklePath (Pool.hashPair hash) coinbase path =
        Pool.BitcoinRpc.merkleRoot (Pool.hashPair hash) (List.replicate 32 0)
          (coinbase :: txids) := by
  have hpath := Pool.BitcoinRpc.coinbaseMerklePath_eq_branch (Pool.hashPair hash)
    (List.replicate 32 0) txids
  refine ⟨_, ?_, rfl, ?_, ?_⟩
  · rw [hpath]
    exact DeclaredCustomJob.getMerklePath_eq_branch hv.validated hv.coinbase htxids
  · intro job' tx' input' hv' htxids'
    rw [hpath]
    exact DeclaredCustomJob.getMerklePath_eq_branch hv'.validated hv'.coinbase htxids'
  · intro coinbase
    exact Pool.BitcoinRpc.applyMerklePath_coinbaseMerklePath _ _ coinbase txids

/-- The sample declaration with three transactions. -/
def sampleThree : DeclaredCustomJob :=
  { sampleIssued.job with
    txidList := some [List.replicate 32 7, List.replicate 32 8, List.replicate 32 9] }

theorem three_transactions_path :
    ∃ path, sampleThree.getMerklePath Sha256.digestTwice = some path ∧
      path = Pool.BitcoinRpc.coinbaseMerklePath (Pool.hashPair Sha256.digestTwice)
        (List.replicate 32 0) [List.replicate 32 7, List.replicate 32 8, List.replicate 32 9] := by
  have hv : Validated sampleThree sampleCoinbase sampleInput :=
    ⟨rfl, by decide +kernel, rfl, rfl⟩
  obtain ⟨path, hpath, heq, _, _⟩ := declared_path_agrees Sha256.digestTwice hv rfl
  exact ⟨path, hpath, heq⟩

end GridPoolSv2.JobDeclarator
