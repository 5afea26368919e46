import GridPoolSv2.Pool.BlockWeight
import GridPoolSv2.Pool.FeeWork

/-!
# Pool.ShareProof: the proofs made of accepted shares

`build_standard_gridpool_proof` and `build_extended_gridpool_proof`
(`pool/src/lib/channel_manager/mining_message_handler.rs`) put the header and the coinbase of a
share together again, for a node that checks them. The first has only the template, the extranonce
prefix and the outputs of the job, and takes the merkle root from it; the second has the two halves
of the coinbase and computes the root.

* `ProofOps` is what they read of a channel, with `validate_share`. `StandardLawful` and
  `ExtendedLawful` say what the jobs of `channels_sv2` are, by the transaction
  (`CoinbaseFrame.coinbase`) that a job fixes up to the extranonce.
* `ShareSubmission.Checks` is what the node does with a proof, from its texts alone.

Proof shape: both builders fill one record (`shareSubmission`), and `shareSubmission_checks` says
when it passes: the header has the merkle root of the coinbase along the path, and the coinbase
decodes. `buildStandard_eq_some` and `buildExtended_eq_some` unfold the builders as far as that
record, and the laws of `channels_sv2` give the root and the transaction. The root of a job is that
of the transaction id, which leaves the witness out. The first builder writes the coinbase with a
witness all the same, and the second without one, and the check decodes either. `oneJob` is a
channel with a single job that satisfies the laws.
-/

namespace GridPoolSv2.Pool

open Consensus
open Payout (Text)
open Sha256 (digestTwice)

/-! ### Proofs -/

/-- `gridpool::ShareSubmission`. -/
structure ShareSubmission (F : Type) where
  minerAddress : Text
  username : Text
  headerHex : Text
  coinbaseHex : Text
  merklePath : List Text
  payoutSnapshotId : Option Text
  prevBlockHash : Option Text
  difficulty : F
  deriving Repr, DecidableEq

/-- `consensus::serialize` of a header. -/
def Header.serialize (h : Header) : Bytes :=
  leBytes 4 h.version.toNat ++ (h.prevBlockhash ++ (h.merkleRoot ++
    (leBytes 4 h.time.toNat ++ (leBytes 4 h.bits.toNat ++ leBytes 4 h.nonce.toNat))))

/-- Where a serialized header has its merkle root. -/
def headerMerkleRoot (header : Bytes) : Bytes :=
  (header.drop 36).take 32

/-- The texts of a proof: the header has the given hash, the transaction has the given outputs, and
the path leads from its txid to the merkle root in the header. -/
def ShareSubmission.Checks {F : Type} (proof : ShareSubmission F) (shareHash : Bytes)
    (outputs : List TxOut) : Prop :=
  ∃ header bytes path coinbase, hexDecode proof.headerHex = .ok header ∧
    digestTwice header = shareHash ∧
    hexDecode proof.coinbaseHex = .ok bytes ∧ Transaction.deserialize bytes = some coinbase ∧
    coinbase.output = outputs ∧
    List.Forall₂ (fun text node => hexDecode text = .ok node) proof.merklePath path ∧
    applyMerklePath digestTwice (digestTwice coinbase.encodeBase) path = headerMerkleRoot header

theorem headerMerkleRoot_serialize {h : Header} (hprev : h.prevBlockhash.length = 32)
    (hroot : h.merkleRoot.length = 32) : headerMerkleRoot h.serialize = h.merkleRoot := by
  have hfront : (leBytes 4 h.version.toNat ++ h.prevBlockhash).length = 36 := by
    rw [List.length_append, leBytes_length, hprev]
  rw [headerMerkleRoot, Header.serialize, ← List.append_assoc, List.drop_left' hfront,
    List.take_left' hroot]

theorem length_applyMerklePath {leaf : Bytes} (hleaf : leaf.length = 32) (path : List Bytes) :
    (applyMerklePath digestTwice leaf path).length = 32 := by
  induction path generalizing leaf with
  | nil => exact hleaf
  | cons node path ih => exact ih (Sha256.digestTwice_length _)

/-! ### Coinbases -/

/-- What a job fixes of its coinbase: all but the extranonce at the end of the script signature. The
lengths of a vector are `usize`s. -/
structure CoinbaseFrame where
  version : UInt32
  scriptStart : Bytes
  sequence : UInt32
  outputs : List TxOut
  lockTime : UInt32
  scriptStart_length : scriptStart.length < 2 ^ 63
  outputs_fit : outputs.length < 2 ^ 64 ∧ ∀ o ∈ outputs, o.WellFormed

/-- `OutPoint::null()`. -/
def nullOutPoint : Bytes :=
  List.replicate 32 0 ++ List.replicate 4 0xff

namespace CoinbaseFrame

def input (f : CoinbaseFrame) (extranonce : Bytes) (witness : List Bytes) : TxIn where
  previousOutput := nullOutPoint
  scriptSig := f.scriptStart ++ extranonce
  sequence := f.sequence.toNat
  witness := witness

def coinbase (f : CoinbaseFrame) (extranonce : Bytes) (witness : List Bytes) : Transaction where
  version := f.version.toNat
  input := [f.input extranonce witness]
  output := f.outputs
  lockTime := f.lockTime.toNat

/-- The id of the coinbase; it does not depend on the witness. -/
def txid (f : CoinbaseFrame) (extranonce : Bytes) : Bytes :=
  digestTwice (f.coinbase extranonce []).encodeBase

variable (f : CoinbaseFrame)

/-- A coinbase of a frame can be read again. -/
theorem coinbase_wellFormed {extranonce : Bytes} {witness : List Bytes}
    (hextranonce : extranonce.length < 2 ^ 63)
    (hwitness : witness.length < 2 ^ 64 ∧ ∀ x ∈ witness, x.length < 2 ^ 64) :
    (f.coinbase extranonce witness).WellFormed where
  version := f.version.toNat_lt
  input := by
    refine ⟨Nat.one_lt_two_pow (by decide), ?_⟩
    intro i hi
    obtain rfl := List.mem_singleton.mp hi
    have hscript := f.scriptStart_length
    exact
      { previousOutput := rfl
        scriptSig := by
          simp only [input, List.length_append]
          omega
        sequence := f.sequence.toNat_lt
        witness := hwitness }
  output := f.outputs_fit
  lockTime := f.lockTime.toNat_lt

/-- Without a witness there is no flag. -/
theorem encode_coinbase (extranonce : Bytes) :
    (f.coinbase extranonce []).encode = (f.coinbase extranonce []).encodeBase := by
  simp [Transaction.encode, Transaction.encodeBase, Transaction.flagged, coinbase, input, encodeVec,
    TxOut.encodeVec]

end CoinbaseFrame

/-! ### Jobs and channels -/

/-- `/pool/miner/`, which `channels_sv2` puts into script signatures; the channels of a pool have no
miner. -/
def poolMinerTag (pool miner : Text) : Bytes :=
  utf8 ('/' :: (pool ++ '/' :: (miner ++ ['/'])))

/-- The data push of up to 75 bytes. -/
def pushBytes (bytes : Bytes) : Bytes :=
  UInt8.ofNat bytes.length :: bytes

/-- `NewTemplate`, with the fields a coinbase is made from. The prefix is a `B0255`. -/
structure CoinbaseTemplate where
  coinbaseTxVersion : UInt32
  coinbasePrefix : Bytes
  coinbaseTxInputSequence : UInt32
  coinbaseTxLocktime : UInt32
  merklePath : List Bytes
  coinbasePrefix_length : coinbasePrefix.length ≤ 255

/-- `StandardJob`. The extranonce prefix is all of the extranonce. -/
structure StandardJob where
  jobId : JobId
  template : CoinbaseTemplate
  extranoncePrefix : Bytes
  coinbaseOutputs : List TxOut
  merkleRoot : Bytes
  extranoncePrefix_length : extranoncePrefix.length ≤ 32
  coinbaseOutputs_fit : coinbaseOutputs.length < 2 ^ 64 ∧ ∀ o ∈ coinbaseOutputs, o.WellFormed

/-- `ExtendedJob`, with the halves of the coinbase as they are without witness data. -/
structure ExtendedJob where
  jobId : JobId
  extranoncePrefix : Bytes
  coinbaseTxPrefix : Bytes
  coinbaseTxSuffix : Bytes
  coinbaseOutputs : List TxOut
  merklePath : List Bytes

/-- `ChainTip`. -/
structure ShareTip where
  prevHash : Bytes
  nbits : UInt32

/-- What the proof builders read of a channel, and `validate_share`. -/
structure ProofOps (C J : Type) where
  activeJob : C → Option J
  pastJob : C → JobId → Option J
  jobId : J → JobId
  chainTip : C → Option ShareTip
  validateShare : C → SubmitShares → Except String ShareValidationResult × C

/-- The header of a share. -/
def shareHeader (tip : ShareTip) (merkleRoot : Bytes) (msg : SubmitShares) : Header where
  version := msg.version
  prevBlockhash := tip.prevHash
  merkleRoot := merkleRoot
  time := msg.ntime
  bits := tip.nbits
  nonce := msg.nonce

namespace ProofOps

variable {C J : Type}

/-- `get_active_job` with the right id, or else `get_past_job`. -/
def namedJob (ops : ProofOps C J) (ch : C) (jobId : JobId) : Option J :=
  ((ops.activeJob ch).filter fun job => ops.jobId job = jobId).or (ops.pastJob ch jobId)

/-- Validation hashes the header on the tip of the channel, with the merkle root of the named job,
and changes neither jobs nor tip. -/
structure Lawful (ops : ProofOps C J) (merkleRoot : J → Bytes → Bytes) : Prop where
  accepted : ∀ {ch ch' msg r}, ops.validateShare ch msg = (.ok r, ch') →
    ∃ job tip, ops.namedJob ch msg.jobId = some job ∧ ops.chainTip ch = some tip ∧
      r.shareHash = digestTwice (shareHeader tip (merkleRoot job msg.extranonce) msg).serialize
  namedJob : ∀ ch msg jobId, ops.namedJob (ops.validateShare ch msg).2 jobId = ops.namedJob ch jobId
  chainTip : ∀ ch msg, ops.chainTip (ops.validateShare ch msg).2 = ops.chainTip ch

/-- What a builder finds after a share is accepted is what the share was validated with. -/
theorem Lawful.accepted_found {ops : ProofOps C J} {merkleRoot : J → Bytes → Bytes}
    (law : ops.Lawful merkleRoot) {ch ch' : C} {msg : SubmitShares} {r : ShareValidationResult}
    (hvalid : ops.validateShare ch msg = (.ok r, ch')) {job : J} {tip : ShareTip}
    (hjob : ops.namedJob ch' msg.jobId = some job) (htip : ops.chainTip ch' = some tip) :
    ops.namedJob ch msg.jobId = some job ∧
      r.shareHash =
        digestTwice (shareHeader tip (merkleRoot job msg.extranonce) msg).serialize := by
  obtain ⟨job', tip', hjob', htip', hhash⟩ := law.accepted hvalid
  have hsame := law.namedJob ch msg msg.jobId
  have hsameTip := law.chainTip ch msg
  rw [hvalid, hjob, hjob'] at hsame
  rw [hvalid, htip, htip'] at hsameTip
  rw [Option.some.inj hsame, Option.some.inj hsameTip]
  exact ⟨hjob', hhash⟩

end ProofOps

/-- The coinbase of a standard job: its script signature is the prefix of the template, a push of
the tag and a push of the extranonce. -/
def StandardJob.frame (job : StandardJob) (tag : Bytes) (htag : tag.length ≤ 75) :
    CoinbaseFrame where
  version := job.template.coinbaseTxVersion
  scriptStart := job.template.coinbasePrefix ++
    (pushBytes tag ++ [UInt8.ofNat job.extranoncePrefix.length])
  sequence := job.template.coinbaseTxInputSequence
  outputs := job.coinbaseOutputs
  lockTime := job.template.coinbaseTxLocktime
  scriptStart_length := by
    have hprefix := job.template.coinbasePrefix_length
    simp only [pushBytes, List.length_append, List.length_cons, List.length_nil]
    omega
  outputs_fit := job.coinbaseOutputs_fit

/-- Standard channels: the merkle root of a job is that of its coinbase. -/
structure StandardLawful {C : Type} (ops : ProofOps C StandardJob) (poolTag : Text) : Prop
    extends ops.Lawful (fun job _ => job.merkleRoot) where
  merkleRoot : ∀ {ch jobId job} (htag : (poolMinerTag poolTag []).length ≤ 75),
    ops.namedJob ch jobId = some job →
      job.merkleRoot = applyMerklePath digestTwice
        ((job.frame (poolMinerTag poolTag []) htag).txid job.extranoncePrefix)
          job.template.merklePath

/-- The halves of an extended job with the extranonce of a share between them. -/
def ExtendedJob.coinbaseBytes (job : ExtendedJob) (extranonce : Bytes) : Bytes :=
  job.coinbaseTxPrefix ++ ((job.extranoncePrefix ++ extranonce) ++ job.coinbaseTxSuffix)

/-- Extended channels: for the extranonce of an accepted share, the halves of the job are those of a
coinbase with its outputs, and the root is computed from that coinbase. -/
structure ExtendedLawful {C : Type} (ops : ProofOps C ExtendedJob) : Prop
    extends ops.Lawful (fun job extranonce =>
      applyMerklePath digestTwice (digestTwice (job.coinbaseBytes extranonce)) job.merklePath) where
  split : ∀ {ch ch' msg r job}, ops.validateShare ch msg = (.ok r, ch') →
    ops.namedJob ch msg.jobId = some job →
      (job.extranoncePrefix ++ msg.extranonce).length ≤ 32 ∧
        ∃ f : CoinbaseFrame, f.outputs = job.coinbaseOutputs ∧
          job.coinbaseBytes msg.extranonce =
            (f.coinbase (job.extranoncePrefix ++ msg.extranonce) []).encodeBase

/-! ### The builders -/

section Builders

variable {C F : Type}

/-- The texts both builders end with. -/
def shareSubmission (payout : ChannelPayout) (header : Header) (coinbase : Bytes)
    (merklePath : List Bytes) (achievedDifficulty : F) : ShareSubmission F where
  minerAddress := payout.payoutAddress
  username := payout.username
  headerHex := hexEncode header.serialize
  coinbaseHex := hexEncode coinbase
  merklePath := merklePath.map hexEncode
  payoutSnapshotId := none
  prevBlockHash := some (hexEncode header.prevBlockhash.reverse)
  difficulty := achievedDifficulty

/-- The script signature that `build_standard_gridpool_proof` puts together. -/
def standardScriptSig (coinbasePrefix tag extranoncePrefix : Bytes) : Bytes :=
  coinbasePrefix ++ [UInt8.ofNat tag.length] ++ tag ++ [UInt8.ofNat extranoncePrefix.length] ++
    extranoncePrefix

/-- `build_standard_gridpool_proof`. -/
def buildStandardGridpoolProof (ops : ProofOps C StandardJob) (poolTag : Text) (channel : C)
    (msg : SubmitShares) (payout : ChannelPayout) (achievedDifficulty : F) :
    Option (ShareSubmission F) :=
  match ops.namedJob channel msg.jobId with
  | none => none
  | some job =>
      match ops.chainTip channel with
      | none => none
      | some chainTip =>
          let tag := utf8 ('/' :: (poolTag ++ ['/', '/']))
          if 61 < tag.length then none
          else
            let coinbase : Transaction :=
              { version := job.template.coinbaseTxVersion.toNat
                lockTime := job.template.coinbaseTxLocktime.toNat
                input :=
                  [{ previousOutput := nullOutPoint
                     scriptSig :=
                       standardScriptSig job.template.coinbasePrefix tag job.extranoncePrefix
                     sequence := job.template.coinbaseTxInputSequence.toNat
                     witness := [List.replicate 32 0] }]
                output := job.coinbaseOutputs }
            if chainTip.prevHash.length ≠ 32 then none
            else
              some (shareSubmission payout (shareHeader chainTip job.merkleRoot msg) coinbase.encode
                job.template.merklePath achievedDifficulty)

/-- `build_extended_gridpool_proof`. -/
def buildExtendedGridpoolProof (ops : ProofOps C ExtendedJob) (channel : C) (msg : SubmitShares)
    (payout : ChannelPayout) (achievedDifficulty : F) : Option (ShareSubmission F) :=
  match ops.namedJob channel msg.jobId with
  | none => none
  | some job =>
      match ops.chainTip channel with
      | none => none
      | some chainTip =>
          let fullExtranonce := job.extranoncePrefix ++ msg.extranonce
          let coinbase := job.coinbaseTxPrefix ++ fullExtranonce ++ job.coinbaseTxSuffix
          match Transaction.deserialize coinbase with
          | none => none
          | some coinbaseTx =>
              let merkleRoot := applyMerklePath digestTwice (digestTwice coinbaseTx.encodeBase)
                job.merklePath
              if chainTip.prevHash.length ≠ 32 then none
              else
                some (shareSubmission payout (shareHeader chainTip merkleRoot msg) coinbase
                  job.merklePath achievedDifficulty)

end Builders

/-! ### The proofs are right -/

section Builders

variable {C F : Type} {payout : ChannelPayout} {achievedDifficulty : F}

theorem forall₂_hexDecode_hexEncode (path : List Bytes) :
    List.Forall₂ (fun text node => hexDecode text = .ok node) (path.map hexEncode) path := by
  rw [List.forall₂_map_left_iff]
  exact List.forall₂_same.mpr fun node _ => hexDecode_hexEncode node

/-- A proof checks if its header is that of the share, with the root over the coinbase it gives. -/
theorem shareSubmission_checks {header : Header} {coinbase shareHash : Bytes} {tx : Transaction}
    {path : List Bytes} (hprev : header.prevBlockhash.length = 32)
    (htx : Transaction.deserialize coinbase = some tx)
    (hroot : header.merkleRoot = applyMerklePath digestTwice (digestTwice tx.encodeBase) path)
    (hhash : digestTwice header.serialize = shareHash) :
    (shareSubmission payout header coinbase path achievedDifficulty).Checks shareHash
    tx.output := by
  have hlength : header.merkleRoot.length = 32 := by
    rw [hroot]
    exact length_applyMerklePath (Sha256.digestTwice_length _) path
  refine ⟨header.serialize, coinbase, path, tx, hexDecode_hexEncode _, hhash, hexDecode_hexEncode _,
    htx, rfl, forall₂_hexDecode_hexEncode path, ?_⟩
  rw [headerMerkleRoot_serialize hprev hlength, hroot]

theorem poolMinerTag_nil (poolTag : Text) :
    poolMinerTag poolTag [] = utf8 ('/' :: (poolTag ++ ['/', '/'])) := rfl

/-- What a standard proof was built from. -/
theorem buildStandard_eq_some {ops : ProofOps C StandardJob} {poolTag : Text} {channel : C}
    {msg : SubmitShares} {proof : ShareSubmission F}
    (h : buildStandardGridpoolProof ops poolTag channel msg payout achievedDifficulty =
      some proof) :
    ∃ job tip, ∃ htag : (poolMinerTag poolTag []).length ≤ 75,
      ops.namedJob channel msg.jobId = some job ∧ ops.chainTip channel = some tip ∧
      tip.prevHash.length = 32 ∧
      proof = shareSubmission payout (shareHeader tip job.merkleRoot msg)
        ((job.frame (poolMinerTag poolTag []) htag).coinbase job.extranoncePrefix
          [List.replicate 32 0]).encode job.template.merklePath achievedDifficulty := by
  unfold buildStandardGridpoolProof at h
  split at h
  · cases h
  · rename_i job hjob
    split at h
    · cases h
    · rename_i tip htip
      dsimp only at h
      split at h
      · cases h
      · rename_i htag
        split at h
        · cases h
        · rename_i hprev
          rw [← poolMinerTag_nil] at htag h
          refine ⟨job, tip, by omega, hjob, htip, not_not.mp hprev, ?_⟩
          rw [← Option.some.inj h]
          simp [StandardJob.frame, CoinbaseFrame.coinbase, CoinbaseFrame.input, pushBytes,
            standardScriptSig]

/-- A share that is accepted finds its job, so that only the tag is in the way of a proof. -/
theorem exists_standard {ops : ProofOps C StandardJob} {merkleRoot : StandardJob → Bytes → Bytes}
    (law : ops.Lawful merkleRoot) {poolTag : Text} (htag : (poolMinerTag poolTag []).length ≤ 61)
    {ch ch' : C} {msg : SubmitShares} {r : ShareValidationResult}
    (hvalid : ops.validateShare ch msg = (.ok r, ch'))
    (hprev : ∀ tip, ops.chainTip ch = some tip → tip.prevHash.length = 32) :
    ∃ proof, buildStandardGridpoolProof ops poolTag ch' msg payout achievedDifficulty =
      some proof := by
  obtain ⟨job, tip, hjob, htip, -⟩ := law.accepted hvalid
  have hsame := law.namedJob ch msg msg.jobId
  have hsameTip := law.chainTip ch msg
  rw [hvalid, hjob] at hsame
  rw [hvalid, htip] at hsameTip
  have hlength : ¬ tip.prevHash.length ≠ 32 := not_not.mpr (hprev tip htip)
  rw [poolMinerTag_nil] at htag
  simp only [buildStandardGridpoolProof, hsame, hsameTip, if_neg (Nat.not_lt.mpr htag),
    if_neg hlength]
  exact ⟨_, rfl⟩

theorem standard_checks {ops : ProofOps C StandardJob} {poolTag : Text}
    (law : StandardLawful ops poolTag) {ch ch' : C} {msg : SubmitShares} {r : ShareValidationResult}
    (hvalid : ops.validateShare ch msg = (.ok r, ch')) {proof : ShareSubmission F}
    (h : buildStandardGridpoolProof ops poolTag ch' msg payout achievedDifficulty = some proof) :
    ∃ job, ops.namedJob ch msg.jobId = some job ∧ proof.Checks r.shareHash job.coinbaseOutputs := by
  obtain ⟨job, tip, htag, hfound, htip, hprev, rfl⟩ := buildStandard_eq_some h
  obtain ⟨hjob, hhash⟩ := law.accepted_found hvalid hfound htip
  refine ⟨job, hjob, shareSubmission_checks hprev (Transaction.deserialize_encode ?_) ?_ hhash.symm⟩
  · refine CoinbaseFrame.coinbase_wellFormed _ ?_ ⟨Nat.one_lt_two_pow (by decide), ?_⟩
    · have hextranonce := job.extranoncePrefix_length
      omega
    · intro x hx
      rw [List.mem_singleton.mp hx]
      decide
  · exact law.merkleRoot htag hjob

theorem buildExtended_eq_some {ops : ProofOps C ExtendedJob} {channel : C} {msg : SubmitShares}
    {proof : ShareSubmission F}
    (h : buildExtendedGridpoolProof ops channel msg payout achievedDifficulty = some proof) :
    ∃ job tip tx, ops.namedJob channel msg.jobId = some job ∧ ops.chainTip channel = some tip ∧
      tip.prevHash.length = 32 ∧
      Transaction.deserialize (job.coinbaseBytes msg.extranonce) = some tx ∧
      proof = shareSubmission payout
        (shareHeader tip
          (applyMerklePath digestTwice (digestTwice tx.encodeBase) job.merklePath) msg)
        (job.coinbaseBytes msg.extranonce) job.merklePath achievedDifficulty := by
  unfold buildExtendedGridpoolProof at h
  split at h
  · cases h
  · rename_i job hjob
    split at h
    · cases h
    · rename_i tip htip
      simp only [List.append_assoc] at h
      split at h
      · cases h
      · rename_i tx htx
        split at h
        · cases h
        · rename_i hprev
          rw [← List.append_assoc job.extranoncePrefix] at htx h
          exact ⟨job, tip, tx, hjob, htip, not_not.mp hprev, htx, (Option.some.inj h).symm⟩

/-- The coinbase is read back from its halves. -/
theorem ExtendedLawful.deserialize {ops : ProofOps C ExtendedJob} (law : ExtendedLawful ops)
    {ch ch' : C} {msg : SubmitShares} {r : ShareValidationResult} {job : ExtendedJob}
    (hvalid : ops.validateShare ch msg = (.ok r, ch'))
    (hjob : ops.namedJob ch msg.jobId = some job) :
    ∃ tx, Transaction.deserialize (job.coinbaseBytes msg.extranonce) = some tx ∧
      tx.output = job.coinbaseOutputs ∧ tx.encodeBase = job.coinbaseBytes msg.extranonce := by
  obtain ⟨hlength, f, houtputs, hsplit⟩ := law.split hvalid hjob
  have hwf : (f.coinbase (job.extranoncePrefix ++ msg.extranonce) []).WellFormed :=
    f.coinbase_wellFormed (hlength.trans_lt (by decide)) ⟨by decide, by simp⟩
  have hread := Transaction.deserialize_encode hwf
  rw [f.encode_coinbase, ← hsplit] at hread
  exact ⟨_, hread, houtputs, hsplit.symm⟩

theorem exists_extended {ops : ProofOps C ExtendedJob} (law : ExtendedLawful ops) {ch ch' : C}
    {msg : SubmitShares} {r : ShareValidationResult}
    (hvalid : ops.validateShare ch msg = (.ok r, ch'))
    (hprev : ∀ tip, ops.chainTip ch = some tip → tip.prevHash.length = 32) :
    ∃ proof, buildExtendedGridpoolProof ops ch' msg payout achievedDifficulty = some proof := by
  obtain ⟨job, tip, hjob, htip, -⟩ := law.accepted hvalid
  have hsame := law.namedJob ch msg msg.jobId
  have hsameTip := law.chainTip ch msg
  rw [hvalid, hjob] at hsame
  rw [hvalid, htip] at hsameTip
  obtain ⟨tx, htx, -⟩ := law.deserialize hvalid hjob
  rw [ExtendedJob.coinbaseBytes, ← List.append_assoc] at htx
  have hlength : ¬ tip.prevHash.length ≠ 32 := not_not.mpr (hprev tip htip)
  simp only [buildExtendedGridpoolProof, hsame, hsameTip, htx, if_neg hlength]
  exact ⟨_, rfl⟩

theorem extended_checks {ops : ProofOps C ExtendedJob} (law : ExtendedLawful ops) {ch ch' : C}
    {msg : SubmitShares} {r : ShareValidationResult}
    (hvalid : ops.validateShare ch msg = (.ok r, ch')) {proof : ShareSubmission F}
    (h : buildExtendedGridpoolProof ops ch' msg payout achievedDifficulty = some proof) :
    ∃ job, ops.namedJob ch msg.jobId = some job ∧ proof.Checks r.shareHash job.coinbaseOutputs := by
  obtain ⟨job, tip, tx, hfound, htip, hprev, htx, rfl⟩ := buildExtended_eq_some h
  obtain ⟨hjob, hhash⟩ := law.accepted_found hvalid hfound htip
  obtain ⟨tx', hread, houtputs, hbase⟩ := law.deserialize hvalid hjob
  obtain rfl := Option.some.inj (htx.symm.trans hread)
  refine ⟨job, hjob, ?_⟩
  rw [← houtputs]
  refine shareSubmission_checks hprev htx rfl ?_
  rw [hbase]
  exact hhash.symm

end Builders

/-! ### Channels with one job -/

section OneJob

variable {J : Type} (jobId : J → JobId) (merkleRoot : J → Bytes → Bytes) (extranonceSize : Nat)
  (job : J) (tip : ShareTip)

/-- A channel with one active job that accepts every share for it. -/
def oneJob : ProofOps Unit J where
  activeJob _ := some job
  pastJob _ _ := none
  jobId := jobId
  chainTip _ := some tip
  validateShare ch msg :=
    if msg.jobId = jobId job ∧ msg.extranonce.length = extranonceSize then
      (.ok (.valid (digestTwice (shareHeader tip (merkleRoot job msg.extranonce) msg).serialize)),
        ch)
    else (.error "invalid-job-id", ch)

variable {jobId merkleRoot extranonceSize job tip}

/-- The only job is the one that is found. -/
theorem oneJob_namedJob {ch : Unit} {id : JobId} {found : J}
    (h : (oneJob jobId merkleRoot extranonceSize job tip).namedJob ch id = some found) :
    found = job := by
  simp only [ProofOps.namedJob, oneJob, Option.or_none, Option.filter_some] at h
  split at h
  · exact (Option.some.inj h).symm
  · cases h

theorem oneJob_validateShare (ch : Unit) {msg : SubmitShares} (hid : msg.jobId = jobId job)
    (hsize : msg.extranonce.length = extranonceSize) :
    ∃ r, (oneJob jobId merkleRoot extranonceSize job tip).validateShare ch msg = (.ok r, ch) :=
  ⟨_, if_pos ⟨hid, hsize⟩⟩

theorem oneJob_accepts {ch ch' : Unit} {msg : SubmitShares} {r : ShareValidationResult}
    (h : (oneJob jobId merkleRoot extranonceSize job tip).validateShare ch msg = (.ok r, ch')) :
    msg.jobId = jobId job ∧ msg.extranonce.length = extranonceSize ∧
      r = .valid (digestTwice (shareHeader tip (merkleRoot job msg.extranonce) msg).serialize) := by
  simp only [oneJob] at h
  split at h
  · rename_i hmsg
    cases h
    exact ⟨hmsg.1, hmsg.2, rfl⟩
  · cases h

theorem oneJob_lawful : (oneJob jobId merkleRoot extranonceSize job tip).Lawful merkleRoot where
  accepted h := by
    obtain ⟨hid, -, rfl⟩ := oneJob_accepts h
    refine ⟨job, tip, ?_, rfl, rfl⟩
    simp [ProofOps.namedJob, oneJob, hid]
  namedJob _ _ _ := rfl
  chainTip _ _ := rfl

end OneJob

/-- The halves of a coinbase around an extranonce of a given size. -/
def CoinbaseFrame.halves (f : CoinbaseFrame) (extranonceSize : Nat) : Bytes × Bytes :=
  (leBytes 4 f.version.toNat ++ (encodeVarInt 1 ++ (nullOutPoint ++
      (encodeVarInt (f.scriptStart.length + extranonceSize) ++ f.scriptStart))),
    leBytes 4 f.sequence.toNat ++ (TxOut.encodeVec f.outputs ++ leBytes 4 f.lockTime.toNat))

theorem CoinbaseFrame.halves_append (f : CoinbaseFrame) {extranonceSize : Nat} {extranonce : Bytes}
    (hlength : extranonce.length = extranonceSize) :
    (f.halves extranonceSize).1 ++ (extranonce ++ (f.halves extranonceSize).2) =
      (f.coinbase extranonce []).encodeBase := by
  subst hlength
  simp [halves, coinbase, input, Transaction.encodeBase, TxIn.encode]

/-- A job whose coinbase pays nobody. -/
def sampleStandardJob : StandardJob where
  jobId := 1
  template :=
    { coinbaseTxVersion := 2
      coinbasePrefix := [0x03, 0x40, 0x0d, 0x03]
      coinbaseTxInputSequence := 0xffffffff
      coinbaseTxLocktime := 0
      merklePath := [List.replicate 32 1]
      coinbasePrefix_length := by decide }
  extranoncePrefix := List.replicate 20 7
  coinbaseOutputs := [⟨5000000000, [0x51]⟩]
  merkleRoot := []
  extranoncePrefix_length := by decide
  coinbaseOutputs_fit := by decide

theorem sampleTag_length : (poolMinerTag "pool".toList []).length ≤ 75 := by
  decide

def sampleFrame : CoinbaseFrame :=
  sampleStandardJob.frame (poolMinerTag "pool".toList []) sampleTag_length

/-- The job with its merkle root. -/
def rootedStandardJob : StandardJob :=
  { sampleStandardJob with
    merkleRoot := applyMerklePath digestTwice (sampleFrame.txid sampleStandardJob.extranoncePrefix)
      sampleStandardJob.template.merklePath }

/-- The same coinbase for an extended channel with 16 bytes for its miners. -/
def sampleExtendedJob : ExtendedJob where
  jobId := 1
  extranoncePrefix := List.replicate 4 7
  coinbaseTxPrefix := (sampleFrame.halves 20).1
  coinbaseTxSuffix := (sampleFrame.halves 20).2
  coinbaseOutputs := sampleFrame.outputs
  merklePath := sampleStandardJob.template.merklePath

def sampleShareTip : ShareTip where
  prevHash := List.replicate 32 9
  nbits := 0x1d00ffff

def standardChannel : ProofOps Unit StandardJob :=
  oneJob StandardJob.jobId (fun job _ => job.merkleRoot) 0 rootedStandardJob sampleShareTip

def extendedChannel : ProofOps Unit ExtendedJob :=
  oneJob ExtendedJob.jobId
    (fun job extranonce =>
      applyMerklePath digestTwice (digestTwice (job.coinbaseBytes extranonce)) job.merklePath)
    16 sampleExtendedJob sampleShareTip

theorem standardChannel_lawful : StandardLawful standardChannel "pool".toList where
  toLawful := oneJob_lawful
  merkleRoot _ hjob := by
    obtain rfl := oneJob_namedJob hjob
    rfl

theorem extendedChannel_lawful : ExtendedLawful extendedChannel where
  toLawful := oneJob_lawful
  split hvalid hjob := by
    obtain rfl := oneJob_namedJob hjob
    obtain ⟨-, hsize, -⟩ := oneJob_accepts hvalid
    have hlength : (sampleExtendedJob.extranoncePrefix ++ _).length = 20 :=
      (List.length_append ..).trans (congrArg (4 + ·) hsize)
    exact ⟨hlength.le.trans (by decide), sampleFrame, rfl, sampleFrame.halves_append hlength⟩

/-- A share for job 1 of a channel. -/
def shareWith (extranonce : Bytes) : SubmitShares where
  channelId := 1
  sequenceNumber := 0
  jobId := 1
  nonce := 11
  ntime := 1700000000
  version := 0x20000000
  extranonce := extranonce

def samplePayout : ChannelPayout where
  payoutAddress := "bc1".toList
  username := "bc1.worker".toList

/-! ### The result -/

/-- For every accepted share, of both kinds of channels: a proof that is built from the channel
after validation checks against the hash of the share and the outputs of the job. -/
theorem built_proofs_check {C D F : Type} {standard : ProofOps C StandardJob}
    {extended : ProofOps D ExtendedJob} {poolTag : Text}
    (hstandard : StandardLawful standard poolTag)
    (hextended : ExtendedLawful extended) :
    (∀ ch ch' msg r payout (achievedDifficulty : F) proof,
      standard.validateShare ch msg = (.ok r, ch') →
      buildStandardGridpoolProof standard poolTag ch' msg payout achievedDifficulty = some proof →
        ∃ job, standard.namedJob ch msg.jobId = some job ∧
          proof.Checks r.shareHash job.coinbaseOutputs) ∧
      ∀ ch ch' msg r payout (achievedDifficulty : F) proof,
        extended.validateShare ch msg = (.ok r, ch') →
        buildExtendedGridpoolProof extended ch' msg payout achievedDifficulty = some proof →
          ∃ job, extended.namedJob ch msg.jobId = some job ∧
            proof.Checks r.shareHash job.coinbaseOutputs := by
  refine ⟨?_, ?_⟩
  · intro ch ch' msg r payout achievedDifficulty proof hvalid h
    exact standard_checks hstandard hvalid h
  · intro ch ch' msg r payout achievedDifficulty proof hvalid h
    exact extended_checks hextended hvalid h

/-- A share for each of the two jobs, and its proof. -/
theorem built_proofs_check_oneJob :
    (∃ r proof, standardChannel.validateShare () (shareWith []) = (.ok r, ()) ∧
        buildStandardGridpoolProof standardChannel "pool".toList () (shareWith []) samplePayout 1 =
          some proof ∧
        proof.Checks r.shareHash [⟨5000000000, [0x51]⟩]) ∧
      ∃ r proof,
        extendedChannel.validateShare () (shareWith (List.replicate 16 3)) = (.ok r, ()) ∧
          buildExtendedGridpoolProof extendedChannel () (shareWith (List.replicate 16 3))
            samplePayout 1 = some proof ∧
          proof.Checks r.shareHash [⟨5000000000, [0x51]⟩] := by
  have hcheck := built_proofs_check (F := Nat) standardChannel_lawful extendedChannel_lawful
  have hprev : ∀ tip, some sampleShareTip = some tip → tip.prevHash.length = 32 := by
    intro tip htip
    obtain rfl := Option.some.inj htip
    rfl
  refine ⟨?_, ?_⟩
  · obtain ⟨r, hvalid⟩ : ∃ r, standardChannel.validateShare () (shareWith []) = (.ok r, ()) :=
      oneJob_validateShare () rfl rfl
    have hbuilt : ∃ proof, buildStandardGridpoolProof standardChannel "pool".toList ()
        (shareWith []) samplePayout 1 = some proof :=
      exists_standard standardChannel_lawful.toLawful (by decide) hvalid hprev
    obtain ⟨proof, hproof⟩ := hbuilt
    obtain ⟨job, hjob, hchecks⟩ := hcheck.1 () () _ _ samplePayout 1 proof hvalid hproof
    obtain rfl := oneJob_namedJob hjob
    exact ⟨r, proof, hvalid, hproof, hchecks⟩
  · obtain ⟨r, hvalid⟩ : ∃ r,
        extendedChannel.validateShare () (shareWith (List.replicate 16 3)) = (.ok r, ()) :=
      oneJob_validateShare () rfl rfl
    have hbuilt : ∃ proof, buildExtendedGridpoolProof extendedChannel ()
        (shareWith (List.replicate 16 3)) samplePayout 1 = some proof :=
      exists_extended extendedChannel_lawful hvalid hprev
    obtain ⟨proof, hproof⟩ := hbuilt
    obtain ⟨job, hjob, hchecks⟩ := hcheck.2 () () _ _ samplePayout 1 proof hvalid hproof
    obtain rfl := oneJob_namedJob hjob
    exact ⟨r, proof, hvalid, hproof, hchecks⟩

end GridPoolSv2.Pool
