import GridPoolSv2.Lib.ByteOrder
import GridPoolSv2.Lib.Runs
import GridPoolSv2.Lib.Sha256
import Mathlib.Tactic.Ring

/-!
# MiningDevice.FastHasher: hashing a header from its midstate

The model of `FastSha256d` and `hash_meets_target_le` (`integration-tests/lib/mining_device`). The
hasher compresses the first 64 bytes of a header once. It keeps the block of the other 16 bytes and
the block of the second pass as buffers, and each attempt overwrites the time and the nonce in the
one and the digest in the other.

* `Prepared` is the invariant of the buffers: what one attempt leaves behind is good for the next
  one, so any sequence of attempts computes the double SHA-256 of the header (`hashAll_eq`).
* The comparison with the target goes over eight words of 32 bits, from the most significant one.

The hash is not a parameter here: the hasher calls the compression function itself, so its model is
fixed to `Sha256.compress`, and what it computes is compared with `Sha256.digestTwice`.
-/

namespace GridPoolSv2.MiningDevice

open Consensus (Bytes leBytes leNat leBytes_length)
open ByteOrder (Word)
open Sha256

/-- The block header of `bitcoin::block::Header`. -/
structure Header where
  version : UInt32
  prevBlockhash : Word 32
  merkleRoot : Word 32
  time : UInt32
  bits : UInt32
  nonce : UInt32
  deriving Repr, DecidableEq

namespace Header

/-- `consensus::serialize` of a header. -/
def serialize (h : Header) : Bytes :=
  leBytes 4 h.version.toNat ++ (h.prevBlockhash.bytes ++ (h.merkleRoot.bytes ++
    (leBytes 4 h.time.toNat ++ (leBytes 4 h.bits.toNat ++ leBytes 4 h.nonce.toNat))))

/-- `block_hash`, as the bytes of the array. -/
def blockHash (h : Header) : Bytes :=
  digestTwice h.serialize

end Header

/-! ### The hasher -/

/-- `buf[off..off + src.len()].copy_from_slice(src)` -/
def copyFromSlice (buf : Bytes) (off : Nat) (src : Bytes) : Bytes :=
  buf.take off ++ (src ++ buf.drop (off + src.length))

/-- `n.to_be_bytes()` of a `u64`. -/
def toBeBytes (n : Nat) : Bytes :=
  (leBytes 8 n).reverse

/-- `compress256` of one block. -/
def compress256 (state : Words) (block : Bytes) : Words :=
  compress state (toWords block)

/-- The words of a state are written into a buffer, one after the other. -/
def copyWords (buf : Bytes) (words : List Nat) : Bytes :=
  words.zipIdx.foldl (fun buf (word, i) => copyFromSlice buf (i * 4) (wordBytes word)) buf

structure FastSha256d where
  state0 : Words
  block1 : Bytes
  secondBlock : Bytes

namespace FastSha256d

def fromHeaderStatic (h : Header) : FastSha256d :=
  let headerBytes := h.serialize
  let chunk0 := headerBytes.take 64
  let chunk1Last16 := headerBytes.drop 64
  let block1 := copyFromSlice (List.replicate 64 0) 0 chunk1Last16
  let block1 := copyFromSlice block1 16 [0x80]
  let secondBlock := copyFromSlice (List.replicate 64 0) 32 [0x80]
  { state0 := compress256 initial chunk0
    block1 := copyFromSlice block1 56 (toBeBytes 640)
    secondBlock := copyFromSlice secondBlock 56 (toBeBytes 256) }

/-- The hash, and the hasher with its buffers as they are left. -/
def hashWithNonceTime (fast : FastSha256d) (nonce time : UInt32) : Bytes × FastSha256d :=
  let block1 := copyFromSlice fast.block1 4 (leBytes 4 time.toNat)
  let block1 := copyFromSlice block1 12 (leBytes 4 nonce.toNat)
  let state1 := compress256 fast.state0 block1
  let secondBlock := copyWords fast.secondBlock state1.toList
  let state2 := compress256 initial secondBlock
  (copyWords (List.replicate 32 0) state2.toList, { fast with block1, secondBlock })

/-- The hashes of a sequence of attempts, each with its nonce and time. -/
def hashAll : FastSha256d → List (UInt32 × UInt32) → List Bytes
  | _, [] => []
  | fast, (nonce, time) :: attempts =>
      let r := fast.hashWithNonceTime nonce time
      r.1 :: hashAll r.2 attempts

end FastSha256d

/-- The loop of `hash_meets_target_le`, which has the words from the `i`-th on left. -/
def meetsFrom (hash target : Bytes) : Nat → Bool
  | 0 => true
  | i + 1 =>
      let hw := leNat ((hash.drop (i * 4)).take 4)
      let tw := leNat ((target.drop (i * 4)).take 4)
      if hw < tw then true
      else if tw < hw then false
      else meetsFrom hash target i

def hashMeetsTargetLe (hash target : Bytes) : Bool :=
  meetsFrom hash target 8

/-! ### Buffers -/

theorem copyFromSlice_append {front old src rest : Bytes} {off : Nat} (hoff : front.length = off)
    (hold : old.length = src.length) :
    copyFromSlice (front ++ (old ++ rest)) off src = front ++ (src ++ rest) := by
  have hdrop : (front ++ (old ++ rest)).drop (off + src.length) = rest := by
    rw [← List.append_assoc, List.drop_left' (by rw [List.length_append, hoff, hold])]
  rw [copyFromSlice, List.take_left' hoff, hdrop]

theorem length_wordBytes (w : Nat) : (wordBytes w).length = 4 := rfl

/-- The words from number `k` on are written behind the ones before. -/
theorem foldl_copyFromSlice (words : List Nat) (done old rest : Bytes) (k : Nat)
    (hdone : done.length = k * 4) (hold : old.length = words.length * 4) :
    (words.zipIdx k).foldl (fun buf (word, i) => copyFromSlice buf (i * 4) (wordBytes word))
        (done ++ (old ++ rest)) = done ++ (words.flatMap wordBytes ++ rest) := by
  induction words generalizing done old k with
  | nil =>
      have hnil : old = [] := List.length_eq_zero_iff.mp (by simpa using hold)
      rw [hnil]
      rfl
  | cons word words ih =>
      have hfour : (old.take 4).length = (wordBytes word).length := by
        rw [List.length_take, hold, List.length_cons, length_wordBytes]
        omega
      have hstep : copyFromSlice (done ++ (old ++ rest)) (k * 4) (wordBytes word) =
          (done ++ wordBytes word) ++ (old.drop 4 ++ rest) := by
        rw [← List.take_append_drop 4 old, List.append_assoc,
          copyFromSlice_append hdone hfour]
        simp
      rw [List.zipIdx_cons, List.foldl_cons]
      dsimp only
      rw [hstep, ih (done ++ wordBytes word) (old.drop 4) (k + 1)]
      · simp
      · rw [List.length_append, hdone, length_wordBytes]
        omega
      · rw [List.length_drop, hold, List.length_cons]
        omega

/-- Words are written over the front of a buffer. -/
theorem copyWords_append {old rest : Bytes} {words : List Nat}
    (hold : old.length = words.length * 4) :
    copyWords (old ++ rest) words = words.flatMap wordBytes ++ rest :=
  foldl_copyFromSlice words [] old rest 0 rfl hold

theorem copyWords_eq {buf : Bytes} {words : List Nat} (hbuf : buf.length = words.length * 4) :
    copyWords buf words = words.flatMap wordBytes := by
  rw [← List.append_nil buf, copyWords_append hbuf, List.append_nil]

/-! ### The header in two parts -/

namespace Header

/-- The bytes that no attempt changes. -/
def chunk0 (h : Header) : Bytes :=
  leBytes 4 h.version.toNat ++ (h.prevBlockhash.bytes ++ h.merkleRoot.bytes.take 28)

def last16 (h : Header) : Bytes :=
  h.merkleRoot.bytes.drop 28 ++
    (leBytes 4 h.time.toNat ++ (leBytes 4 h.bits.toNat ++ leBytes 4 h.nonce.toNat))

theorem serialize_eq (h : Header) : h.serialize = h.chunk0 ++ h.last16 := by
  rw [serialize, chunk0, last16]
  conv_lhs => rw [← List.take_append_drop 28 h.merkleRoot.bytes]
  simp only [List.append_assoc]

theorem length_chunk0 (h : Header) : h.chunk0.length = 64 := by
  simp [chunk0, h.prevBlockhash.length_bytes, h.merkleRoot.length_bytes]

theorem length_last16 (h : Header) : h.last16.length = 16 := by
  simp [last16, h.merkleRoot.length_bytes]

theorem take_serialize (h : Header) : h.serialize.take 64 = h.chunk0 := by
  rw [serialize_eq, List.take_left' h.length_chunk0]

theorem drop_serialize (h : Header) : h.serialize.drop 64 = h.last16 := by
  rw [serialize_eq, List.drop_left' h.length_chunk0]

/-- The first pass goes on from the midstate. -/
theorem digest_serialize (h : Header) :
    digest h.serialize =
      (compress256 (compress256 initial h.chunk0) (h.last16 ++ padding 80)).toList.flatMap
        wordBytes := by
  have hlen := h.length_last16
  rw [serialize_eq, digest_midstate h.length_chunk0 (by omega), hlen]
  rfl

end Header

/-! ### The invariant -/

/-- A hasher for a header, whatever attempts were made with it. -/
structure Prepared (h : Header) (fast : FastSha256d) : Prop where
  state0 : fast.state0 = compress256 initial h.chunk0
  block1 : ∃ time nonce, fast.block1 = { h with time, nonce }.last16 ++ padding 80
  secondBlock : ∃ first : Bytes, first.length = 32 ∧ fast.secondBlock = first ++ padding 32

theorem prepared_fromHeaderStatic (h : Header) : Prepared h (.fromHeaderStatic h) := by
  have hzeros : (List.replicate 16 (0 : UInt8)).length = h.last16.length := h.length_last16.symm
  have hmark : [(0 : UInt8)].length = [(0x80 : UInt8)].length := rfl
  refine ⟨?_, ⟨h.time, h.nonce, ?_⟩, List.replicate 32 0, rfl, rfl⟩
  · rw [FastSha256d.fromHeaderStatic, Header.take_serialize]
  · -- the last 16 bytes, the marker and the length, each over zeros
    have hlasted : copyFromSlice (List.replicate 64 0) 0 h.last16 =
        h.last16 ++ ([0] ++ List.replicate 47 0) :=
      copyFromSlice_append List.length_nil hzeros
    have hmarked : copyFromSlice (h.last16 ++ ([0] ++ List.replicate 47 0)) 16 [0x80] =
        (h.last16 ++ ([0x80] ++ List.replicate 39 0)) ++ (List.replicate 8 0 ++ []) := by
      rw [copyFromSlice_append h.length_last16 hmark]
      simp [List.replicate]
    rw [FastSha256d.fromHeaderStatic]
    dsimp only
    rw [Header.drop_serialize, hlasted, hmarked,
      copyFromSlice_append (by simp [h.length_last16]) (by rfl), List.append_assoc]
    rfl

theorem Prepared.hashWithNonceTime {h : Header} {fast : FastSha256d} (hf : Prepared h fast)
    (nonce time : UInt32) :
    (fast.hashWithNonceTime nonce time).1 = { h with nonce, time }.blockHash ∧
      Prepared h (fast.hashWithNonceTime nonce time).2 := by
  obtain ⟨time', nonce', hblock1⟩ := hf.block1
  obtain ⟨first, hfirst, hsecond⟩ := hf.secondBlock
  have htail : (h.merkleRoot.bytes.drop 28).length = 4 := by simp [h.merkleRoot.length_bytes]
  have htimed : copyFromSlice fast.block1 4 (leBytes 4 time.toNat) =
      (h.merkleRoot.bytes.drop 28 ++ (leBytes 4 time.toNat ++ leBytes 4 h.bits.toNat)) ++
        (leBytes 4 nonce'.toNat ++ padding 80) := by
    rw [hblock1, Header.last16]
    simp only [List.append_assoc]
    rw [copyFromSlice_append htail (by simp)]
  have hnonced : copyFromSlice (copyFromSlice fast.block1 4 (leBytes 4 time.toNat)) 12
      (leBytes 4 nonce.toNat) = { h with nonce, time }.last16 ++ padding 80 := by
    rw [htimed, copyFromSlice_append (by simp [h.merkleRoot.length_bytes]) (by simp),
      Header.last16]
    simp only [List.append_assoc]
  have hchunk : Header.chunk0 { h with nonce, time } = h.chunk0 := rfl
  have hdigest := Header.digest_serialize { h with nonce, time }
  rw [hchunk, ← hf.state0] at hdigest
  have hlength : (digest (Header.serialize { h with nonce, time })).length = 32 := by
    rw [hdigest]
    rfl
  have hcopied (state : Words) : copyWords fast.secondBlock state.toList =
      state.toList.flatMap wordBytes ++ padding 32 := by
    rw [hsecond, copyWords_append (by rw [hfirst]; rfl)]
  unfold FastSha256d.hashWithNonceTime
  dsimp only
  rw [hnonced, hcopied, ← hdigest]
  refine ⟨?_, hf.state0, ⟨time, nonce, rfl⟩, _, hlength, rfl⟩
  have hagain := digest_of_short (hlength.trans_lt (by decide : 32 < 56))
  rw [copyWords_eq rfl, Header.blockHash, digestTwice, hagain, hlength]
  rfl

/-- Any sequence of attempts with one hasher computes the double SHA-256 of the header, with the
nonce and the time of each attempt. -/
theorem hashAll_eq (h : Header) (attempts : List (UInt32 × UInt32)) :
    (FastSha256d.fromHeaderStatic h).hashAll attempts =
      attempts.map fun (nonce, time) => { h with nonce, time }.blockHash := by
  suffices ∀ fast, Prepared h fast → fast.hashAll attempts =
      attempts.map fun (nonce, time) => { h with nonce, time }.blockHash from
    this _ (prepared_fromHeaderStatic h)
  intro fast hf
  induction attempts generalizing fast with
  | nil => rfl
  | cons attempt attempts ih =>
      obtain ⟨hhash, hnext⟩ := hf.hashWithNonceTime attempt.1 attempt.2
      rw [FastSha256d.hashAll, List.map_cons, hhash, ih _ hnext]

/-! ### The comparison -/

theorem leNat_append (xs ys : Bytes) : leNat (xs ++ ys) = leNat xs + 256 ^ xs.length * leNat
    ys := by
  induction xs with
  | nil => simp [leNat]
  | cons x xs ih =>
      simp only [List.cons_append, leNat, ih, List.length_cons, Nat.pow_succ]
      ring

/-- The more significant parts decide, unless they are the same. -/
theorem add_mul_le_iff {base lo lo' hi hi' : Nat} (hlo : lo < base) (hlo' : lo' < base) :
    lo + base * hi ≤ lo' + base * hi' ↔ hi < hi' ∨ hi = hi' ∧ lo ≤ lo' := by
  rcases lt_trichotomy hi hi' with hlt | rfl | hlt
  · have hmul : base * (hi + 1) ≤ base * hi' := Nat.mul_le_mul_left base hlt
    rw [Nat.mul_add, Nat.mul_one] at hmul
    exact ⟨fun _ => .inl hlt, fun _ => by omega⟩
  · simp
  · have hmul : base * (hi' + 1) ≤ base * hi := Nat.mul_le_mul_left base hlt
    rw [Nat.mul_add, Nat.mul_one] at hmul
    constructor
    · intro h
      omega
    · intro h
      omega

theorem leNat_take_succ {bytes : Bytes} {i : Nat} (h : (i + 1) * 4 ≤ bytes.length) :
    leNat (bytes.take ((i + 1) * 4)) =
      leNat (bytes.take (i * 4)) + 256 ^ (i * 4) * leNat ((bytes.drop (i * 4)).take 4) := by
  rw [Nat.add_mul, Nat.one_mul, List.take_add, leNat_append, List.length_take,
    Nat.min_eq_left (by omega)]

/-- The words in front are less than one unit of the next. -/
theorem leNat_take_lt {bytes : Bytes} {i : Nat} (h : i * 4 ≤ bytes.length) :
    leNat (bytes.take (i * 4)) < 256 ^ (i * 4) := by
  have hlt := Consensus.leNat_lt (bytes.take (i * 4))
  rwa [List.length_take, Nat.min_eq_left h] at hlt

/-- The words below the `i`-th one compare as the numbers they make up. -/
theorem meetsFrom_iff {hash target : Bytes} {i : Nat} (hhash : i * 4 ≤ hash.length)
    (htarget : i * 4 ≤ target.length) :
    meetsFrom hash target i ↔ leNat (hash.take (i * 4)) ≤ leNat (target.take (i * 4)) := by
  induction i with
  | zero => simp [meetsFrom]
  | succ i ih =>
      rw [leNat_take_succ hhash, leNat_take_succ htarget,
        add_mul_le_iff (leNat_take_lt (by omega)) (leNat_take_lt (by omega)), meetsFrom,
        ← ih (by omega) (by omega)]
      split
      · rename_i hlt
        simp [hlt]
      · rename_i hge
        split
        · rename_i hgt
          simp only [Bool.false_eq_true, false_iff]
          omega
        · have heq : leNat ((hash.drop (i * 4)).take 4) = leNat ((target.drop (i * 4)).take 4) := by
            omega
          simp [heq]

/-- The comparison of arrays of 32 bytes is the one of the numbers. -/
theorem hashMeetsTargetLe_iff {hash target : Bytes} (hhash : hash.length = 32)
    (htarget : target.length = 32) : hashMeetsTargetLe hash target ↔ leNat hash ≤ leNat target := by
  rw [hashMeetsTargetLe, meetsFrom_iff hhash.ge htarget.ge, List.take_of_length_le hhash.le,
    List.take_of_length_le htarget.le]

end GridPoolSv2.MiningDevice
