import Mathlib.Algebra.Group.Nat.Defs
import Mathlib.Data.List.Basic

/-!
# Lib.Sha256: an executable SHA-256

SHA-256 over byte lists, with 32-bit words as naturals reduced modulo `2 ^ 32`.
Most models below are parametric in the hash function; there this one stands in for
the parameter wherever a run is evaluated on a concrete input, so that a proof of work
in such a run is a real one. The hasher of the mining device, which keeps a midstate and
calls the compression function itself, is a model over this one.

* `compress` folds the round function over the constant table `roundConstants`. The
  message schedule is kept as a **window** of the sixteen most recent words, so
  that one round needs no indexing.
* `digest` pads the message and folds `compress` over its blocks.
-/

namespace Sha256

/-- The sixty-four round constants. -/
def roundConstants : List Nat :=
  [0x428a2f98, 0x71374491, 0xb5c0fbcf, 0xe9b5dba5, 0x3956c25b, 0x59f111f1, 0x923f82a4, 0xab1c5ed5,
   0xd807aa98, 0x12835b01, 0x243185be, 0x550c7dc3, 0x72be5d74, 0x80deb1fe, 0x9bdc06a7, 0xc19bf174,
   0xe49b69c1, 0xefbe4786, 0x0fc19dc6, 0x240ca1cc, 0x2de92c6f, 0x4a7484aa, 0x5cb0a9dc, 0x76f988da,
   0x983e5152, 0xa831c66d, 0xb00327c8, 0xbf597fc7, 0xc6e00bf3, 0xd5a79147, 0x06ca6351, 0x14292967,
   0x27b70a85, 0x2e1b2138, 0x4d2c6dfc, 0x53380d13, 0x650a7354, 0x766a0abb, 0x81c2c92e, 0x92722c85,
   0xa2bfe8a1, 0xa81a664b, 0xc24b8b70, 0xc76c51a3, 0xd192e819, 0xd6990624, 0xf40e3585, 0x106aa070,
   0x19a4c116, 0x1e376c08, 0x2748774c, 0x34b0bcb5, 0x391c0cb3, 0x4ed8aa4a, 0x5b9cca4f, 0x682e6ff3,
   0x748f82ee, 0x78a5636f, 0x84c87814, 0x8cc70208, 0x90befffa, 0xa4506ceb, 0xbef9a3f7, 0xc67178f2]

/-- Rotate a 32-bit word right. -/
def rotr (n x : Nat) : Nat :=
  ((x >>> n) ||| (x <<< (32 - n))) % 2 ^ 32

/-- The eight working words. -/
structure Words where
  a : Nat
  b : Nat
  c : Nat
  d : Nat
  e : Nat
  f : Nat
  g : Nat
  h : Nat

/-- The initial hash value. -/
def initial : Words :=
  ⟨0x6a09e667, 0xbb67ae85, 0x3c6ef372, 0xa54ff53a, 0x510e527f, 0x9b05688c, 0x1f83d9ab, 0x5be0cd19⟩

/-- The next word of the message schedule, from the window of the last sixteen. -/
def nextWord (window : List Nat) : Nat :=
  let w1 := window.getD 1 0
  let w14 := window.getD 14 0
  let s0 := rotr 7 w1 ^^^ rotr 18 w1 ^^^ (w1 >>> 3)
  let s1 := rotr 17 w14 ^^^ rotr 19 w14 ^^^ (w14 >>> 10)
  (window.getD 0 0 + s0 + window.getD 9 0 + s1) % 2 ^ 32

/-- One round: the new working words for round constant `k` and schedule word `w`. -/
def round (k w : Nat) (s : Words) : Words :=
  let s1 := rotr 6 s.e ^^^ rotr 11 s.e ^^^ rotr 25 s.e
  let ch := (s.e &&& s.f) ^^^ ((2 ^ 32 - 1 - s.e) &&& s.g)
  let t1 := s.h + s1 + ch + k + w
  let s0 := rotr 2 s.a ^^^ rotr 13 s.a ^^^ rotr 22 s.a
  let maj := (s.a &&& s.b) ^^^ (s.a &&& s.c) ^^^ (s.b &&& s.c)
  ⟨(t1 + s0 + maj) % 2 ^ 32, s.a, s.b, s.c, (s.d + t1) % 2 ^ 32, s.e, s.f, s.g⟩

/-- Run the rounds of the given constants, sliding the schedule window along. -/
def rounds : List Nat → List Nat → Words → Words
  | [], _, s => s
  | k :: ks, window, s =>
      rounds ks (window.tail ++ [nextWord window]) (round k (window.headD 0) s)

/-- Compress one block of sixteen words into the hash value. -/
def compress (s : Words) (block : List Nat) : Words :=
  let t := rounds roundConstants block s
  ⟨(s.a + t.a) % 2 ^ 32, (s.b + t.b) % 2 ^ 32, (s.c + t.c) % 2 ^ 32, (s.d + t.d) % 2 ^ 32,
   (s.e + t.e) % 2 ^ 32, (s.f + t.f) % 2 ^ 32, (s.g + t.g) % 2 ^ 32, (s.h + t.h) % 2 ^ 32⟩

/-- Bytes to big-endian 32-bit words, dropping an incomplete tail. -/
def toWords : List UInt8 → List Nat
  | a :: b :: c :: d :: rest =>
      (((a.toNat * 256 + b.toNat) * 256 + c.toNat) * 256 + d.toNat) :: toWords rest
  | _ => []

/-- A word as four big-endian bytes. -/
def wordBytes (w : Nat) : List UInt8 :=
  [UInt8.ofNat (w >>> 24), UInt8.ofNat (w >>> 16), UInt8.ofNat (w >>> 8), UInt8.ofNat w]

/-- Pad a message to a whole number of blocks. -/
def pad (msg : List UInt8) : List UInt8 :=
  let bits := msg.length * 8
  msg ++ 0x80 :: List.replicate ((119 - msg.length % 64) % 64) 0 ++
    wordBytes (bits / 2 ^ 32) ++ wordBytes (bits % 2 ^ 32)

/-- Fold `compress` over the first `n` blocks of a word list. -/
def blocks : Nat → List Nat → Words → Words
  | 0, _, s => s
  | n + 1, ws, s => blocks n (ws.drop 16) (compress s (ws.take 16))

/-- The SHA-256 digest of a byte string. -/
def digest (msg : List UInt8) : List UInt8 :=
  let padded := pad msg
  let s := blocks (padded.length / 64) (toWords padded) initial
  [s.a, s.b, s.c, s.d, s.e, s.f, s.g, s.h].flatMap wordBytes

/-- Double SHA-256, the hash of block headers and transactions. -/
def digestTwice (msg : List UInt8) : List UInt8 :=
  digest (digest msg)

theorem digestTwice_length (msg : List UInt8) : (digestTwice msg).length = 32 := rfl

/-! ### Block by block -/

/-- The eight working words in order. -/
def Words.toList (s : Words) : List Nat :=
  [s.a, s.b, s.c, s.d, s.e, s.f, s.g, s.h]

/-- What follows a message of `n` bytes up to the end of its last block. -/
def padding (n : Nat) : List UInt8 :=
  0x80 :: List.replicate ((119 - n % 64) % 64) 0 ++ wordBytes (n * 8 / 2 ^ 32) ++
    wordBytes (n * 8 % 2 ^ 32)

theorem pad_eq (msg : List UInt8) : pad msg = msg ++ padding msg.length := by
  simp [pad, padding]

theorem padding_length (n : Nat) : (padding n).length = 9 + (119 - n % 64) % 64 := by
  simp [padding, wordBytes]
  omega

theorem toWords_append {front : List UInt8} (h : 4 ∣ front.length) (rest : List UInt8) :
    toWords (front ++ rest) = toWords front ++ toWords rest := by
  induction front using toWords.induct with
  | case1 a b c d front ih =>
      have hfront : 4 ∣ front.length := by
        simp only [List.length_cons] at h
        omega
      simp [toWords, ih hfront]
  | case2 front hshort =>
      -- fewer than four bytes, and a multiple of four
      have hnil : front = [] := by
        rcases front with _ | ⟨a, _ | ⟨b, _ | ⟨c, _ | ⟨d, front⟩⟩⟩⟩
        · rfl
        · simp at h
        · simp at h
        · simp at h
        · exact (hshort a b c d front rfl).elim
      rw [hnil]
      rfl

theorem length_toWords (bytes : List UInt8) : (toWords bytes).length = bytes.length / 4 := by
  induction bytes using toWords.induct with
  | case1 a b c d bytes ih =>
      simp only [toWords, List.length_cons, ih]
      omega
  | case2 bytes hshort =>
      rw [toWords]
      · rcases bytes with _ | ⟨a, _ | ⟨b, _ | ⟨c, _ | ⟨d, bytes⟩⟩⟩⟩
        · rfl
        · simp
        · simp
        · simp
        · exact (hshort a b c d bytes rfl).elim
      · exact hshort

/-- `blocks` with any compression function. The lemmas are about this one: the kernel does not
look into the rounds then. -/
def foldBlocks {σ : Type} (f : σ → List Nat → σ) : Nat → List Nat → σ → σ
  | 0, _, s => s
  | n + 1, ws, s => foldBlocks f n (ws.drop 16) (f s (ws.take 16))

theorem blocks_eq_foldBlocks : blocks = foldBlocks compress := by
  delta blocks foldBlocks
  rfl

theorem foldBlocks_succ_append {σ : Type} (f : σ → List Nat → σ) {front : List Nat}
    (h : front.length = 16) (n : Nat) (rest : List Nat) (s : σ) :
    foldBlocks f (n + 1) (front ++ rest) s = foldBlocks f n rest (f s front) := by
  rw [foldBlocks, List.drop_left' h, List.take_left' h]

theorem foldBlocks_one {σ : Type} (f : σ → List Nat → σ) {block : List Nat}
    (h : block.length = 16) (s : σ) : foldBlocks f 1 block s = f s block := by
  rw [← List.append_nil block, foldBlocks_succ_append f h 0, List.append_nil, foldBlocks]

theorem digest_eq_foldBlocks (msg : List UInt8) :
    digest msg =
      (foldBlocks compress ((msg ++ padding msg.length).length / 64)
        (toWords (msg ++ padding msg.length)) initial).toList.flatMap wordBytes := by
  rw [← pad_eq, ← blocks_eq_foldBlocks, digest]
  rfl

/-- A message that fits a block with its padding takes one compression. -/
theorem digest_of_short {msg : List UInt8} (h : msg.length < 56) :
    digest msg = (compress initial (toWords (msg ++ padding msg.length))).toList.flatMap
      wordBytes := by
  have hlen : (msg ++ padding msg.length).length = 64 := by
    rw [List.length_append, padding_length]
    omega
  have hwords : (toWords (msg ++ padding msg.length)).length = 16 := by
    rw [length_toWords, hlen]
  rw [digest_eq_foldBlocks, hlen, foldBlocks_one compress hwords]

/-- A message that is longer by a block goes on from the **midstate**, the hash value after that
block. -/
theorem digest_midstate {front rest : List UInt8} (hfront : front.length = 64)
    (hrest : rest.length < 56) :
    digest (front ++ rest) =
      (compress (compress initial (toWords front))
        (toWords (rest ++ padding (64 + rest.length)))).toList.flatMap wordBytes := by
  have hlen : (rest ++ padding (64 + rest.length)).length = 64 := by
    rw [List.length_append, padding_length]
    omega
  have hwords : (toWords (rest ++ padding (64 + rest.length))).length = 16 := by
    rw [length_toWords, hlen]
  have hfrontWords : (toWords front).length = 16 := by
    rw [length_toWords, hfront]
  have htotal : (front ++ rest).length = 64 + rest.length := by
    rw [List.length_append, hfront]
  rw [digest_eq_foldBlocks, htotal, List.append_assoc, List.length_append, hfront, hlen,
    toWords_append (by rw [hfront]; decide), foldBlocks_succ_append compress hfrontWords 1,
    foldBlocks_one compress hwords]

end Sha256
