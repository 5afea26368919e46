import GridPoolSv2.Lib.TxWeight
import Mathlib.Algebra.Order.Group.Nat
import Mathlib.Data.Multiset.Lattice

/-!
# Lib.ByteOrder: how byte arrays compare

Arrays of one length compare by the first byte in which they differ, so in the order of the
**big-endian** numbers they hold (`lt_iff_beNat_lt`). `Word n` is an array of `n` bytes with
this order. Where its bytes stand for a number the other way round, as they do for
`Word.number`, the order of the arrays is not the order of the numbers.

The last part is about the smallest of several values: a map into another order takes the
smallest value to the smallest one exactly when it takes it below all the others
(`map_inf_iff`).
-/

namespace ByteOrder

open Consensus (Bytes leBytes leNat)

/-- The number a big-endian byte string stands for. -/
def beNat : Bytes → Nat
  | [] => 0
  | b :: bs => b.toNat * 256 ^ bs.length + beNat bs

/-- A byte is smaller than another one, the same, or greater. -/
theorem byte_trichotomy (a b : UInt8) : a < b ∨ a = b ∨ b < a := by
  rcases lt_trichotomy a.toNat b.toNat with h | h | h
  · exact .inl (UInt8.lt_iff_toNat_lt.mpr h)
  · exact .inr (.inl (UInt8.toNat_inj.mp h))
  · exact .inr (.inr (UInt8.lt_iff_toNat_lt.mpr h))

theorem beNat_lt (bs : Bytes) : beNat bs < 256 ^ bs.length := by
  induction bs with
  | nil => exact Nat.one_pos
  | cons b bs ih =>
      have hb : b.toNat + 1 ≤ 256 := b.toNat_lt
      calc beNat (b :: bs) < b.toNat * 256 ^ bs.length + 256 ^ bs.length :=
            Nat.add_lt_add_left ih _
        _ = (b.toNat + 1) * 256 ^ bs.length := by rw [Nat.add_mul, Nat.one_mul]
        _ ≤ 256 * 256 ^ bs.length := Nat.mul_le_mul_right _ hb
        _ = 256 ^ (b :: bs).length := by rw [List.length_cons, Nat.pow_succ, Nat.mul_comm]

/-- A smaller first byte decides, whatever follows. -/
theorem beNat_lt_of_head_lt {a b : UInt8} {xs ys : Bytes} (hlen : xs.length = ys.length)
    (h : a < b) : beNat (a :: xs) < beNat (b :: ys) := by
  have hab : a.toNat + 1 ≤ b.toNat := UInt8.lt_iff_toNat_lt.mp h
  calc beNat (a :: xs) < a.toNat * 256 ^ xs.length + 256 ^ xs.length :=
        Nat.add_lt_add_left (beNat_lt xs) _
    _ = (a.toNat + 1) * 256 ^ ys.length := by rw [hlen, Nat.add_mul, Nat.one_mul]
    _ ≤ b.toNat * 256 ^ ys.length := Nat.mul_le_mul_right _ hab
    _ ≤ beNat (b :: ys) := Nat.le_add_right _ _

/-- Arrays of one length compare as their big-endian numbers do. -/
theorem lt_iff_beNat_lt {xs ys : Bytes} (hlen : xs.length = ys.length) :
    xs < ys ↔ beNat xs < beNat ys := by
  induction xs generalizing ys with
  | nil =>
      obtain rfl : ys = [] := List.length_eq_zero_iff.mp hlen.symm
      simp [beNat]
  | cons a xs ih =>
      cases ys with
      | nil => cases hlen
      | cons b ys =>
          have hlen' : xs.length = ys.length := Nat.succ.inj hlen
          rw [List.cons_lt_cons_iff]
          -- the first byte decides, or the rest does
          rcases byte_trichotomy a b with hab | rfl | hab
          · simp [hab, beNat_lt_of_head_lt hlen' hab]
          · simp [UInt8.lt_irrefl, ih hlen', beNat, hlen']
          · have hnot : ¬ a < b := UInt8.lt_asymm hab
            have hne : a ≠ b := (UInt8.ne_of_lt hab).symm
            simp [hnot, hne, (beNat_lt_of_head_lt hlen'.symm hab).le]

/-- The order of bytes is that of big-endian numbers. -/
theorem le_iff_beNat_le {xs ys : Bytes} (hlen : xs.length = ys.length) :
    xs ≤ ys ↔ beNat xs ≤ beNat ys := by
  rw [← Nat.not_lt, ← lt_iff_beNat_lt hlen.symm]
  exact Iff.rfl

theorem beNat_inj {xs ys : Bytes} (hlen : xs.length = ys.length) (h : beNat xs = beNat ys) :
    xs = ys := by
  induction xs generalizing ys with
  | nil => exact (List.length_eq_zero_iff.mp hlen.symm).symm
  | cons a xs ih =>
      cases ys with
      | nil => cases hlen
      | cons b ys =>
          have hlen' : xs.length = ys.length := Nat.succ.inj hlen
          rcases byte_trichotomy a b with hab | rfl | hab
          · exact absurd h (beNat_lt_of_head_lt hlen' hab).ne
          · rw [ih hlen' (by simpa [beNat, hlen'] using h)]
          · exact absurd h (beNat_lt_of_head_lt hlen'.symm hab).ne'

/-! ### Arrays -/

/-- An array of `n` bytes. -/
@[ext] structure Word (n : Nat) where
  bytes : Bytes
  length_bytes : bytes.length = n
  deriving Repr, DecidableEq

namespace Word

variable {n : Nat}

/-- The order of arrays. -/
instance : LinearOrder (Word n) where
  le a b := a.bytes ≤ b.bytes
  lt a b := a.bytes < b.bytes
  le_refl a := (le_iff_beNat_le rfl).mpr le_rfl
  le_trans a b c hab hbc := by
    rw [le_iff_beNat_le (a.length_bytes.trans b.length_bytes.symm)] at hab
    rw [le_iff_beNat_le (b.length_bytes.trans c.length_bytes.symm)] at hbc
    exact (le_iff_beNat_le (a.length_bytes.trans c.length_bytes.symm)).mpr (hab.trans hbc)
  lt_iff_le_not_ge a b := by
    rw [lt_iff_beNat_lt (a.length_bytes.trans b.length_bytes.symm),
      le_iff_beNat_le (a.length_bytes.trans b.length_bytes.symm),
      le_iff_beNat_le (b.length_bytes.trans a.length_bytes.symm)]
    exact lt_iff_le_not_ge
  le_antisymm a b hab hba := by
    rw [le_iff_beNat_le (a.length_bytes.trans b.length_bytes.symm)] at hab
    rw [le_iff_beNat_le (b.length_bytes.trans a.length_bytes.symm)] at hba
    exact Word.ext (beNat_inj (a.length_bytes.trans b.length_bytes.symm) (hab.antisymm hba))
  le_total a b := by
    rw [le_iff_beNat_le (a.length_bytes.trans b.length_bytes.symm),
      le_iff_beNat_le (b.length_bytes.trans a.length_bytes.symm)]
    exact Nat.le_total _ _
  toDecidableLE a b := inferInstanceAs (Decidable (a.bytes ≤ b.bytes))
  toDecidableLT a b := inferInstanceAs (Decidable (a.bytes < b.bytes))

theorem le_iff {a b : Word n} : a ≤ b ↔ beNat a.bytes ≤ beNat b.bytes :=
  le_iff_beNat_le (a.length_bytes.trans b.length_bytes.symm)

theorem lt_iff {a b : Word n} : a < b ↔ beNat a.bytes < beNat b.bytes :=
  lt_iff_beNat_lt (a.length_bytes.trans b.length_bytes.symm)

theorem beNat_replicate (n : Nat) : beNat (List.replicate n 0xff) + 1 = 256 ^ n := by
  induction n with
  | zero => rfl
  | succ n ih =>
      rw [List.replicate_succ, beNat, List.length_replicate, Nat.add_assoc, ih, Nat.pow_succ,
        Nat.mul_comm (256 ^ n)]
      show 255 * 256 ^ n + 256 ^ n = 256 * 256 ^ n
      omega

theorem leNat_replicate (n : Nat) : leNat (List.replicate n 0xff) + 1 = 256 ^ n := by
  induction n with
  | zero => rfl
  | succ n ih =>
      rw [List.replicate_succ, leNat, Nat.pow_succ]
      show 255 + 256 * leNat (List.replicate n 0xff) + 1 = 256 ^ n * 256
      omega

/-- No array is greater than the one of all ones. -/
instance : OrderTop (Word n) where
  top := ⟨List.replicate n 0xff, List.length_replicate⟩
  le_top a := by
    have hlt := beNat_lt a.bytes
    rw [a.length_bytes, ← beNat_replicate n] at hlt
    exact le_iff.mpr (Nat.le_of_lt_succ hlt)

/-- The number whose little-endian bytes the array holds. -/
def number (a : Word n) : Nat :=
  leNat a.bytes

theorem number_lt (a : Word n) : a.number < 256 ^ n := by
  have h := Consensus.leNat_lt a.bytes
  rwa [a.length_bytes] at h

/-- The little-endian bytes of a number. -/
def ofNumber (n x : Nat) : Word n :=
  ⟨leBytes n x, Consensus.leBytes_length n x⟩

theorem number_ofNumber {x : Nat} (h : x < 256 ^ n) : (ofNumber n x).number = x :=
  Consensus.leNat_leBytes h

theorem ofNumber_number (a : Word n) : ofNumber n a.number = a := by
  refine Word.ext ?_
  have hbytes := Consensus.leBytes_leNat a.bytes
  rwa [a.length_bytes] at hbytes

/-- All ones are the greatest number too. -/
theorem ofNumber_max (n : Nat) : ofNumber n (256 ^ n - 1) = ⊤ := by
  have hones : (⊤ : Word n).number = 256 ^ n - 1 := Nat.eq_sub_of_add_eq (leNat_replicate n)
  rw [← hones, ofNumber_number]

end Word

/-! ### The smallest of several values -/

section Minimum

variable {α β : Type*} [LinearOrder α] [OrderTop α] [LinearOrder β] [OrderTop β]

/-- A loop that keeps the smaller of two values finds the smallest one. -/
theorem foldl_min_eq_inf {γ : Type*} (f : γ → α) (xs : List γ) (a : α) :
    xs.foldl (fun least x => min (f x) least) a = a ⊓ (↑(xs.map f) : Multiset α).inf := by
  induction xs generalizing a with
  | nil => simp
  | cons x xs ih =>
      show xs.foldl (fun least x => min (f x) least) (min (f x) a) = _
      rw [ih, List.map_cons, ← Multiset.cons_coe, Multiset.inf_cons, ← inf_assoc, inf_comm a]

/-- The smallest value is one of them, or there is none. -/
theorem inf_mem_or_eq_top (s : Multiset α) : s.inf ∈ s ∨ s = 0 := by
  induction s using Multiset.induction with
  | empty => exact .inr rfl
  | cons a s ih =>
      rw [Multiset.inf_cons]
      refine .inl ?_
      rcases le_total a s.inf with hle | hle
      · rw [inf_eq_left.mpr hle]
        exact Multiset.mem_cons_self a s
      · rcases ih with hmem | rfl
        · rw [inf_eq_right.mpr hle]
          exact Multiset.mem_cons_of_mem hmem
        · simp

/-- A map into another order keeps the smallest value exactly when it keeps it below the others. -/
theorem map_inf_iff {g : α → β} (htop : g ⊤ = ⊤) (s : Multiset α) :
    (s.map g).inf = g s.inf ↔ ∀ t ∈ s, g s.inf ≤ g t := by
  constructor
  · intro heq t ht
    rw [← heq]
    exact Multiset.inf_le (Multiset.mem_map_of_mem g ht)
  · intro hbelow
    refine le_antisymm ?_ (Multiset.le_inf.mpr fun b hb => ?_)
    · rcases inf_mem_or_eq_top s with hmem | rfl
      · exact Multiset.inf_le (Multiset.mem_map_of_mem g hmem)
      · simp [htop]
    · obtain ⟨t, ht, rfl⟩ := Multiset.mem_map.mp hb
      exact hbelow t ht

end Minimum

end ByteOrder
