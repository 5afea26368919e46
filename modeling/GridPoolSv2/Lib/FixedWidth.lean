import Mathlib.Algebra.GroupWithZero.Nat
import Mathlib.Data.List.Lex
import Mathlib.Order.Basic
import Mathlib.Tactic.Common

/-!
# Lib.FixedWidth: numbers in fields of a fixed width

Records of numbers as texts, each number in decimal with leading zeros and followed by a separator.
In such texts the order of characters is the order of numbers: `render_lt_render` says that the
texts of two records compare like the lists of their numbers.
-/

namespace FixedWidth

/-! ### Digits -/

/-- The last `width` decimal digits of a number. -/
def digits : Nat → Nat → List Char
  | 0, _ => []
  | width + 1, n => digits width (n / 10) ++ [Nat.digitChar (n % 10)]

theorem length_digits (width n : Nat) : (digits width n).length = width := by
  induction width generalizing n with
  | zero => rfl
  | succ width ih => simp [digits, ih]

theorem length_digits_eq (width a b : Nat) : (digits width a).length = (digits width b).length := by
  rw [length_digits, length_digits]

theorem digits_zero (width : Nat) : digits width 0 = List.replicate width '0' := by
  induction width with
  | zero => rfl
  | succ width ih =>
      rw [digits, Nat.zero_div, ih, List.replicate_succ']
      rfl

/-- A number that fits is the text that is written without leading zeros, after as many zeros as
there is room for. -/
theorem padded_toDigits {width n : Nat} (hpos : 0 < width) (h : n < 10 ^ width) :
    List.replicate (width - (Nat.toDigits 10 n).length) '0' ++ Nat.toDigits 10 n = digits
      width n := by
  induction width generalizing n with
  | zero => cases hpos
  | succ width ih =>
      rcases Nat.lt_or_ge n 10 with hsmall | hlarge
      · rw [Nat.toDigits_of_lt_base hsmall, digits, Nat.div_eq_of_lt hsmall,
          Nat.mod_eq_of_lt hsmall, digits_zero]
        rfl
      · have hrest : n / 10 < 10 ^ width := by
          rw [Nat.pow_succ] at h
          omega
        have hwidth : 0 < width := by
          rcases Nat.eq_zero_or_pos width with rfl | hwidth
          · simp at hrest
            omega
          · exact hwidth
        rw [Nat.toDigits_of_base_le (by decide) hlarge, List.length_append, List.length_singleton,
          Nat.add_sub_add_right, ← List.append_assoc, ih hwidth hrest, digits]

/-! ### Order -/

section Append

variable {α : Type*} [LT α]

/-- The first difference decides, whatever follows. -/
theorem append_lt_append {xs ys : List α} (hlen : xs.length = ys.length) (h : xs < ys)
    (us vs : List α) : xs ++ us < ys ++ vs := by
  induction xs generalizing ys with
  | nil =>
      obtain rfl := List.length_eq_zero_iff.mp hlen.symm
      exact absurd h (List.not_lt_nil _)
  | cons x xs ih =>
      cases ys with
      | nil => cases hlen
      | cons y ys =>
          rw [List.cons_append, List.cons_append, List.cons_lt_cons_iff]
          rcases List.cons_lt_cons_iff.mp h with hxy | ⟨rfl, hrest⟩
          · exact .inl hxy
          · exact .inr ⟨rfl, ih (Nat.succ.inj hlen) hrest⟩

end Append

theorem digitChar_lt {a b : Nat} (hb : b < 10) (h : a < b) :
    Nat.digitChar a < Nat.digitChar b := by
  have hall : ∀ b < 10, ∀ a < b, Nat.digitChar a < Nat.digitChar b := by decide
  exact hall b hb a h

theorem digits_lt_digits {width a b : Nat} (hb : b < 10 ^ width) (h : a < b) :
    digits width a < digits width b := by
  induction width generalizing a b with
  | zero =>
      simp at hb
      omega
  | succ width ih =>
      have hrest : b / 10 < 10 ^ width := by
        rw [Nat.pow_succ] at hb
        omega
      rw [digits, digits]
      rcases Nat.lt_or_ge (a / 10) (b / 10) with hdiv | hdiv
      · exact append_lt_append (length_digits_eq _ _ _) (ih hrest hdiv) _ _
      · -- the last digits decide
        have hsame : a / 10 = b / 10 := by omega
        rw [hsame]
        refine List.append_left_lt ?_
        rw [List.cons_lt_cons_iff]
        exact .inl (digitChar_lt (Nat.mod_lt _ (by decide)) (by omega))

/-! ### Records -/

/-- The text of numbers, with the width of each and the character behind it. -/
def render : List (Nat × Char) → List Nat → List Char
  | (width, separator) :: fields, n :: ns => digits width n ++ separator :: render fields ns
  | _, _ => []

/-- There is a number for each field, and it has room there. -/
def Fits (fields : List (Nat × Char)) (ns : List Nat) : Prop :=
  List.Forall₂ (fun field n => n < 10 ^ field.1) fields ns

theorem render_lt_render {fields : List (Nat × Char)} {ns ns' : List Nat} (hfits : Fits fields ns)
    (hfits' : Fits fields ns') (h : ns < ns') : render fields ns < render fields ns' := by
  induction fields generalizing ns ns' with
  | nil =>
      cases hfits
      cases hfits'
      exact absurd h (lt_irrefl _)
  | cons field fields ih =>
      obtain ⟨width, separator⟩ := field
      cases hfits with
      | cons hn hrest =>
          cases hfits' with
          | cons hn' hrest' =>
              rw [render, render]
              rcases List.cons_lt_cons_iff.mp h with hlt | ⟨rfl, hlt⟩
              · exact append_lt_append (length_digits_eq _ _ _) (digits_lt_digits hn' hlt) _ _
              · refine List.append_left_lt ?_
                rw [List.cons_lt_cons_iff]
                exact .inr ⟨rfl, ih hrest hrest' hlt⟩

end FixedWidth
