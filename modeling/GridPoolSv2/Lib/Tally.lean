import Mathlib.Algebra.BigOperators.Group.List.Basic
import Mathlib.Algebra.GroupWithZero.Nat
import Mathlib.Data.List.AList

/-!
# Lib.Tally: maps that add items up by key

A map with one aggregate for each key. An item is added to the aggregate of its key, or
starts one (`record`).

* `Summarizes` is the link between a map and the items it was given since it was empty: the
  aggregate of a key is what the items with this key add up to, one after the other.
  Which items share an aggregate is thus decided by the key alone.
* `total` adds up a measure of all aggregates. Where every item adds its weight to the
  measure of its aggregate, the total is the weight of the items (`total_record`).
-/

namespace Tally

variable {κ V X : Type*}

/-- The measure `f` of all aggregates together. -/
def total (f : V → Nat) (m : AList fun _ : κ => V) : Nat :=
  (m.entries.map fun e => f e.2).sum

@[simp] theorem total_empty (f : V → Nat) : total f (∅ : AList fun _ : κ => V) = 0 := rfl

variable [DecidableEq κ]

theorem sum_kerase (f : V → Nat) (k : κ) (entries : List (Sigma fun _ : κ => V)) :
    ((entries.kerase k).map fun e => f e.2).sum + (entries.dlookup k).elim 0 f =
      (entries.map fun e => f e.2).sum := by
  induction entries with
  | nil => rfl
  | cons e entries ih =>
      by_cases hk : k = e.1
      · subst hk
        rw [List.kerase_cons_eq rfl, List.dlookup_cons_eq, List.map_cons, List.sum_cons]
        exact Nat.add_comm _ _
      · rw [List.kerase_cons_ne hk, List.dlookup_cons_ne _ e hk]
        simp only [List.map_cons, List.sum_cons]
        omega

/-- An insertion replaces the measure of the old aggregate by that of the new one. -/
theorem total_insert (f : V → Nat) (m : AList fun _ : κ => V) (k : κ) (v : V) :
    total f (m.insert k v) + (m.lookup k).elim 0 f = total f m + f v := by
  have hsum := sum_kerase f k m.entries
  unfold total AList.lookup
  rw [AList.entries_insert, List.map_cons, List.sum_cons]
  dsimp only
  omega

variable (key : X → κ) (add : Option V → X → V)

/-- Add an item to the aggregate of its key. -/
def record (m : AList fun _ : κ => V) (x : X) : AList fun _ : κ => V :=
  m.insert (key x) (add (m.lookup (key x)) x)

theorem total_record {f : V → Nat} {weight : X → Nat}
    (hadd : ∀ old x, f (add old x) = old.elim 0 f + weight x) (m : AList fun _ : κ => V) (x : X) :
    total f (record key add m x) = total f m + weight x := by
  have hinsert := total_insert f m (key x) (add (m.lookup (key x)) x)
  rw [hadd] at hinsert
  unfold record
  omega

/-- What items add up to, the newest first. -/
def summary : List X → Option V
  | [] => none
  | x :: older => some (add (summary older) x)

/-- The map holds for each key what the items with this key add up to. -/
def Summarizes (m : AList fun _ : κ => V) (xs : List X) : Prop :=
  ∀ k, m.lookup k = summary add (xs.filter fun x => key x = k)

variable {key add}

theorem summarizes_empty : Summarizes key add (∅ : AList fun _ : κ => V) [] :=
  fun _ => AList.lookup_empty _

theorem Summarizes.record {m : AList fun _ : κ => V} {xs : List X} (h : Summarizes key add m xs)
    (x : X) : Summarizes key add (record key add m x) (x :: xs) := by
  intro k
  by_cases hk : key x = k
  · subst hk
    rw [List.filter_cons_of_pos (by simp), summary, ← h (key x)]
    exact AList.lookup_insert _
  · rw [List.filter_cons_of_neg (by simpa using hk), ← h k]
    exact AList.lookup_insert_ne (Ne.symm hk)

/-- Every aggregate has an item, and its items are those with its key. -/
theorem Summarizes.eq_some {m : AList fun _ : κ => V} {xs : List X} (h : Summarizes key add m xs)
    {k : κ} {v : V} (hv : m.lookup k = some v) :
    ∃ x older, xs.filter (fun x => key x = k) = x :: older ∧ v = add (summary add older) x := by
  rw [h k] at hv
  cases hfilter : xs.filter fun x => key x = k with
  | nil =>
      rw [hfilter] at hv
      cases hv
  | cons x older =>
      rw [hfilter] at hv
      exact ⟨x, older, rfl, (Option.some.inj hv).symm⟩

/-- Every item is in the aggregate of its key. -/
theorem Summarizes.exists_lookup {m : AList fun _ : κ => V} {xs : List X}
    (h : Summarizes key add m xs) {x : X} (hx : x ∈ xs) : ∃ v, m.lookup (key x) = some v := by
  cases hlookup : m.lookup (key x) with
  | some v => exact ⟨v, rfl⟩
  | none =>
      have hmem : x ∈ xs.filter fun y => key y = key x := List.mem_filter.mpr ⟨hx, by simp⟩
      rw [h (key x)] at hlookup
      cases hfilter : xs.filter fun y => key y = key x with
      | nil =>
          rw [hfilter] at hmem
          cases hmem
      | cons y older =>
          rw [hfilter] at hlookup
          cases hlookup

/-- A measure that counts the items with a property counts them in a summary. -/
theorem summary_count {f : V → Nat} {p : X → Bool}
    (hadd : ∀ old x, f (add old x) = old.elim 0 f + if p x then 1 else 0) (xs : List X) :
    (summary add xs).elim 0 f = xs.countP p := by
  induction xs with
  | nil => rfl
  | cons x older ih =>
      rw [summary, List.countP_cons, ← ih]
      exact hadd _ _

end Tally
