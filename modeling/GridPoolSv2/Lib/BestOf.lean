import Mathlib.Data.Multiset.Sort
import Mathlib.Order.Lattice

/-!
# Lib.BestOf: a bounded cache that keeps the smallest keys

Items are **offered** one after the other to a cache with room for `capacity` of them. As long
as there is room an item is kept. After that it takes the place of an item with the greatest
key, if its own key is smaller. Which of several items with the greatest key has to go is left
open, so `Offer` is a relation.

`Best` is what holds after every sequence of offers (`Offers.best`): as many items are kept as
there is room for, and none that was dropped has a smaller key than one that was kept. So the
keys of the kept items are the first ones in the sorted list of all keys (`Best.map_key`),
whichever items had to go. The order of a **different measure** of the keys is thus respected
exactly when it is respected where the sorted keys are cut (`Best.respects_iff`).
-/

namespace BestOf

variable {α K N : Type*} [LinearOrder K] (capacity : Nat) (key : α → K)

/-- An item is offered to the cache. -/
inductive Offer : Multiset α → α → Multiset α → Prop
  | push {kept : Multiset α} {x : α} (hroom : kept.card < capacity) : Offer kept x (x ::ₘ kept)
  | replace {worst : α} {rest : Multiset α} {x : α}
      (hfull : capacity ≤ (worst ::ₘ rest).card) (hworst : ∀ y ∈ worst ::ₘ rest, key y ≤ key worst)
      (hlt : key x < key worst) : Offer (worst ::ₘ rest) x (x ::ₘ rest)
  | discard {kept : Multiset α} {x : α} (hfull : capacity ≤ kept.card)
      (hle : ∀ y ∈ kept, key y ≤ key x) : Offer kept x kept

/-- Items are offered one after the other. -/
inductive Offers : Multiset α → List α → Multiset α → Prop
  | nil {kept : Multiset α} : Offers kept [] kept
  | cons {kept kept' kept'' : Multiset α} {x : α} {xs : List α}
      (head : Offer capacity key kept x kept') (tail : Offers kept' xs kept'') :
      Offers kept (x :: xs) kept''

variable {capacity key}

variable (key) in
/-- A cache that is not empty has an item with a greatest key. -/
theorem exists_worst {kept : Multiset α} (h : kept ≠ 0) :
    ∃ worst rest, kept = worst ::ₘ rest ∧ ∀ y ∈ kept, key y ≤ key worst := by
  induction kept using Multiset.induction with
  | empty => exact absurd rfl h
  | cons x kept ih =>
      by_cases hempty : kept = 0
      · subst hempty
        exact ⟨x, 0, rfl, by simp⟩
      · obtain ⟨worst, rest, rfl, hworst⟩ := ih hempty
        rcases le_total (key x) (key worst) with hx | hx
        · refine ⟨worst, x ::ₘ rest, Multiset.cons_swap _ _ _, fun y hy => ?_⟩
          rcases Multiset.mem_cons.mp hy with rfl | hy
          · exact hx
          · exact hworst y hy
        · refine ⟨x, worst ::ₘ rest, rfl, fun y hy => ?_⟩
          rcases Multiset.mem_cons.mp hy with rfl | hy
          · exact le_rfl
          · exact (hworst y hy).trans hx

variable (capacity key) in
/-- Every offer can be made. -/
theorem exists_offer (kept : Multiset α) (x : α) : ∃ kept', Offer capacity key kept x kept' := by
  by_cases hroom : kept.card < capacity
  · exact ⟨_, .push hroom⟩
  · have hfull : capacity ≤ kept.card := Nat.le_of_not_lt hroom
    by_cases hempty : kept = 0
    · exact ⟨_, .discard hfull (by simp [hempty])⟩
    · obtain ⟨worst, rest, rfl, hworst⟩ := exists_worst key hempty
      by_cases hlt : key x < key worst
      · exact ⟨_, .replace hfull hworst hlt⟩
      · exact ⟨_, .discard hfull fun y hy => (hworst y hy).trans (le_of_not_gt hlt)⟩

variable (capacity key) in
theorem exists_offers (kept : Multiset α) (xs : List α) :
    ∃ kept', Offers capacity key kept xs kept' := by
  induction xs generalizing kept with
  | nil => exact ⟨kept, .nil⟩
  | cons x xs ih =>
      obtain ⟨kept', hhead⟩ := exists_offer capacity key kept x
      obtain ⟨kept'', htail⟩ := ih kept'
      exact ⟨kept'', .cons hhead htail⟩

theorem Offers.append {kept kept' kept'' : Multiset α} {xs ys : List α}
    (h : Offers capacity key kept xs kept') (h' : Offers capacity key kept' ys kept'') :
    Offers capacity key kept (xs ++ ys) kept'' := by
  induction h with
  | nil => exact h'
  | cons hhead _ ih => exact .cons hhead (ih h')

/-! ### What is kept -/

variable (capacity key) in
/-- The cache holds as many of the offered items as there is room for, and none that was dropped
has a smaller key than one of them. -/
structure Best (offered kept : Multiset α) : Prop where
  card : kept.card = min offered.card capacity
  split : ∃ dropped, offered = kept + dropped ∧ ∀ x ∈ kept, ∀ y ∈ dropped, key x ≤ key y

/-- One offer. -/
theorem Best.offer {offered kept kept' : Multiset α} {x : α} (h : Best capacity key offered kept)
    (hoffer : Offer capacity key kept x kept') : Best capacity key (x ::ₘ offered) kept' := by
  obtain ⟨hcard, dropped, rfl, hle⟩ := h
  rw [Multiset.card_add] at hcard
  cases hoffer with
  | push hroom =>
      -- while there is room, nothing was dropped
      have hnone : dropped = 0 := Multiset.card_eq_zero.mp (by omega)
      subst hnone
      refine ⟨?_, 0, by simp, by simp⟩
      simp only [Multiset.add_zero, Multiset.card_cons] at hcard ⊢
      omega
  | @replace worst rest _ hfull hworst hlt =>
      refine ⟨?_, worst ::ₘ dropped, ?_, fun y hy z hz => ?_⟩
      · simp only [Multiset.card_cons, Multiset.card_add] at hcard hfull ⊢
        omega
      · rw [Multiset.cons_add, Multiset.cons_add, Multiset.add_cons]
      · have hy' : key y ≤ key worst := by
          rcases Multiset.mem_cons.mp hy with rfl | hy
          · exact hlt.le
          · exact hworst y (Multiset.mem_cons_of_mem hy)
        rcases Multiset.mem_cons.mp hz with rfl | hz
        · exact hy'
        · exact hy'.trans (hle worst (Multiset.mem_cons_self _ _) z hz)
  | discard hfull hlast =>
      refine ⟨?_, x ::ₘ dropped, (Multiset.add_cons _ _ _).symm, fun y hy z hz => ?_⟩
      · simp only [Multiset.card_cons, Multiset.card_add]
        omega
      · rcases Multiset.mem_cons.mp hz with rfl | hz
        · exact hlast y hy
        · exact hle y hy z hz

/-- Every sequence of offers, from what some items left behind. -/
theorem Offers.best_of {offered kept kept' : Multiset α} {xs : List α}
    (h : Offers capacity key kept xs kept') (hbest : Best capacity key offered kept) :
    Best capacity key (offered + xs) kept' := by
  induction h generalizing offered with
  | nil => simpa using hbest
  | @cons _ _ _ x xs hhead _ ih =>
      have hnext := ih (hbest.offer hhead)
      rwa [Multiset.cons_add, ← Multiset.add_cons, Multiset.cons_coe] at hnext

/-- The cache keeps the best items it was offered. -/
theorem Offers.best {kept : Multiset α} {xs : List α} (h : Offers capacity key 0 xs kept) :
    Best capacity key xs kept := by
  have hempty : Best capacity key (0 : Multiset α) 0 := ⟨by simp, 0, by simp, by simp⟩
  simpa using h.best_of hempty

/-! ### Where the sorted keys are cut -/

variable (key) in
/-- The keys of items, in their order. -/
def sortedKeys (offered : Multiset α) : List K :=
  (offered.map key).sort (· ≤ ·)

variable (key) in
theorem pairwise_sortedKeys (offered : Multiset α) : (sortedKeys key offered).Pairwise (· ≤ ·) :=
  Multiset.pairwise_sort _ _

variable (key) in
@[simp] theorem coe_sortedKeys (offered : Multiset α) :
    (↑(sortedKeys key offered) : Multiset K) = offered.map key :=
  Multiset.sort_eq _ _

/-- A sorted list of all keys is the sorted list of them. -/
theorem sortedKeys_eq {offered : Multiset α} {keys : List K} (hsorted : keys.Pairwise (· ≤ ·))
    (hkeys : (↑keys : Multiset K) = offered.map key) : sortedKeys key offered = keys := by
  have hperm : List.Perm (sortedKeys key offered) keys :=
    Multiset.coe_eq_coe.mp (by rw [coe_sortedKeys, hkeys])
  exact hperm.eq_of_pairwise (fun _ _ _ _ => le_antisymm) (pairwise_sortedKeys key offered) hsorted

theorem mem_sortedKeys {offered : Multiset α} {a : K} :
    a ∈ sortedKeys key offered ↔ ∃ x ∈ offered, key x = a := by
  rw [← Multiset.mem_coe, coe_sortedKeys, Multiset.mem_map]

variable (key) in
theorem length_sortedKeys (offered : Multiset α) :
    (sortedKeys key offered).length = offered.card := by
  rw [← Multiset.coe_card, coe_sortedKeys, Multiset.card_map]

/-- The kept keys are the first ones, and the dropped keys are the others. -/
theorem Best.map_key {kept dropped : Multiset α}
    (h : kept.card = min (kept + dropped).card capacity)
    (hle : ∀ x ∈ kept, ∀ y ∈ dropped, key x ≤ key y) :
    kept.map key = ↑((sortedKeys key (kept + dropped)).take capacity) ∧
      dropped.map key = ↑((sortedKeys key (kept + dropped)).drop capacity) := by
  have hkeys : sortedKeys key (kept + dropped) = sortedKeys key kept ++ sortedKeys key dropped := by
    refine sortedKeys_eq (List.pairwise_append.mpr
      ⟨pairwise_sortedKeys key kept, pairwise_sortedKeys key dropped, fun a ha b hb => ?_⟩) ?_
    · obtain ⟨x, hx, rfl⟩ := mem_sortedKeys.mp ha
      obtain ⟨y, hy, rfl⟩ := mem_sortedKeys.mp hb
      exact hle x hx y hy
    · rw [← Multiset.coe_add, coe_sortedKeys, coe_sortedKeys, Multiset.map_add]
  have hlength := length_sortedKeys key kept
  rw [Multiset.card_add] at h
  -- the cut comes after the kept keys, or after all of them
  have hcut : dropped = 0 ∨ (sortedKeys key kept).length = capacity := by
    rcases Nat.eq_zero_or_pos dropped.card with hnone | hsome
    · exact .inl (Multiset.card_eq_zero.mp hnone)
    · exact .inr (by omega)
  rw [hkeys]
  rcases hcut with rfl | hcut
  · have hall : (sortedKeys key kept).length ≤ capacity := by omega
    have hnone : sortedKeys key (0 : Multiset α) = [] := sortedKeys_eq .nil rfl
    rw [hnone, List.append_nil, List.take_of_length_le hall, List.drop_of_length_le hall]
    exact ⟨(coe_sortedKeys key kept).symm, rfl⟩
  · rw [List.take_left' hcut, List.drop_left' hcut]
    exact ⟨(coe_sortedKeys key kept).symm, (coe_sortedKeys key dropped).symm⟩

/-- A measure of the keys is respected exactly when it is where the sorted keys are cut. -/
theorem Best.respects_iff [LE N] {offered kept : Multiset α} (h : Best capacity key offered kept)
    (measure : K → N) :
    (∃ dropped, offered = kept + dropped ∧
        ∀ x ∈ kept, ∀ y ∈ dropped, measure (key x) ≤ measure (key y)) ↔
      ∀ a ∈ (sortedKeys key offered).take capacity, ∀ b ∈ (sortedKeys key offered).drop capacity,
        measure a ≤ measure b := by
  obtain ⟨hcard, dropped, rfl, hle⟩ := h
  obtain ⟨hkept, hdropped⟩ := Best.map_key hcard hle
  constructor
  · intro hsome a ha b hb
    -- what was dropped is what the offered items have besides the kept ones
    obtain ⟨dropped', hsplit, hrespects⟩ := hsome
    obtain rfl := Multiset.add_right_inj.mp hsplit
    obtain ⟨x, hx, rfl⟩ := Multiset.mem_map.mp (hkept ▸ Multiset.mem_coe.mpr ha)
    obtain ⟨y, hy, rfl⟩ := Multiset.mem_map.mp (hdropped ▸ Multiset.mem_coe.mpr hb)
    exact hrespects x hx y hy
  · intro hcut
    refine ⟨dropped, rfl, fun x hx y hy => hcut _ ?_ _ ?_⟩
    · exact Multiset.mem_coe.mp (hkept ▸ Multiset.mem_map_of_mem key hx)
    · exact Multiset.mem_coe.mp (hdropped ▸ Multiset.mem_map_of_mem key hy)

end BestOf
