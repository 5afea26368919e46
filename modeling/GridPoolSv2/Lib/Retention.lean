import Mathlib.Data.List.AList
import Mathlib.Data.List.Sort

/-!
# Lib.Retention: maps that keep their largest keys

A bounded map that makes room by removing its smallest keys (`keepLargest`) and a history
of all the keys it was ever given. `after` counts the keys of the history that are larger
than a given one, and `Retains` is the link between the two: the map holds exactly the
keys of the history with fewer than `n` larger ones. `retains_insert` keeps the link when
a new largest key arrives.
-/

namespace Retention

/-! ### Removing keys one by one -/

section Erase

variable {κ V : Type*} [DecidableEq κ]

theorem mem_foldl_erase (ks : List κ) (m : AList fun _ : κ => V) {k : κ} :
    k ∈ ks.foldl (fun m k => m.erase k) m ↔ k ∈ m ∧ k ∉ ks := by
  induction ks generalizing m with
  | nil => simp
  | cons a ks ih =>
      rw [List.foldl_cons, ih, AList.mem_erase, List.mem_cons, not_or]
      tauto

theorem lookup_foldl_erase (ks : List κ) (m : AList fun _ : κ => V) {k : κ} (hk : k ∉ ks) :
    (ks.foldl (fun m k => m.erase k) m).lookup k = m.lookup k := by
  induction ks generalizing m with
  | nil => rfl
  | cons a ks ih =>
      rw [List.mem_cons, not_or] at hk
      rw [List.foldl_cons, ih _ hk.2, AList.lookup_erase_ne hk.1]

end Erase

/-! ### The largest keys -/

variable {α V : Type*} [LinearOrder α]

/-- The number of keys larger than `k`. -/
def after (keys : List α) (k : α) : Nat :=
  (keys.filter fun u => k < u).length

theorem after_cons_of_lt {keys : List α} {k u : α} (h : k < u) :
    after (u :: keys) k = after keys k + 1 := by
  simp [after, h]

theorem after_cons_of_not_lt {keys : List α} {k u : α} (h : ¬ k < u) :
    after (u :: keys) k = after keys k := by
  simp [after, h]

theorem after_perm {keys keys' : List α} (h : keys.Perm keys') (k : α) :
    after keys k = after keys' k :=
  (h.filter _).length_eq

theorem after_le_of_le {keys : List α} {k u : α} (h : k ≤ u) : after keys u ≤ after keys k := by
  refine (List.monotone_filter_right keys ?_).length_le
  intro v hv
  simp only [decide_eq_true_eq] at hv ⊢
  exact lt_of_le_of_lt h hv

/-- Two duplicate-free lists with the same keys above `k` have as many of them. -/
theorem after_congr {keys keys' : List α} (hnodup : keys.Nodup) (hnodup' : keys'.Nodup) {k : α}
    (h : ∀ u, k < u → (u ∈ keys ↔ u ∈ keys')) : after keys k = after keys' k := by
  refine List.Perm.length_eq ((List.perm_ext_iff_of_nodup (hnodup.filter _) (hnodup'.filter _)).mpr
    ?_)
  intro u
  simp only [List.mem_filter, decide_eq_true_eq]
  constructor
  · rintro ⟨hu, hlt⟩
    exact ⟨(h u hlt).mp hu, hlt⟩
  · rintro ⟨hu, hlt⟩
    exact ⟨(h u hlt).mpr hu, hlt⟩

/-- In an increasing list, the last `n` keys are the ones with fewer than `n` larger keys. -/
theorem mem_drop_iff_after_lt {keys : List α} (hsorted : keys.Pairwise (· < ·)) {k : α}
    (hk : k ∈ keys) (n : Nat) : k ∈ keys.drop (keys.length - n) ↔ after keys k < n := by
  induction keys with
  | nil => cases hk
  | cons a keys ih =>
      obtain ⟨ha, hrest⟩ := List.pairwise_cons.mp hsorted
      have hle : after keys k ≤ keys.length := List.length_filter_le _ _
      by_cases hn : keys.length < n
      · -- nothing is dropped, and no key has `n` larger ones
        have hcount : after (a :: keys) k < n := by
          by_cases hlt : k < a
          · rcases List.mem_cons.mp hk with rfl | hk
            · exact absurd hlt (lt_irrefl _)
            · exact absurd hlt (lt_asymm (ha k hk))
          · rw [after_cons_of_not_lt hlt]
            omega
        rw [show (a :: keys).length - n = 0 by simp; omega, List.drop_zero]
        exact ⟨fun _ => hcount, fun _ => hk⟩
      · have hdrop : (a :: keys).drop ((a :: keys).length - n) = keys.drop (keys.length - n) := by
          rw [List.length_cons, Nat.succ_sub (Nat.le_of_not_lt hn), List.drop_succ_cons]
        rw [hdrop]
        rcases List.mem_cons.mp hk with rfl | hk
        · have hcount : after (k :: keys) k = keys.length := by
            rw [after_cons_of_not_lt (lt_irrefl k), after, List.filter_eq_self.mpr]
            intro u hu
            simpa using ha u hu
          refine ⟨fun hmem => absurd (ha k (List.mem_of_mem_drop hmem)) (lt_irrefl k), fun h => ?_⟩
          omega
        · rw [after_cons_of_not_lt (lt_asymm (ha k hk))]
          exact ih hrest hk

/-- Remove the smallest keys until `n` are left. -/
def keepLargest (n : Nat) (m : AList fun _ : α => V) : AList fun _ : α => V :=
  if n < m.keys.length then
    ((m.keys.insertionSort (· ≤ ·)).take (m.keys.length - n)).foldl (fun m k => m.erase k) m
  else m

/-- The kept keys are the ones with fewer than `n` larger keys. -/
theorem mem_keepLargest (n : Nat) (m : AList fun _ : α => V) {k : α} :
    k ∈ keepLargest n m ↔ k ∈ m ∧ after m.keys k < n := by
  unfold keepLargest
  split
  · rw [mem_foldl_erase]
    refine and_congr_right fun hk => ?_
    have hperm : (m.keys.insertionSort (· ≤ ·)).Perm m.keys := List.perm_insertionSort _ _
    have hnodup : (m.keys.insertionSort (· ≤ ·)).Nodup := hperm.nodup_iff.mpr m.nodupKeys
    have hsorted : (m.keys.insertionSort (· ≤ ·)).Pairwise (· < ·) :=
      List.Pairwise.imp₂ (fun _ _ hle hne => lt_of_le_of_ne hle hne)
        (List.pairwise_insertionSort _ _) hnodup
    have hmem := hperm.mem_iff.mpr hk
    rw [← after_perm hperm, ← mem_drop_iff_after_lt hsorted hmem, hperm.length_eq]
    constructor
    · intro hnot
      rw [← List.take_append_drop (m.keys.length - n) (m.keys.insertionSort (· ≤ ·))] at hmem
      exact (List.mem_append.mp hmem).resolve_left hnot
    · intro hdrop htake
      exact List.disjoint_take_drop hnodup le_rfl htake hdrop
  · rename_i hlen
    refine ⟨fun hk => ⟨hk, ?_⟩, And.left⟩
    have hself : after m.keys k < m.keys.length :=
      List.length_filter_lt_length_iff_exists.mpr ⟨k, hk, by simp⟩
    omega

/-- The map holds the keys of the history with fewer than `n` larger ones. -/
structure Retains (n : Nat) (history : List α) (m : AList fun _ : α => V) : Prop where
  nodup : history.Nodup
  mem : ∀ k, k ∈ m ↔ k ∈ history ∧ after history k < n

theorem retains_empty (n : Nat) : Retains n [] (∅ : AList fun _ : α => V) where
  nodup := List.nodup_nil
  mem := by
    intro k
    simp [AList.notMem_empty]

/-- The link is kept when a new largest key is stored. -/
theorem retains_insert {n : Nat} {history : List α} {m : AList fun _ : α => V}
    (h : Retains n history m) {k : α} (v : V) (hmax : ∀ u ∈ history, u < k) :
    Retains n (k :: history) (keepLargest n (m.insert k v)) where
  nodup := List.nodup_cons.mpr ⟨fun hk => lt_irrefl k (hmax k hk), h.nodup⟩
  mem := by
    intro u
    rw [mem_keepLargest, AList.mem_insert, List.mem_cons]
    have hnodup : (k :: history).Nodup :=
      List.nodup_cons.mpr ⟨fun hk => lt_irrefl k (hmax k hk), h.nodup⟩
    -- above a key that is still there, the map and the history hold the same keys
    have hcount : u = k ∨ u ∈ m → after (m.insert k v).keys u = after (k :: history) u := by
      intro hu
      refine after_congr (m.insert k v).keys_nodup hnodup fun w hw => ?_
      rw [← AList.mem_keys, AList.mem_insert, List.mem_cons, h.mem]
      refine or_congr_right ⟨And.left, fun hwh => ⟨hwh, ?_⟩⟩
      rcases hu with rfl | hu
      · exact absurd (hmax w hwh) (lt_asymm hw)
      · exact lt_of_le_of_lt (after_le_of_le hw.le) ((h.mem u).mp hu).2
    constructor
    · rintro ⟨hu, hlt⟩
      rw [hcount hu] at hlt
      exact ⟨hu.imp_right fun hu => ((h.mem u).mp hu).1, hlt⟩
    · rintro ⟨hu, hlt⟩
      have hu' : u = k ∨ u ∈ m := by
        refine hu.imp_right fun hu => (h.mem u).mpr ⟨hu, ?_⟩
        rw [after_cons_of_lt (hmax u hu)] at hlt
        omega
      exact ⟨hu', by rwa [hcount hu']⟩

end Retention
