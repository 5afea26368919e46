import GridPoolSv2.Lib.Runs
import Mathlib.Data.List.Basic
import Mathlib.Logic.Function.Basic

/-!
# Lib.Series: a keyed store that is brought up to date in place

A store of values is to show a new set of writes and nothing else. The plain way is to empty it and
write (`rebuild`), and whoever reads it meanwhile finds keys missing. The other way is to write
over what is there and then to remove the keys that only the previous writes had, in any order.

`Underway` relates the store in the middle of such a refresh to the store before it. A key that is
there before and after it is there all the time (`Underway.present`), and at the end the two ways
come to the same (`Underway.finish`).
-/

namespace Series

open Runs (exec)

variable {K V : Type*} [DecidableEq K]

/-- One write after the other. -/
def write (s : K → Option V) (x : K × V) : K → Option V :=
  Function.update s x.1 (some x.2)

/-- The store that is emptied and written. -/
def rebuild (xs : List (K × V)) : K → Option V :=
  exec write (fun _ => none) xs

@[simp] theorem rebuild_nil (k : K) : rebuild ([] : List (K × V)) k = none := rfl

theorem rebuild_concat (xs : List (K × V)) (x : K × V) (k : K) :
    rebuild (xs ++ [x]) k = if k = x.1 then some x.2 else rebuild xs k := by
  show exec write _ (xs ++ [x]) k = _
  rw [Runs.exec_append]
  exact Function.update_apply ..

/-- The keys are those of the writes. -/
theorem rebuild_isSome {xs : List (K × V)} {k : K} :
    (rebuild xs k).isSome ↔ ∃ v, (k, v) ∈ xs := by
  induction xs using List.reverseRecOn with
  | nil => simp
  | append_singleton xs x ih =>
      rw [rebuild_concat]
      split
      case isTrue h =>
        subst h
        simp only [Option.isSome_some, true_iff]
        exact ⟨x.2, by simp⟩
      case isFalse h =>
        rw [ih]
        refine exists_congr fun v => ?_
        have hne : (k, v) ≠ x := fun heq => h (congrArg Prod.fst heq)
        simp [hne]

theorem rebuild_mem {xs : List (K × V)} {k : K} {v : V} (h : rebuild xs k = some v) :
    (k, v) ∈ xs := by
  induction xs using List.reverseRecOn with
  | nil => simp at h
  | append_singleton xs x ih =>
      rw [rebuild_concat] at h
      split at h
      case isTrue hk =>
        obtain rfl := Option.some.inj h
        subst hk
        simp
      case isFalse => exact List.mem_append_left _ (ih h)

/-- The writes `xs` and the removals `ks` of a refresh that found the store `base`, when the writes
`todo` and the removals `stale` are left. -/
def Underway (base : K → Option V) (xs : List (K × V)) (ks : List K) (store : K → Option V)
    (todo : List (K × V)) (stale : List K) : Prop :=
  ∃ done, done ++ todo = xs ∧ (∀ k ∈ stale, k ∈ ks) ∧
    ∀ k, store k = if k ∈ ks ∧ k ∉ stale then none else (rebuild done k).or (base k)

variable {base store : K → Option V} {xs todo : List (K × V)} {ks stale : List K}

theorem underway_start (base : K → Option V) (xs : List (K × V)) (ks : List K) :
    Underway base xs ks base xs ks := by
  refine ⟨[], rfl, fun _ h => h, fun k => ?_⟩
  simp

theorem Underway.write {x : K × V} (h : Underway base xs ks store (x :: todo) stale)
    (hx : x.1 ∉ ks) : Underway base xs ks (write store x) todo stale := by
  obtain ⟨done, hdone, hstale, hstore⟩ := h
  refine ⟨done ++ [x], by simpa using hdone, hstale, fun k => ?_⟩
  rw [Series.write, Function.update_apply, rebuild_concat]
  split
  case isTrue hk =>
    subst hk
    simp [hx]
  case isFalse => exact hstore k

theorem Underway.remove {k : K} (h : Underway base xs ks store todo stale) (hk : k ∈ stale) :
    Underway base xs ks (Function.update store k none) todo (stale.filter (· ≠ k)) := by
  obtain ⟨done, hdone, hstale, hstore⟩ := h
  refine ⟨done, hdone, fun j hj => hstale j (List.mem_of_mem_filter hj), fun j => ?_⟩
  rw [Function.update_apply]
  split
  case isTrue hj =>
    subst hj
    simp [hstale j hk]
  case isFalse hj =>
    have hmem : j ∈ stale.filter (· ≠ k) ↔ j ∈ stale := by simp [hj]
    simp only [hstore j, hmem]

/-- A key of the old store that is written again is never missing. -/
theorem Underway.present {k : K} (h : Underway base xs ks store todo stale)
    (hbase : (base k).isSome) (hk : k ∉ ks) : (store k).isSome := by
  obtain ⟨done, -, -, hstore⟩ := h
  rw [hstore k, if_neg fun hmem => hk hmem.1]
  cases rebuild done k <;> simp [hbase]

/-- Whatever the store shows is an old value or one of the writes. -/
theorem Underway.shown {k : K} {v : V} (h : Underway base xs ks store todo stale)
    (hv : store k = some v) : base k = some v ∨ (k, v) ∈ xs := by
  obtain ⟨done, rfl, -, hstore⟩ := h
  rw [hstore k] at hv
  split at hv
  case isTrue => simp at hv
  case isFalse =>
    cases hd : rebuild done k with
    | none => exact .inl (by simpa [hd] using hv)
    | some w =>
        obtain rfl : w = v := by simpa [hd] using hv
        exact .inr (List.mem_append_left _ (rebuild_mem hd))

theorem Underway.finish (h : Underway base xs ks store [] []) (k : K) :
    store k = if k ∈ ks then none else (rebuild xs k).or (base k) := by
  obtain ⟨done, hdone, -, hstore⟩ := h
  rw [List.append_nil] at hdone
  subst hdone
  simpa using hstore k

end Series
