import Mathlib.Data.List.Induction
import Mathlib.Order.Basic

/-!
# Lib.Runs: runs of a step function

A component is a **step function** `step : σ → ε → σ` over states and events, and a
run is a list of events applied from the left (`exec`). A condition that is imposed on
the steps of a run, and not on its states alone, is a predicate of the state *before*
the step and of the event; `Along` says that every step of a run meets it.

`exec_induct` is the rule every whole-run result below goes through: an invariant that
one conditioned step preserves holds at the end of every run whose steps all meet the
condition.
-/

namespace Runs

variable {σ ε : Type*} (step : σ → ε → σ)

/-- The state a run of events leads to. -/
def exec (s : σ) (es : List ε) : σ :=
  es.foldl step s

@[simp] theorem exec_nil (s : σ) : exec step s [] = s := rfl

@[simp] theorem exec_cons (s : σ) (e : ε) (es : List ε) :
    exec step s (e :: es) = exec step (step s e) es := rfl

theorem exec_append (s : σ) (es fs : List ε) :
    exec step s (es ++ fs) = exec step (exec step s es) fs :=
  List.foldl_append

/-- Every step of the run from `s` meets the condition `C`, which sees the state before
the step and the event. -/
def Along (C : σ → ε → Prop) : σ → List ε → Prop
  | _, [] => True
  | s, e :: es => C s e ∧ Along C (step s e) es

@[simp] theorem along_nil (C : σ → ε → Prop) (s : σ) : Along step C s [] := trivial

@[simp] theorem along_cons (C : σ → ε → Prop) (s : σ) (e : ε) (es : List ε) :
    Along step C s (e :: es) ↔ C s e ∧ Along step C (step s e) es :=
  Iff.rfl

instance decidableAlong (C : σ → ε → Prop) [∀ s e, Decidable (C s e)] :
    ∀ (s : σ) (es : List ε), Decidable (Along step C s es)
  | _, [] => isTrue trivial
  | s, e :: es =>
      have : Decidable (Along step C (step s e) es) := decidableAlong C (step s e) es
      inferInstanceAs (Decidable (C s e ∧ Along step C (step s e) es))

variable {step}

/-- A run that meets a condition meets a weaker one. -/
theorem Along.mono {C C' : σ → ε → Prop} (h : ∀ s e, C s e → C' s e) {s : σ} {es : List ε}
    (hC : Along step C s es) : Along step C' s es := by
  induction es generalizing s with
  | nil => trivial
  | cons e es ih => exact ⟨h s e hC.1, ih hC.2⟩

/-- The run rule: what one conditioned step preserves, a conditioned run preserves. -/
theorem exec_induct {I : σ → Prop} {C : σ → ε → Prop}
    (hstep : ∀ s e, I s → C s e → I (step s e)) {s : σ} {es : List ε} (h0 : I s)
    (hC : Along step C s es) : I (exec step s es) := by
  induction es generalizing s with
  | nil => exact h0
  | cons e es ih =>
      obtain ⟨hc, hrest⟩ := hC
      exact ih (hstep s e h0 hc) hrest

/-- The run rule for an invariant that every step preserves. -/
theorem exec_invariant {I : σ → Prop} (hstep : ∀ s e, I s → I (step s e)) {s : σ}
    (h0 : I s) (es : List ε) : I (exec step s es) := by
  induction es generalizing s with
  | nil => exact h0
  | cons e es ih => exact ih (hstep s e h0)

theorem along_append {C : σ → ε → Prop} {s : σ} {es fs : List ε} :
    Along step C s (es ++ fs) ↔ Along step C s es ∧ Along step C (exec step s es) fs := by
  induction es generalizing s with
  | nil => simp
  | cons e es ih => simp [ih, and_assoc]

/-- A run meets a condition exactly when it is met at every split of the run. -/
theorem along_iff_splits {C : σ → ε → Prop} {s : σ} {es : List ε} :
    Along step C s es ↔ ∀ pre e post, es = pre ++ e :: post → C (exec step s pre) e := by
  constructor
  · rintro h pre e post rfl
    exact (along_append.mp h).2.1
  · intro h
    induction es generalizing s with
    | nil => trivial
    | cons e es ih =>
        refine ⟨h [] e es rfl, ih fun pre f post hsplit => ?_⟩
        exact h (e :: pre) f post (by rw [hsplit, List.cons_append])

/-- Two conditions that agree on the states of an invariant agree on runs, if the first one keeps
the invariant. -/
theorem along_congr {I : σ → Prop} {C C' : σ → ε → Prop} (hiff : ∀ s e, I s → (C s e ↔ C' s e))
    (hstep : ∀ s e, I s → C s e → I (step s e)) {s : σ} {es : List ε} (h0 : I s) :
    Along step C s es ↔ Along step C' s es := by
  induction es generalizing s with
  | nil => exact Iff.rfl
  | cons e es ih =>
      constructor
      · rintro ⟨hC, hrest⟩
        exact ⟨(hiff s e h0).mp hC, (ih (hstep s e h0 hC)).mp hrest⟩
      · rintro ⟨hC', hrest⟩
        have hC := (hiff s e h0).mpr hC'
        exact ⟨hC, (ih (hstep s e h0 hC)).mpr hrest⟩

/-- What one conditioned step shows, if it preserves an invariant, every step of a conditioned run
shows. -/
theorem Along.of_invariant {I : σ → Prop} {C D : σ → ε → Prop}
    (hstep : ∀ s e, I s → C s e → I (step s e) ∧ D s e) {s : σ} {es : List ε} (h0 : I s)
    (hC : Along step C s es) : Along step D s es := by
  induction es generalizing s with
  | nil => trivial
  | cons e es ih =>
      obtain ⟨hI, hD⟩ := hstep s e h0 hC.1
      exact ⟨hD, ih hI hC.2⟩

/-- A property that a step keeps exactly under a condition, and never restores, holds at the end of
a run exactly if it holds at the start and every step meets the condition. -/
theorem exec_iff_along {I P : σ → Prop} {C : σ → ε → Prop}
    (hiff : ∀ s e, I s → (P (step s e) ↔ P s ∧ C s e)) (hstep : ∀ s e, I s → I (step s e))
    {s : σ} (h0 : I s) (es : List ε) :
    P (exec step s es) ↔ P s ∧ Along step C s es := by
  induction es generalizing s with
  | nil => simp
  | cons e es ih =>
      rw [exec_cons, ih (hstep s e h0), hiff s e h0, along_cons, and_assoc]

/-- The run rule for an invariant that also sees the events so far. -/
theorem exec_induct_events {I : List ε → σ → Prop} {C : σ → ε → Prop} {s₀ : σ}
    (hstep : ∀ es e, I es (exec step s₀ es) → C (exec step s₀ es) e →
      I (es ++ [e]) (step (exec step s₀ es) e)) {es : List ε} (h0 : I [] s₀)
    (hC : Along step C s₀ es) : I es (exec step s₀ es) := by
  induction es using List.reverseRecOn with
  | nil => exact h0
  | append_singleton es e ih =>
      obtain ⟨hes, he, -⟩ := along_append.mp hC
      rw [exec_append, exec_cons, exec_nil]
      exact hstep es e (ih hes) he

end Runs
