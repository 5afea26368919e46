import GridPoolSv2.Lib.Runs
import Mathlib.Logic.Function.Basic

/-!
# Lib.Tasks: interleaved tasks over shared memory

Tasks share a memory of type `σ`; every task has a local state of type `τ` next to it (its
program counter and what it has read). A turn of a task is one atomic operation
`op i a : σ → τ → σ × τ`, with `a` for what the operation reads from outside, and a run is
any list of turns.

`Rules` is the rely-guarantee rule. Every task `i` has an assertion `L i` about the memory
and its own local state; the memory has an invariant `I`. A turn of `i` has to establish
both again, and to stay within a relation `G i` between the memory before and after; the
assertions of the other tasks have to be stable under that relation. No two operations have
to be compared with each other.
-/

namespace Tasks

open Runs

variable {ι α σ τ : Type*} [DecidableEq ι]

/-- The memory and the local states of the tasks. -/
structure Config (ι σ τ : Type*) where
  shared : σ
  tasks : ι → τ

/-- A turn: the task, and what its operation reads from outside. -/
def step (op : ι → α → σ → τ → σ × τ) (c : Config ι σ τ) (turn : ι × α) : Config ι σ τ :=
  let r := op turn.1 turn.2 c.shared (c.tasks turn.1)
  ⟨r.1, Function.update c.tasks turn.1 r.2⟩

/-- The invariant holds, and every task's assertion. -/
structure Sound (I : σ → Prop) (L : ι → σ → τ → Prop) (c : Config ι σ τ) : Prop where
  shared : I c.shared
  tasks : ∀ i, L i c.shared (c.tasks i)

/-- The proof obligations of the rely-guarantee rule. -/
structure Rules (op : ι → α → σ → τ → σ × τ) (I : σ → Prop) (L : ι → σ → τ → Prop)
    (G : ι → σ → σ → Prop) : Prop where
  shared : ∀ i a s t, I s → L i s t → I (op i a s t).1
  own : ∀ i a s t, I s → L i s t → L i (op i a s t).1 (op i a s t).2
  guarantee : ∀ i a s t, I s → L i s t → G i s (op i a s t).1
  stable : ∀ i j s s' t, j ≠ i → I s → G i s s' → L j s t → L j s' t

variable {op : ι → α → σ → τ → σ × τ} {I : σ → Prop} {L : ι → σ → τ → Prop} {G : ι → σ → σ → Prop}

theorem Rules.step (h : Rules op I L G) {c : Config ι σ τ} (hc : Sound I L c) (turn : ι × α) :
    Sound I L (step op c turn) where
  shared := h.shared _ _ _ _ hc.shared (hc.tasks turn.1)
  tasks := by
    intro j
    have hturn := hc.tasks turn.1
    by_cases hj : j = turn.1
    · subst hj
      simpa only [Tasks.step, Function.update_self] using h.own _ turn.2 _ _ hc.shared hturn
    · have hguarantee := h.guarantee _ turn.2 _ _ hc.shared hturn
      simpa only [Tasks.step, Function.update_of_ne hj] using
        h.stable _ j _ _ _ hj hc.shared hguarantee (hc.tasks j)

/-- The rule for runs: any interleaving of the tasks keeps the invariant and the assertions. -/
theorem Rules.exec (h : Rules op I L G) {c : Config ι σ τ} (hc : Sound I L c)
    (turns : List (ι × α)) : Sound I L (exec (Tasks.step op) c turns) :=
  exec_invariant (I := Sound I L) (fun _ turn hc => h.step hc turn) hc turns

end Tasks
