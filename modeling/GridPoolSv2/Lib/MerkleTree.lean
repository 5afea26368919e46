import Mathlib.Data.List.Basic
import Mathlib.Tactic.Common

/-!
# Lib.MerkleTree: the tree over a list and the branch of its first leaf

A tree over a list of leaves, built level by level with an arbitrary `pair`; the last node
of an odd level is paired with itself. The nodes beside the first one of each level, the
**branch**, are computed from the other leaves alone, and folding a leaf with the branch
gives the root over that leaf and the others (`foldl_branch`).

Programs compute a level in two ways: they pad an odd level and cut it into pairs
(`pairs_pad`), or they take the nodes `2 * i` and `2 * i + 1` by index, the second one at
most the last (`ofFn_eq_level`). Both give `level`.
-/

namespace MerkleTree

variable {α : Type*}

section Levels

variable (pair : α → α → α)

/-- The level above a list of nodes. -/
def level : List α → List α
  | a :: b :: rest => pair a b :: level rest
  | [a] => [pair a a]
  | [] => []

/-- A level has half as many nodes, rounded up. -/
theorem length_level (nodes : List α) : (level pair nodes).length = (nodes.length + 1) / 2 := by
  induction nodes using level.induct with
  | case1 a b rest ih =>
      simp only [level, List.length_cons, ih]
      omega
  | case2 a => simp [level]
  | case3 => simp [level]

/-- Each pair of neighbours; a node without a neighbour is left out. -/
def pairs : List α → List α
  | a :: b :: rest => pair a b :: pairs rest
  | _ => []

end Levels

/-- A level whose last node is repeated when the level is odd. -/
def pad (nodes : List α) : List α :=
  if nodes.length % 2 = 1 then nodes ++ nodes.getLast?.toList else nodes

theorem pad_cons_cons (a b : α) (rest : List α) : pad (a :: b :: rest) = a :: b :: pad rest := by
  have hparity : (a :: b :: rest).length % 2 = rest.length % 2 := by
    simp only [List.length_cons]
    omega
  unfold pad
  rw [hparity]
  split
  · rename_i hodd
    -- the last node of an odd level is not one of the first two
    obtain ⟨c, rest, rfl⟩ := List.exists_cons_of_length_pos (l := rest) (by omega)
    simp
  · rfl

theorem length_pad (nodes : List α) : nodes.length ≤ (pad nodes).length := by
  unfold pad
  split
  · rw [List.length_append]
    exact Nat.le_add_right _ _
  · exact Nat.le_refl _

variable (pair : α → α → α)

theorem pairs_pad (nodes : List α) : pairs pair (pad nodes) = level pair nodes := by
  induction nodes using level.induct with
  | case1 a b rest ih => rw [pad_cons_cons, pairs, level, ih]
  | case2 a => rfl
  | case3 => rfl

theorem getElem_level (nodes : List α) (i : Nat) (h : i < (level pair nodes).length)
    (hleft : 2 * i < nodes.length) (hright : min (2 * i + 1) (nodes.length - 1) < nodes.length) :
    (level pair nodes)[i] = pair nodes[2 * i] nodes[min (2 * i + 1) (nodes.length - 1)] := by
  induction nodes using level.induct generalizing i with
  | case1 a b rest ih =>
      cases i with
      | zero => simp [level]
      | succ i =>
          have hrest : 2 * i < rest.length := by
            simp only [List.length_cons] at hleft
            omega
          have hlast : min (2 * (i + 1) + 1) ((a :: b :: rest).length - 1) =
              min (2 * i + 1) (rest.length - 1) + 1 + 1 := by
            simp only [List.length_cons]
            omega
          have hnode : (a :: b :: rest)[min (2 * (i + 1) + 1) ((a :: b :: rest).length - 1)] =
              rest[min (2 * i + 1) (rest.length - 1)] := by
            simp only [hlast, List.getElem_cons_succ]
          have hih := ih i (by simpa [level] using h) hrest (by omega)
          rw [hnode]
          simp only [level, List.getElem_cons_succ, hih, Nat.mul_add, Nat.mul_one]
  | case2 a =>
      obtain rfl : i = 0 := by
        simp only [List.length_singleton] at hleft
        omega
      simp [level]
  | case3 => cases hleft

/-- A level by the indices of the nodes below. -/
theorem ofFn_eq_level (nodes : List α) :
    (List.ofFn fun i : Fin ((nodes.length + 1) / 2) =>
      pair (nodes.get ⟨2 * i.val, by omega⟩)
        (nodes.get ⟨min (2 * i.val + 1) (nodes.length - 1), by omega⟩)) = level pair nodes := by
  refine List.ext_getElem ?_ ?_
  · rw [List.length_ofFn, length_level]
  · intro i h h'
    rw [List.length_ofFn] at h
    rw [List.getElem_ofFn, getElem_level pair nodes i h' (by omega) (by omega)]
    rfl

/-! ### The root and the branch of the first leaf -/

/-- The root of the tree over a first leaf and the others. -/
def root (a : α) : List α → α
  | [] => a
  | b :: rest => root (pair a b) (level pair rest)
termination_by rest => rest.length
decreasing_by
  rw [length_level, List.length_cons]
  omega

/-- The nodes beside the first one of each level, from the leaves after the first. -/
def branch : List α → List α
  | [] => []
  | b :: rest => b :: branch (level pair rest)
termination_by rest => rest.length
decreasing_by
  rw [length_level, List.length_cons]
  omega

@[simp] theorem root_nil (a : α) : root pair a [] = a := by
  rw [root]

@[simp] theorem root_cons (a b : α) (rest : List α) :
    root pair a (b :: rest) = root pair (pair a b) (level pair rest) := by
  rw [root]

@[simp] theorem branch_nil : branch pair [] = [] := by
  rw [branch]

/-- The node beside the first, and the branch of the level. -/
@[simp] theorem branch_cons (b : α) (rest : List α) :
    branch pair (b :: rest) = b :: branch pair (level pair rest) := by
  rw [branch]

/-- The branch leads from any first leaf to the root of the tree over it. -/
theorem foldl_branch (a : α) (rest : List α) :
    (branch pair rest).foldl pair a = root pair a rest := by
  induction a, rest using root.induct pair with
  | case1 a => rw [branch_nil, root_nil, List.foldl_nil]
  | case2 a b rest ih => rw [branch_cons, root_cons, List.foldl_cons, ih]

end MerkleTree
