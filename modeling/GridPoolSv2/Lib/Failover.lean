import Mathlib.Data.List.GetD
import Mathlib.Order.Basic

/-!
# Lib.Failover: candidates that are tried in order

A client has a list of candidates and looks for one that takes it, up to `max` attempts at each. A
candidate that took it or that failed `max` times is **flagged** and is never tried again; when a
connection is lost the search starts over at the head of the list, past the flagged ones.

* `Pass` is one search: what it may try in what order, and how it may end.
* `Settled` and `Begun` say what the attempts at one candidate look like when it is flagged, and
  at any time.
* `Kept` is what holds between two searches of a client's life; `Kept.pass` is the rule for one
  more search.

`sorted_log`, `begun_attempts` and `settled_attempts` are what a life shows from outside: a
candidate's attempts are never resumed after those of another, and none is left out.
-/

namespace Failover

variable {max : Nat}

/-- The attempts that flag a candidate: `true` is the one that connected. -/
def Settled (max : Nat) (as : List Bool) : Prop :=
  as = List.replicate max false ∨ ∃ k < max, as = List.replicate k false ++ [true]

/-- The attempts at a candidate so far. -/
def Begun (max : Nat) (as : List Bool) : Prop :=
  ∃ bs, Settled max bs ∧ as <+: bs

theorem Settled.begun {as : List Bool} (h : Settled max as) : Begun max as :=
  ⟨as, h, List.prefix_rfl⟩

theorem begun_nil (max : Nat) : Begun max [] :=
  ⟨List.replicate max false, .inl rfl, List.nil_prefix⟩

theorem begun_replicate {k : Nat} (hk : k ≤ max) : Begun max (List.replicate k false) := by
  refine ⟨List.replicate max false, .inl rfl, ?_⟩
  obtain ⟨r, rfl⟩ := Nat.exists_eq_add_of_le hk
  exact ⟨List.replicate r false, by simp⟩

/-- The log entries of a candidate's attempts. -/
def segment (i : Nat) (as : List Bool) : List (Nat × Bool) :=
  as.map fun a => (i, a)

/-- The log of the attempts at the candidates from `i` on. -/
def logOf : Nat → List (List Bool) → List (Nat × Bool)
  | _, [] => []
  | i, as :: rest => segment i as ++ logOf (i + 1) rest

/-- The attempts of a log at one candidate. -/
def attempts (i : Nat) (log : List (Nat × Bool)) : List Bool :=
  log.filterMap fun a => if a.1 = i then some a.2 else none

theorem logOf_append (i : Nat) (xs ys : List (List Bool)) :
    logOf i (xs ++ ys) = logOf i xs ++ logOf (i + xs.length) ys := by
  induction xs generalizing i with
  | nil => rfl
  | cons as xs ih =>
      show segment i as ++ logOf (i + 1) (xs ++ ys) = _
      rw [ih, ← List.append_assoc, List.length_cons, Nat.add_right_comm, ← Nat.add_assoc]
      rfl

theorem attempts_append (i : Nat) (log log' : List (Nat × Bool)) :
    attempts i (log ++ log') = attempts i log ++ attempts i log' :=
  List.filterMap_append ..

theorem attempts_segment (i j : Nat) (as : List Bool) :
    attempts i (segment j as) = if j = i then as else [] := by
  induction as with
  | nil => simp [attempts, segment]
  | cons a as ih =>
      have hcons : attempts i (segment j (a :: as)) =
          attempts i [(j, a)] ++ attempts i (segment j as) := attempts_append i [(j, a)] _
      rw [hcons, ih]
      by_cases h : j = i
      · simp [attempts, h]
      · simp [attempts, h]

theorem attempts_logOf (i j : Nat) (segs : List (List Bool)) :
    attempts i (logOf j segs) = if j ≤ i then segs.getD (i - j) [] else [] := by
  induction segs generalizing j with
  | nil => simp [logOf, attempts]
  | cons as rest ih =>
      rw [logOf, attempts_append, attempts_segment, ih]
      rcases Nat.lt_trichotomy i j with h | rfl | h
      · simp [Nat.ne_of_gt h, Nat.not_le_of_lt h, Nat.not_le_of_lt (Nat.lt_succ_of_lt h)]
      · have hnot : ¬ i + 1 ≤ i := Nat.not_succ_le_self i
        simp [hnot]
      · have hsub : i - j = i - (j + 1) + 1 := by omega
        simp [Nat.ne_of_lt h, Nat.le_of_lt h, Nat.succ_le_of_lt h, hsub]

theorem mem_logOf {i : Nat} {segs : List (List Bool)} {a : Nat × Bool} (h : a ∈ logOf i segs) :
    i ≤ a.1 := by
  induction segs generalizing i with
  | nil => simp [logOf] at h
  | cons as rest ih =>
      obtain h | h := List.mem_append.mp h
      · obtain ⟨b, -, rfl⟩ := List.mem_map.mp h
        exact Nat.le_refl i
      · exact Nat.le_of_succ_le (ih h)

/-- The candidates are tried in their order, each one's attempts together. -/
theorem sorted_logOf (i : Nat) (segs : List (List Bool)) :
    (logOf i segs).Pairwise fun a b => a.1 ≤ b.1 := by
  induction segs generalizing i with
  | nil => exact List.Pairwise.nil
  | cons as rest ih =>
      refine List.pairwise_append.mpr ⟨?_, ih (i + 1), ?_⟩
      · exact List.pairwise_map.mpr (List.pairwise_of_forall fun _ _ => Nat.le_refl i)
      · intro a ha b hb
        obtain ⟨c, -, rfl⟩ := List.mem_map.mp ha
        exact Nat.le_of_succ_le (mem_logOf hb)

/-! ### One search -/

/-- How a search ends. -/
inductive Ending where
  | connected (i : Nat)
  | exhausted
  /-- It was given up. -/
  | aborted
  deriving Repr, DecidableEq

/-- A search through the candidates from `i` on with these flags: its attempts, its end and the
flags it leaves. -/
inductive Pass (max : Nat) :
    Nat → List Bool → List (Nat × Bool) → Ending → List Bool → Prop where
  | exhausted (i : Nat) : Pass max i [] [] .exhausted []
  | skipped {i : Nat} {fs fs' : List Bool} {log : List (Nat × Bool)} {o : Ending} :
      Pass max (i + 1) fs log o fs' → Pass max i (true :: fs) log o (true :: fs')
  | failed {i : Nat} {fs fs' : List Bool} {log : List (Nat × Bool)} {o : Ending} :
      Pass max (i + 1) fs log o fs' →
      Pass max i (false :: fs) (segment i (List.replicate max false) ++ log) o (true :: fs')
  | connected {i k : Nat} {fs : List Bool} (hk : k < max) :
      Pass max i (false :: fs) (segment i (List.replicate k false ++ [true])) (.connected i)
        (true :: fs)
  | aborted {i : Nat} {f : Bool} {fs : List Bool} {as : List Bool} (has : Begun max as)
      (hf : f = true → as = []) : Pass max i (f :: fs) (segment i as) .aborted (f :: fs)

theorem flags_cons {b : Bool} {fs : List Bool} {p q : Nat}
    (h : b :: fs = List.replicate p true ++ List.replicate q false) :
    (b = true ∧ ∃ r, p = r + 1 ∧ fs = List.replicate r true ++ List.replicate q false) ∨
    (b = false ∧ p = 0 ∧ ∃ r, q = r + 1 ∧ fs = List.replicate r false) := by
  cases p with
  | succ r =>
      rw [List.replicate_succ, List.cons_append] at h
      exact .inl ⟨(List.cons.inj h).1, r, rfl, (List.cons.inj h).2⟩
  | zero =>
      cases q with
      | zero => simp at h
      | succ r =>
          rw [List.replicate_zero, List.nil_append, List.replicate_succ] at h
          exact .inr ⟨(List.cons.inj h).1, rfl, r, rfl, (List.cons.inj h).2⟩

/-- What a search tries when the first `p` candidates are flagged and the other `q` are not. -/
theorem Pass.segments {i : Nat} {fs fs' : List Bool} {log : List (Nat × Bool)} {o : Ending}
    (h : Pass max i fs log o fs') {p q : Nat}
    (hfs : fs = List.replicate p true ++ List.replicate q false) :
    ∃ segs, (∀ as ∈ segs, Settled max as) ∧
      match o with
      | .aborted => ∃ as, Begun max as ∧ log = logOf (i + p) (segs ++ [as])
      | .exhausted => log = logOf (i + p) segs ∧ segs.length = q ∧
          fs' = List.replicate (p + q) true
      | .connected j => log = logOf (i + p) segs ∧ log.getLast? = some (j, true) ∧
          ∃ r, q = segs.length + r ∧
            fs' = List.replicate (p + segs.length) true ++ List.replicate r false := by
  induction h generalizing p q with
  | exhausted i =>
      have hnil := congrArg List.length hfs
      simp only [List.length_nil, List.length_append, List.length_replicate] at hnil
      obtain ⟨rfl, rfl⟩ : p = 0 ∧ q = 0 := by omega
      exact ⟨[], by simp, rfl, rfl, rfl⟩
  | @skipped i fs fs' log o _ ih =>
      obtain ⟨-, r, rfl, hr⟩ | ⟨hfalse, -⟩ := flags_cons hfs
      · obtain ⟨segs, hsettled, hend⟩ := ih hr
        refine ⟨segs, hsettled, ?_⟩
        rw [Nat.add_right_comm, Nat.add_assoc] at hend
        cases o with
        | aborted => exact hend
        | exhausted =>
            obtain ⟨hlog, hlen, hflags⟩ := hend
            exact ⟨hlog, hlen, by rw [hflags, ← List.replicate_succ, Nat.add_right_comm]⟩
        | connected j =>
            obtain ⟨hlog, hlast, s, hs, hflags⟩ := hend
            refine ⟨hlog, hlast, s, hs, ?_⟩
            rw [hflags, ← List.cons_append, ← List.replicate_succ, Nat.add_right_comm]
      · simp at hfalse
  | @failed i fs fs' log o _ ih =>
      obtain ⟨htrue, -⟩ | ⟨-, rfl, r, rfl, hr⟩ := flags_cons hfs
      · simp at htrue
      · obtain ⟨segs, hsettled, hend⟩ := ih (p := 0) (q := r) (by simpa using hr)
        refine ⟨List.replicate max false :: segs,
          List.forall_mem_cons.mpr ⟨.inl rfl, hsettled⟩, ?_⟩
        cases o with
        | aborted =>
            obtain ⟨as, has, hlog⟩ := hend
            exact ⟨as, has, by rw [hlog]; rfl⟩
        | exhausted =>
            obtain ⟨hlog, hlen, hflags⟩ := hend
            refine ⟨by rw [hlog]; rfl, by rw [List.length_cons, hlen], ?_⟩
            rw [hflags, ← List.replicate_succ, Nat.zero_add, Nat.zero_add]
        | connected j =>
            obtain ⟨hlog, hlast, s, hs, hflags⟩ := hend
            refine ⟨by rw [hlog]; rfl, ?_, s, by rw [hs, List.length_cons, Nat.add_right_comm], ?_⟩
            · rw [List.getLast?_append, hlast]
              rfl
            · rw [hflags, ← List.cons_append, ← List.replicate_succ, Nat.zero_add, Nat.zero_add,
                List.length_cons]
  | @connected i k fs hk =>
      obtain ⟨htrue, -⟩ | ⟨-, rfl, r, rfl, hr⟩ := flags_cons hfs
      · simp at htrue
      · refine ⟨[List.replicate k false ++ [true]], ?_, by simp [logOf], by simp [segment], r,
          Nat.add_comm r 1, ?_⟩
        · exact List.forall_mem_singleton.mpr (.inr ⟨k, hk, rfl⟩)
        · rw [hr]
          rfl
  | @aborted i f fs as has hf =>
      obtain ⟨htrue, r, rfl, -⟩ | ⟨-, rfl, -⟩ := flags_cons hfs
      · obtain rfl := hf htrue
        exact ⟨[], by simp, [], has, rfl⟩
      · exact ⟨[], by simp, as, has, by simp [logOf]⟩

/-- A search that finds every candidate flagged tries nothing. -/
theorem Pass.of_flagged {i : Nat} {fs fs' : List Bool} {log : List (Nat × Bool)} {o : Ending}
    (h : Pass max i fs log o fs') (hall : ∀ f ∈ fs, f = true) :
    log = [] ∧ fs' = fs ∧ ∀ j, o ≠ .connected j := by
  induction h with
  | exhausted i => exact ⟨rfl, rfl, fun j h => nomatch h⟩
  | skipped _ ih =>
      obtain ⟨hlog, hfs, hne⟩ := ih fun f hf => hall f (List.mem_cons_of_mem _ hf)
      exact ⟨hlog, by rw [hfs], hne⟩
  | failed _ _ => exact absurd (hall false (List.mem_cons_self ..)) (by simp)
  | connected _ => exact absurd (hall false (List.mem_cons_self ..)) (by simp)
  | @aborted i f fs as _ hf =>
      obtain rfl := hf (hall f (List.mem_cons_self ..))
      exact ⟨rfl, rfl, fun j h => nomatch h⟩

/-! ### A life of searches -/

/-- Between two searches: the flagged candidates are the first ones, and the log is that of their
attempts. -/
def Kept (max : Nat) (flags : List Bool) (log : List (Nat × Bool)) : Prop :=
  ∃ segs q, (∀ as ∈ segs, Settled max as) ∧ log = logOf 0 segs ∧
    flags = List.replicate segs.length true ++ List.replicate q false

/-- At any time, also after a search that was given up. -/
def Tried (max : Nat) (log : List (Nat × Bool)) : Prop :=
  ∃ segs, (∀ as ∈ segs, Begun max as) ∧ log = logOf 0 segs

theorem kept_start (max n : Nat) : Kept max (List.replicate n false) [] :=
  ⟨[], n, by simp, rfl, rfl⟩

theorem Kept.tried {flags : List Bool} {log : List (Nat × Bool)} (h : Kept max flags log) :
    Tried max log := by
  obtain ⟨segs, q, hsettled, hlog, -⟩ := h
  exact ⟨segs, fun as has => (hsettled as has).begun, hlog⟩

/-- The rule for one more search. -/
theorem Kept.pass {flags flags' : List Bool} {log new : List (Nat × Bool)} {o : Ending}
    (h : Kept max flags log) (hp : Pass max 0 flags new o flags') :
    Tried max (log ++ new) ∧ (o ≠ .aborted → Kept max flags' (log ++ new)) ∧
      (∀ j, o = .connected j → (log ++ new).getLast? = some (j, true)) ∧
      (o = .exhausted → flags' = List.replicate flags.length true) := by
  obtain ⟨old, q, hold, rfl, rfl⟩ := h
  obtain ⟨segs, hsegs, hend⟩ := hp.segments rfl
  have hboth : ∀ as ∈ old ++ segs, Settled max as := fun as has =>
    (List.mem_append.mp has).elim (hold as) (hsegs as)
  have hkept : ∀ r, new = logOf (0 + old.length) segs →
      flags' = List.replicate (old.length + segs.length) true ++ List.replicate r false →
      Kept max flags' (logOf 0 old ++ new) := by
    intro r hnew hflags
    refine ⟨old ++ segs, r, hboth, ?_, ?_⟩
    · rw [hnew, logOf_append]
    · rw [hflags, List.length_append]
  cases o with
  | aborted =>
      obtain ⟨as, has, hnew⟩ := hend
      refine ⟨⟨old ++ (segs ++ [as]), ?_, ?_⟩, fun h => absurd rfl h, (fun j h => nomatch h),
        (fun h => nomatch h)⟩
      case refine_2 => rw [hnew, logOf_append 0 old]
      intro bs hbs
      rw [← List.append_assoc, List.mem_append, List.mem_singleton] at hbs
      rcases hbs with hbs | rfl
      · exact (hboth bs hbs).begun
      · exact has
  | exhausted =>
      obtain ⟨hnew, hlen, hflags⟩ := hend
      have hk := hkept 0 hnew (by rw [hflags, hlen, List.replicate_zero, List.append_nil])
      refine ⟨hk.tried, fun _ => hk, (fun j h => nomatch h), fun _ => ?_⟩
      rw [hflags, List.length_append, List.length_replicate, List.length_replicate]
  | connected j =>
      obtain ⟨hnew, hlast, r, -, hflags⟩ := hend
      have hk := hkept r hnew hflags
      refine ⟨hk.tried, fun _ => hk, fun j' h => ?_, (fun h => nomatch h)⟩
      obtain rfl := Ending.connected.inj h
      rw [List.getLast?_append, hlast]
      rfl

theorem Tried.sorted_log {log : List (Nat × Bool)} (h : Tried max log) :
    log.Pairwise fun a b => a.1 ≤ b.1 := by
  obtain ⟨segs, -, rfl⟩ := h
  exact sorted_logOf 0 segs

theorem Tried.begun_attempts {log : List (Nat × Bool)} (h : Tried max log) (i : Nat) :
    Begun max (attempts i log) := by
  obtain ⟨segs, hsegs, rfl⟩ := h
  rw [attempts_logOf, if_pos (Nat.zero_le i), Nat.sub_zero]
  by_cases hi : i < segs.length
  · rw [List.getD_eq_getElem _ _ hi]
    exact hsegs _ (List.getElem_mem hi)
  · rw [List.getD_eq_default _ _ (Nat.le_of_not_lt hi)]
    exact begun_nil max

/-- A flagged candidate was tried to the end. -/
theorem Kept.settled_attempts {flags : List Bool} {log : List (Nat × Bool)}
    (h : Kept max flags log) {i : Nat} (hi : flags[i]? = some true) :
    Settled max (attempts i log) := by
  obtain ⟨segs, q, hsegs, rfl, rfl⟩ := h
  have hlt : i < segs.length := by
    by_contra hge
    rw [List.getElem?_append_right (by simpa using hge)] at hi
    have hmem := List.mem_of_getElem? hi
    exact absurd (List.eq_of_mem_replicate hmem) (by simp)
  rw [attempts_logOf, if_pos (Nat.zero_le i), Nat.sub_zero, List.getD_eq_getElem _ _ hlt]
  exact hsegs _ (List.getElem_mem hlt)

end Failover
