import GridPoolSv2.Lib.Visit

/-!
# Lib.Handler: what holds after a handler, whatever path it took

A handler changes a state, leaves notes behind and may fail; it is a function into
`Visit.Outcome`. `Leaves P Q R o` says what an outcome has to show for itself: its state
meets `P`, every note it left meets `Q`, and an error it ended with meets `R`. The rules
below follow the ways a handler is put together (nothing done, a failure, notes, one part
after another, a loop over keys, a part whose notes are held back), so a proof walks
through the handler and looks at the parts that do something.

The three predicates differ in what an error means. After `Leaves` the condition holds in any
case, after `Ends` only if the error is not final, and `Continues` also reads the notes. A
project chooses one for each invariant, and walks through its handlers once.
-/

namespace Handler

open Visit

variable {S N E K : Type*}

/-- Leave notes, and change nothing. -/
def say (notes : List N) (s : S) : Outcome S N E := ⟨s, notes, none⟩

@[simp] theorem say_value (notes : List N) (s : S) : (say notes s : Outcome S N E).value = s := rfl
@[simp] theorem say_notes (notes : List N) (s : S) :
    (say notes s : Outcome S N E).notes = notes := rfl
@[simp] theorem say_error (notes : List N) (s : S) :
    (say notes s : Outcome S N E).error = none := rfl

/-- Run a handler for every key until one fails. -/
def forEach (f : K → S → Outcome S N E) : List K → S → Outcome S N E
  | [], s => .keep s
  | k :: ks, s => (f k s).andThen (forEach f ks)

/-- A part that collects notes, and leaves them only when it did not fail, after those of `f`. -/
def collect (o : Outcome S N E) (f : S → Outcome S N E) : Outcome S N E :=
  match o.error with
  | some e => .fail o.value e
  | none => ⟨(f o.value).value, (f o.value).notes ++ o.notes, (f o.value).error⟩

theorem collect_eq_of_error {o : Outcome S N E} {f : S → Outcome S N E} {e : E}
    (h : o.error = some e) : collect o f = .fail o.value e := by
  simp only [collect, h]

theorem collect_eq_of_ok {o : Outcome S N E} {f : S → Outcome S N E} (h : o.error = none) :
    collect o f = ⟨(f o.value).value, (f o.value).notes ++ o.notes, (f o.value).error⟩ := by
  simp only [collect, h]

/-- The state of an outcome meets `P`, its notes meet `Q` and its error meets `R`. -/
structure Leaves (P : S → Prop) (Q : N → Prop) (R : E → Prop) (o : Outcome S N E) : Prop where
  value : P o.value
  notes : ∀ n ∈ o.notes, Q n
  error : ∀ e, o.error = some e → R e

section Rules

variable {P P' : S → Prop} {Q Q' : N → Prop} {R R' : E → Prop} {s : S} {o : Outcome S N E}
  {f : S → Outcome S N E}

theorem Leaves.keep (h : P s) : Leaves P Q R (.keep s) :=
  ⟨h, by simp, by simp⟩

theorem Leaves.fail {e : E} (h : P s) (he : R e) : Leaves P Q R (.fail s e) :=
  ⟨h, by simp, by simpa using he⟩

theorem Leaves.say {notes : List N} (h : P s) (hn : ∀ n ∈ notes, Q n) :
    Leaves P Q R (Handler.say notes s) :=
  ⟨h, hn, by simp⟩

theorem Leaves.mono (h : Leaves P Q R o) (hP : ∀ s, P s → P' s) (hQ : ∀ n, Q n → Q' n)
    (hR : ∀ e, R e → R' e) : Leaves P' Q' R' o :=
  ⟨hP _ h.value, fun n hn => hQ n (h.notes n hn), fun e he => hR e (h.error e he)⟩

/-- One part after another. The second part may use that the first one did not fail. -/
theorem Leaves.andThen (h : Leaves P Q R o)
    (hf : o.error = none → P o.value → Leaves P Q R (f o.value)) :
    Leaves P Q R (o.andThen f) := by
  cases he : o.error with
  | some e =>
      rw [Outcome.andThen_eq_of_error he]
      exact h
  | none =>
      rw [Outcome.andThen_eq_of_ok he]
      have hrest := hf he h.value
      refine ⟨hrest.value, fun n hn => ?_, hrest.error⟩
      rcases List.mem_append.mp hn with hn | hn
      · exact h.notes n hn
      · exact hrest.notes n hn

/-- One part after another that cannot fail: the two may end in different conditions. -/
theorem Leaves.andThen_of_ok (h : Leaves P' Q (fun _ => False) o)
    (hf : P' o.value → Leaves P Q R (f o.value)) : Leaves P Q R (o.andThen f) := by
  have hok : o.error = none := by
    cases he : o.error with
    | none => rfl
    | some e => exact (h.error e he).elim
  rw [Outcome.andThen_eq_of_ok hok]
  have hrest := hf h.value
  refine ⟨hrest.value, fun n hn => ?_, hrest.error⟩
  rcases List.mem_append.mp hn with hn | hn
  · exact h.notes n hn
  · exact hrest.notes n hn

/-- The loop rule for a condition that says which keys are left, and turns that cannot fail. -/
theorem Leaves.forEach_remaining {P : List K → S → Prop} {f : K → S → Outcome S N E} {ks : List K}
    (hf : ∀ k ks s, P (k :: ks) s → Leaves (P ks) Q (fun _ => False) (f k s)) (h : P ks s) :
    Leaves (P []) Q (fun _ => False) (Handler.forEach f ks s) := by
  induction ks generalizing s with
  | nil => exact .keep h
  | cons k ks ih => exact (hf k ks s h).andThen_of_ok fun hP => ih hP

/-- The loop rule: what every turn keeps, the loop keeps. -/
theorem Leaves.forEach {f : K → S → Outcome S N E} {ks : List K}
    (hf : ∀ k ∈ ks, ∀ s, P s → Leaves P Q R (f k s)) (h : P s) :
    Leaves P Q R (Handler.forEach f ks s) := by
  induction ks generalizing s with
  | nil => exact .keep h
  | cons k ks ih =>
      exact (hf k List.mem_cons_self s h).andThen fun _ hP =>
        ih (fun k' hk' => hf k' (List.mem_cons_of_mem _ hk')) hP

theorem Leaves.collect (h : Leaves P Q R o)
    (hf : o.error = none → P o.value → Leaves P Q R (f o.value)) :
    Leaves P Q R (Handler.collect o f) := by
  cases he : o.error with
  | some e =>
      rw [collect_eq_of_error he]
      exact .fail h.value (h.error e he)
  | none =>
      rw [collect_eq_of_ok he]
      have hrest := hf he h.value
      refine ⟨hrest.value, fun n hn => ?_, hrest.error⟩
      rcases List.mem_append.mp hn with hn | hn
      · exact hrest.notes n hn
      · exact h.notes n hn

end Rules

/-! ### Handlers that fail for good -/

/-- A handler that does not fail ends in `P`; one that fails does so for good, with an error in
`F`, and its state does not matter any more. -/
structure Ends (P : S → Prop) (F : E → Prop) (o : Outcome S N E) : Prop where
  value : o.error = none → P o.value
  error : ∀ e, o.error = some e → F e

section Ends

variable {P P' : S → Prop} {F : E → Prop} {s : S} {o : Outcome S N E} {f : S → Outcome S N E}

theorem Leaves.ends {Q : N → Prop} (h : Leaves P Q F o) : Ends P F o :=
  ⟨fun _ => h.value, h.error⟩

theorem Ends.mono (h : Ends P' F o) (hP : ∀ s, P' s → P s) : Ends P F o :=
  ⟨fun hn => hP _ (h.value hn), h.error⟩

theorem Ends.keep (h : P s) : Ends P F (.keep s : Outcome S N E) :=
  ⟨fun _ => h, by simp⟩

theorem Ends.say {notes : List N} (h : P s) : Ends P F (Handler.say notes s : Outcome S N E) :=
  ⟨fun _ => h, by simp⟩

theorem Ends.fail {e : E} (he : F e) : Ends P F (.fail s e : Outcome S N E) :=
  ⟨fun h => (by cases h), by simpa using he⟩

theorem Ends.andThen (h : Ends P' F o) (hf : P' o.value → Ends P F (f o.value)) :
    Ends P F (o.andThen f) := by
  cases he : o.error with
  | some e =>
      rw [Outcome.andThen_eq_of_error he]
      exact ⟨fun hn => (by rw [he] at hn; cases hn), h.error⟩
  | none =>
      rw [Outcome.andThen_eq_of_ok he]
      have hrest := hf (h.value he)
      exact ⟨hrest.value, hrest.error⟩

/-- The loop rule for a condition that says which keys are left. -/
theorem Ends.forEach {I : List K → S → Prop} {f : K → S → Outcome S N E} {ks : List K}
    (hf : ∀ k ks s, I (k :: ks) s → Ends (I ks) F (f k s)) (h : I ks s) :
    Ends (I []) F (Handler.forEach f ks s) := by
  induction ks generalizing s with
  | nil => exact .keep h
  | cons k ks ih => exact (hf k ks s h).andThen fun hI => ih hI

theorem Ends.collect (h : Ends P' F o) (hf : P' o.value → Ends P F (f o.value)) :
    Ends P F (Handler.collect o f) := by
  cases he : o.error with
  | some e =>
      rw [collect_eq_of_error he]
      exact .fail (h.error e he)
  | none =>
      rw [collect_eq_of_ok he]
      have hrest := hf (h.value he)
      exact ⟨hrest.value, hrest.error⟩

end Ends

/-! ### What was said so far -/

/-- An outcome without an error: its state, and its notes behind `ns`, meet `I`. -/
def Continues (I : S → List N → Prop) (ns : List N) (o : Outcome S N E) : Prop :=
  o.error = none ∧ I o.value (ns ++ o.notes)

section Continues

variable {I I' : S → List N → Prop} {ns : List N} {s : S} {o : Outcome S N E}
  {f : S → Outcome S N E}

theorem Continues.keep (h : I s ns) : Continues I ns (.keep s : Outcome S N E) :=
  ⟨rfl, by simpa using h⟩

theorem Continues.mono (h : Continues I' ns o) (hI : ∀ s ns, I' s ns → I s ns) :
    Continues I ns o :=
  ⟨h.1, hI _ _ h.2⟩

theorem Continues.andThen (h : Continues I' ns o)
    (hf : ∀ ns', I' o.value ns' → Continues I ns' (f o.value)) :
    Continues I ns (o.andThen f) := by
  rw [Outcome.andThen_eq_of_ok h.1]
  have hrest := hf _ h.2
  exact ⟨hrest.1, by simpa [List.append_assoc] using hrest.2⟩

/-- The loop rule for a condition on the keys that are left, the state and the notes so far. -/
theorem Continues.forEach {I : List K → S → List N → Prop} {f : K → S → Outcome S N E}
    {ks : List K} (hf : ∀ k ks s ns, I (k :: ks) s ns → Continues (I ks) ns (f k s))
    (h : I ks s ns) : Continues (I []) ns (Handler.forEach f ks s) := by
  induction ks generalizing s ns with
  | nil => exact .keep h
  | cons k ks ih => exact (hf k ks s ns h).andThen fun ns' hI => ih hI

end Continues

/-! ### How far a loop gets -/

/-- The keys a loop came to. It ends with the first turn that fails. -/
def reached (f : K → S → Outcome S N E) : List K → S → List K
  | [], _ => []
  | k :: ks, s => k :: if (f k s).error.isNone then reached f ks (f k s).value else []

/-- No turn of a loop fails, except for the last one. -/
def FailsLast (f : K → S → Outcome S N E) : List K → S → Prop
  | [], _ | [_], _ => True
  | k :: k' :: ks, s => (f k s).error.isNone ∧ FailsLast f (k' :: ks) (f k s).value

instance decidableFailsLast (f : K → S → Outcome S N E) :
    ∀ (ks : List K) (s : S), Decidable (FailsLast f ks s)
  | [], _ | [_], _ => isTrue trivial
  | k :: k' :: ks, s =>
      have : Decidable (FailsLast f (k' :: ks) (f k s).value) := decidableFailsLast f _ _
      inferInstanceAs (Decidable (_ ∧ _))

theorem reached_prefix (f : K → S → Outcome S N E) (ks : List K) (s : S) :
    reached f ks s <+: ks := by
  induction ks generalizing s with
  | nil => exact List.prefix_rfl
  | cons k ks ih =>
      rw [reached, List.prefix_cons_inj]
      split
      · exact ih _
      · exact List.nil_prefix

/-- A loop comes to every key exactly when no turn fails before the last one. -/
theorem reached_eq_iff {f : K → S → Outcome S N E} {ks : List K} {s : S} :
    reached f ks s = ks ↔ FailsLast f ks s := by
  induction ks generalizing s with
  | nil => simp [reached, FailsLast]
  | cons k ks ih =>
      cases ks with
      | nil => simp [reached, FailsLast]
      | cons k' ks =>
          rw [reached, FailsLast, List.cons_inj_right]
          by_cases hok : (f k s).error.isNone = true
          · rw [if_pos hok, ih]
            exact (and_iff_right hok).symm
          · rw [if_neg hok]
            simp [hok]

/-- The turns of a loop: each key the loop came to, with the state its turn began in. -/
def turns (f : K → S → Outcome S N E) : List K → S → List (K × S)
  | [], _ => []
  | k :: ks, s => (k, s) :: if (f k s).error.isNone then turns f ks (f k s).value else []

/-- What every turn keeps holds where every turn begins. -/
theorem of_mem_turns {P : S → Prop} {f : K → S → Outcome S N E} {ks : List K} {s : S}
    (hf : ∀ k s, P s → P (f k s).value) (h : P s) {turn : K × S} (hmem : turn ∈ turns f ks s) :
    P turn.2 := by
  induction ks generalizing s with
  | nil => cases hmem
  | cons k ks ih =>
      rcases List.mem_cons.mp hmem with rfl | hmem
      · exact h
      · split at hmem
        · exact ih (hf k s h) hmem
        · cases hmem

end Handler
