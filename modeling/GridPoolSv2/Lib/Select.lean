import Mathlib.Data.Fintype.Defs
import Mathlib.Logic.Function.Basic
import GridPoolSv2.Lib.Runs

/-!
# Lib.Select: a loop around a biased select

One task runs a loop; every iteration is a **biased select** over branches. The future of
a branch takes a message from the branch's receiver and then runs the handler of the
message, which may have to wait for an answer from outside. A poll goes through the
branches in their order and stops at the first future that completes; the futures of all
the others are dropped where they stand, and the next iteration makes new ones.

So a message is in one of three places: in the queue of its receiver, **in hand** of a
future that waits, or handled. What a dropped future had in hand is in none of them.
`Undisturbed` is the condition, on the branches before a poll, under which the poll drops
nothing (`undisturbed_iff`); along a run whose polls all meet it, every message that was
taken is handled or in hand (`exec_kept`).

A handler changes the shared state only when it completes, in one piece. Other tasks may
change the state between the polls.
-/

namespace Select

open Function (update)

/-! ### One branch -/

/-- A branch: its receiver and the future of the current iteration. `taken` lists, as a
**ghost**, every message that ever left the queue. -/
structure Branch (μ : Type*) where
  queue : List μ
  /-- No sender is left. -/
  closed : Bool
  inHand : Option μ
  taken : List μ

namespace Branch

variable {μ : Type*}

def empty : Branch μ := ⟨[], false, none, []⟩

section Poll

-- `awaits m`: the handler of `m` has to wait for an answer; `ready`: the answer is there
variable (awaits : μ → Bool) (ready : Bool) (b : Branch μ)

/-- The future of the branch completes when it is polled. -/
def completes : Bool :=
  match b.inHand, b.queue with
  | some _, _ => ready
  | none, [] => b.closed
  | none, m :: _ => ready || !awaits m

/-- The future of the branch is left waiting when it is polled, with a message in hand. -/
def waits : Bool :=
  match b.inHand, b.queue with
  | some _, _ => !ready
  | none, [] => false
  | none, m :: _ => awaits m && !ready

/-- Poll the future of a branch: `none` when it is pending, else the message it has
handled. At a closed receiver it completes without one. -/
def poll : Branch μ × Option (Option μ) :=
  match b.inHand, b.queue with
  | some m, _ => if ready then ({ b with inHand := none }, some (some m)) else (b, none)
  | none, [] => (b, if b.closed then some none else none)
  | none, m :: rest =>
      if awaits m && !ready then
        ({ b with queue := rest, inHand := some m, taken := b.taken ++ [m] }, none)
      else ({ b with queue := rest, taken := b.taken ++ [m] }, some (some m))

end Poll

/-- Every message taken so far is in `done` or in hand. -/
def Accounted (done : List μ) (b : Branch μ) : Prop :=
  b.taken = done ++ b.inHand.toList

variable {awaits : μ → Bool} {ready : Bool} {b : Branch μ}

theorem poll_complete (h : b.completes awaits ready = true) :
    ∃ b' m, b.poll awaits ready = (b', some m) ∧ b'.inHand = none ∧
      (b.inHand.isSome → m = b.inHand) ∧
      ∀ done, b.Accounted done → b'.Accounted (done ++ m.toList) := by
  cases hhand : b.inHand with
  | some m =>
      have hready : ready = true := by simpa [completes, hhand] using h
      refine ⟨{ b with inHand := none }, some m, by simp [poll, hhand, hready], rfl, by simp, ?_⟩
      intro done hdone
      simpa [Accounted, hhand] using hdone
  | none =>
      cases hqueue : b.queue with
      | nil =>
          have hclosed : b.closed = true := by simpa [completes, hhand, hqueue] using h
          refine ⟨b, none, by simp [poll, hhand, hqueue, hclosed], hhand, by simp, ?_⟩
          intro done hdone
          simpa using hdone
      | cons m rest =>
          have hnow : (awaits m && !ready) = false := by
            cases ha : awaits m <;> cases hr : ready <;> simp_all [completes]
          refine ⟨{ b with queue := rest, taken := b.taken ++ [m] }, some m,
            by simp [poll, hhand, hqueue, hnow], hhand, by simp, ?_⟩
          intro done hdone
          simpa [Accounted, hhand] using hdone

/-- A future that waits keeps its message, and goes on waiting. -/
theorem poll_wait (h : b.waits awaits ready = true) :
    ∃ b', b.poll awaits ready = (b', none) ∧ b'.waits awaits ready = true ∧
      b'.inHand.isSome = true ∧ ∀ done, b.Accounted done → b'.Accounted done := by
  cases hhand : b.inHand with
  | some m =>
      have hready : ready = false := by simpa [waits, hhand] using h
      exact ⟨b, by simp [poll, hhand, hready], h, by simp [hhand], fun _ hdone => hdone⟩
  | none =>
      cases hqueue : b.queue with
      | nil => simp [waits, hhand, hqueue] at h
      | cons m rest =>
          have hwait : (awaits m && !ready) = true := by simpa [waits, hhand, hqueue] using h
          refine ⟨{ b with queue := rest, inHand := some m, taken := b.taken ++ [m] },
            by simp [poll, hhand, hqueue, hwait], ?_, rfl, ?_⟩
          · simp_all [waits]
          · intro done hdone
            simpa [Accounted, hhand] using hdone

/-- Any other future waits for a message. -/
theorem poll_idle (hc : b.completes awaits ready = false) (hw : b.waits awaits ready = false) :
    b.poll awaits ready = (b, none) ∧ b.inHand = none := by
  cases hhand : b.inHand with
  | some m => simp_all [completes, waits]
  | none =>
      cases hqueue : b.queue with
      | nil =>
          have hclosed : b.closed = false := by simpa [completes, hhand, hqueue] using hc
          exact ⟨by simp [poll, hhand, hqueue, hclosed], rfl⟩
      | cons m rest => cases ha : awaits m <;> cases hr : ready <;> simp_all [completes, waits]

theorem not_completes_of_waits (h : b.waits awaits ready = true) :
    b.completes awaits ready = false := by
  cases hhand : b.inHand with
  | some m => simpa [waits, completes, hhand] using h
  | none =>
      cases hqueue : b.queue with
      | nil => simp [waits, hhand, hqueue] at h
      | cons m rest => simp_all [waits, completes]

/-- A future that does not complete stays so, and accounts for what it takes. -/
theorem poll_pending (hc : b.completes awaits ready = false) :
    ∃ b', b.poll awaits ready = (b', none) ∧ b'.completes awaits ready = false ∧
      ∀ done, b.Accounted done → b'.Accounted done := by
  cases hw : b.waits awaits ready with
  | true =>
      obtain ⟨b', hpoll, hwaits, -, hdone⟩ := poll_wait hw
      exact ⟨b', hpoll, not_completes_of_waits hwaits, hdone⟩
  | false => exact ⟨b, (poll_idle hc hw).1, hc, fun _ hdone => hdone⟩

end Branch

/-! ### A poll of the select -/

section Branches

variable {ι : Type*} [DecidableEq ι] {μ : ι → Type*}

section Poll

variable (awaits : (i : ι) → μ i → Bool) (ready : ι → Bool)

/-- Poll the branches in order, up to the first that completes. -/
def pollAll : List ι → ((i : ι) → Branch (μ i)) →
    ((i : ι) → Branch (μ i)) × Option ((i : ι) × Option (μ i))
  | [], bs => (bs, none)
  | i :: is, bs =>
      match (bs i).poll (awaits i) (ready i) with
      | (b, some m) => (update bs i b, some ⟨i, m⟩)
      | (b, none) => pollAll is (update bs i b)

/-- The poll drops no message: when it reaches a branch that completes, no other branch has a
message in hand; when it leaves a branch waiting, no later branch completes. -/
def Undisturbed (bs : (i : ι) → Branch (μ i)) : List ι → Prop
  | [] => True
  | i :: is =>
      if (bs i).completes (awaits i) (ready i) then ∀ j, j ≠ i → (bs j).inHand.isNone
      else if (bs i).waits (awaits i) (ready i) then
        ∀ j ∈ is, (bs j).completes (awaits j) (ready j) = false
      else Undisturbed bs is

instance decidableUndisturbed [Fintype ι] (bs : (i : ι) → Branch (μ i)) :
    ∀ is : List ι, Decidable (Undisturbed awaits ready bs is)
  | [] => isTrue trivial
  | i :: is =>
      have : Decidable (Undisturbed awaits ready bs is) := decidableUndisturbed bs is
      inferInstanceAs (Decidable
        (if (bs i).completes (awaits i) (ready i) then ∀ j, j ≠ i → (bs j).inHand.isNone
        else if (bs i).waits (awaits i) (ready i) then
          ∀ j ∈ is, (bs j).completes (awaits j) (ready j) = false
        else Undisturbed awaits ready bs is))

end Poll

variable {awaits : (i : ι) → μ i → Bool} {ready : ι → Bool} {bs : (i : ι) → Branch (μ i)}

/-- What each branch has taken is handled or in hand after a poll, if it was before. -/
theorem pollAll_accounted (is : List ι) {done : (i : ι) → List (μ i)}
    (h : ∀ i, (bs i).Accounted (done i)) :
    match pollAll awaits ready is bs with
    | (bs', none) => ∀ i, (bs' i).Accounted (done i)
    | (bs', some ⟨i, m⟩) =>
        ∀ j, (bs' j).Accounted (update done i (done i ++ m.toList) j) := by
  induction is generalizing bs with
  | nil => exact h
  | cons i is ih =>
      cases hc : (bs i).completes (awaits i) (ready i) with
      | true =>
          obtain ⟨b, m, hpoll, -, -, hdone⟩ := Branch.poll_complete hc
          simp only [pollAll, hpoll]
          intro j
          by_cases hji : j = i
          · subst hji
            simpa using hdone _ (h j)
          · simpa [hji] using h j
      | false =>
          obtain ⟨b, hpoll, -, hdone⟩ := Branch.poll_pending hc
          simp only [pollAll, hpoll]
          apply ih
          intro j
          by_cases hji : j = i
          · subst hji
            simpa using hdone _ (h j)
          · simpa [hji] using h j

/-- A poll is pending when no branch completes. -/
theorem pollAll_pending {is : List ι}
    (h : ∀ j ∈ is, (bs j).completes (awaits j) (ready j) = false) :
    (pollAll awaits ready is bs).2 = none := by
  induction is generalizing bs with
  | nil => rfl
  | cons i is ih =>
      obtain ⟨b, hpoll, hb, -⟩ := Branch.poll_pending (h i List.mem_cons_self)
      simp only [pollAll, hpoll]
      apply ih
      intro j hj
      by_cases hji : j = i
      · subst hji
        simpa using hb
      · simpa [hji] using h j (List.mem_cons_of_mem i hj)

/-- A poll stops at a branch that completes, if none before it does. -/
theorem pollAll_complete {is : List ι} {j : ι} (hj : j ∈ is)
    (h : (bs j).completes (awaits j) (ready j) = true) :
    (pollAll awaits ready is bs).2.isSome = true := by
  induction is generalizing bs with
  | nil => simp at hj
  | cons i is ih =>
      cases hc : (bs i).completes (awaits i) (ready i) with
      | true =>
          obtain ⟨b, m, hpoll, -⟩ := Branch.poll_complete hc
          simp [pollAll, hpoll]
      | false =>
          obtain ⟨b, hpoll, -, -⟩ := Branch.poll_pending hc
          have hji : j ≠ i := by
            rintro rfl
            simp [hc] at h
          simp only [pollAll, hpoll]
          exact ih ((List.mem_cons.mp hj).resolve_left hji) (by simpa [hji] using h)

/-- A message in hand of a waiting future stays there. -/
theorem pollAll_waiting (is : List ι) {i : ι} (hw : (bs i).waits (awaits i) (ready i) = true)
    (hhand : (bs i).inHand.isSome = true) :
    ((pollAll awaits ready is bs).1 i).inHand.isSome = true := by
  induction is generalizing bs with
  | nil => exact hhand
  | cons k is ih =>
      by_cases hki : i = k
      · subst hki
        obtain ⟨b, hpoll, hwaits, hb, -⟩ := Branch.poll_wait hw
        simp only [pollAll, hpoll]
        exact ih (by simpa using hwaits) (by simpa using hb)
      · cases hc : (bs k).completes (awaits k) (ready k) with
        | true =>
            obtain ⟨b, m, hpoll, -⟩ := Branch.poll_complete hc
            simpa [pollAll, hpoll, hki] using hhand
        | false =>
            obtain ⟨b, hpoll, -⟩ := Branch.poll_pending hc
            simp only [pollAll, hpoll]
            exact ih (by simpa [hki] using hw) (by simpa [hki] using hhand)

/-- `Undisturbed` says exactly that a poll that completes leaves no message in hand. -/
theorem undisturbed_iff (is : List ι) :
    Undisturbed awaits ready bs is ↔
      ((pollAll awaits ready is bs).2.isSome = true →
        ∀ j, ((pollAll awaits ready is bs).1 j).inHand = none) := by
  induction is with
  | nil => simp [Undisturbed, pollAll]
  | cons i is ih =>
      cases hc : (bs i).completes (awaits i) (ready i) with
      | true =>
          obtain ⟨b, m, hpoll, hb, -⟩ := Branch.poll_complete hc
          simp only [Undisturbed, hc, if_true, pollAll, hpoll, Option.isSome_some, true_implies,
            Option.isNone_iff_eq_none]
          constructor
          · intro h j
            by_cases hji : j = i
            · subst hji
              simpa using hb
            · simpa [hji] using h j hji
          · intro h j hji
            simpa [hji] using h j
      | false =>
          cases hw : (bs i).waits (awaits i) (ready i) with
          | true =>
              obtain ⟨b, hpoll, hwaits, hhand, -⟩ := Branch.poll_wait hw
              have hstays : ((pollAll awaits ready is (update bs i b)).1 i).inHand.isSome = true :=
                pollAll_waiting is (by simpa using hwaits) (by simpa using hhand)
              simp only [Undisturbed, hc, hw, if_true, pollAll, hpoll]
              constructor
              · intro h hsome
                have hnone : (pollAll awaits ready is (update bs i b)).2 = none := by
                  apply pollAll_pending
                  intro j hj
                  by_cases hji : j = i
                  · subst hji
                    simpa using Branch.not_completes_of_waits hwaits
                  · simpa [hji] using h j hj
                simp [hnone] at hsome
              · intro h j hj
                by_contra hcj
                have hji : j ≠ i := by
                  rintro rfl
                  exact hcj hc
                have hsome : (pollAll awaits ready is (update bs i b)).2.isSome = true :=
                  pollAll_complete hj (by simpa [hji] using hcj)
                simp [h hsome i] at hstays
          | false =>
              have hpoll := (Branch.poll_idle hc hw).1
              simpa [Undisturbed, hc, hw, pollAll, hpoll] using ih

/-- A message in hand whose answer is there is handled by an undisturbed poll. -/
theorem pollAll_answered {is : List ι} (hu : Undisturbed awaits ready bs is) {i : ι} (hi : i ∈ is)
    {m : μ i} (hhand : (bs i).inHand = some m) (hready : ready i = true) :
    (pollAll awaits ready is bs).2 = some ⟨i, some m⟩ := by
  have hcompletes : (bs i).completes (awaits i) (ready i) = true := by
    simpa [Branch.completes, hhand] using hready
  induction is with
  | nil => simp at hi
  | cons k is ih =>
      by_cases hki : k = i
      · subst hki
        obtain ⟨b, m', hpoll, -, hm, -⟩ := Branch.poll_complete hcompletes
        have hm' : m' = some m := by simpa [hhand] using hm
        simp [pollAll, hpoll, hm']
      · have hi : i ∈ is := (List.mem_cons.mp hi).resolve_left (Ne.symm hki)
        simp only [Undisturbed] at hu
        split at hu
        · have hnone := hu i (Ne.symm hki)
          simp [hhand] at hnone
        · next hc =>
            split at hu
            · have hnot := hu i hi
              simp [hcompletes] at hnot
            · next hw =>
                have hpoll := (Branch.poll_idle (Bool.eq_false_iff.mpr hc)
                  (Bool.eq_false_iff.mpr hw)).1
                simpa [pollAll, hpoll] using ih hu hi

end Branches

/-! ### The loop -/

/-- What a loop is built from. `φ` are the changes that other tasks make to the shared state, and
`ω` is everything that a handler is answered or reads from outside. -/
structure Component (ι : Type*) (μ : ι → Type*) (σ ω φ : Type*) where
  /-- The branches, in the order in which they are polled. -/
  order : List ι
  enabled : σ → ι → Bool
  awaits : σ → (i : ι) → μ i → Bool
  handle : σ → (i : ι) → μ i → ω → σ
  outside : σ → φ → σ
  /-- The loop is not asked to stop. -/
  running : σ → Bool
  running_of_outside : ∀ s f, running (outside s f) = true → running s = true

/-- What was done to the shared state. -/
inductive Performed (ι : Type*) (μ : ι → Type*) (ω φ : Type*) where
  | handled (i : ι) (m : μ i) (w : ω)
  | outside (f : φ)

/-- The loop, with what was performed so far as a **ghost**. -/
structure Loop (ι : Type*) (μ : ι → Type*) (σ ω φ : Type*) where
  state : σ
  branches : (i : ι) → Branch (μ i)
  performed : List (Performed ι μ ω φ)

inductive Event (ι : Type*) (μ : ι → Type*) (ω φ : Type*) where
  /-- A message is put into the receiver of a branch. -/
  | send (i : ι) (m : μ i)
  | close (i : ι)
  /-- The task is polled, with the answers that are there. -/
  | poll (ready : ι → Bool) (w : ω)
  | outside (f : φ)

variable {ι : Type*} [DecidableEq ι] {μ : ι → Type*} {σ ω φ : Type*}

/-- The loop in front of its first iteration. -/
def Loop.initial (s : σ) : Loop ι μ σ ω φ := ⟨s, fun _ => .empty, []⟩

/-- The messages of a branch among what was performed. -/
def handledAt (i : ι) (ps : List (Performed ι μ ω φ)) : List (μ i) :=
  ps.filterMap fun
    | .handled j m _ => if h : j = i then some (h ▸ m) else none
    | .outside _ => none

namespace Component

variable (c : Component ι μ σ ω φ)

/-- The branches a poll goes through. -/
def polled (s : σ) : List ι := c.order.filter (c.enabled s)

/-- The effect of what was performed. -/
def perform (s : σ) : Performed ι μ ω φ → σ
  | .handled i m w => c.handle s i m w
  | .outside f => c.outside s f

def step (l : Loop ι μ σ ω φ) : Event ι μ ω φ → Loop ι μ σ ω φ
  | .send i m =>
      let b := l.branches i
      { l with branches := update l.branches i { b with queue := b.queue ++ [m] } }
  | .close i => { l with branches := update l.branches i { l.branches i with closed := true } }
  | .outside f =>
      { l with state := c.outside l.state f, performed := l.performed ++ [.outside f] }
  | .poll ready w =>
      if c.running l.state then
        match pollAll (c.awaits l.state) ready (c.polled l.state) l.branches with
        | (bs, none) => { l with branches := bs }
        | (bs, some ⟨_, none⟩) =>
            { l with branches := fun i => { bs i with inHand := none } }
        | (bs, some ⟨i, some m⟩) =>
            { state := c.handle l.state i m w
              branches := fun i => { bs i with inHand := none }
              performed := l.performed ++ [.handled i m w] }
      else
        -- the loop ends
        { l with branches := fun i => { l.branches i with inHand := none } }

/-- The condition on one event: a poll drops nothing. -/
def Steady (l : Loop ι μ σ ω φ) : Event ι μ ω φ → Prop
  | .poll ready _ =>
      c.running l.state = true →
        Undisturbed (c.awaits l.state) ready l.branches (c.polled l.state)
  | _ => True

instance decidableSteady [Fintype ι] (l : Loop ι μ σ ω φ) :
    ∀ e : Event ι μ ω φ, Decidable (c.Steady l e)
  | .poll ready _ =>
      inferInstanceAs (Decidable (c.running l.state = true →
        Undisturbed (c.awaits l.state) ready l.branches (c.polled l.state)))
  | .send _ _ | .close _ | .outside _ => isTrue trivial

/-- Every message that was taken is handled or in hand. -/
def Kept (l : Loop ι μ σ ω φ) : Prop :=
  ∀ i, (l.branches i).Accounted (handledAt i l.performed)

/-- A message that is handled counts for its branch. -/
theorem handledAt_handled (i j : ι) (m : μ j) (w : ω) (ps : List (Performed ι μ ω φ)) :
    handledAt i (ps ++ [.handled j m w]) =
      update (fun i => handledAt i ps) j (handledAt j ps ++ [m]) i := by
  by_cases hij : i = j
  · subst hij
    simp [handledAt, List.filterMap_append]
  · simp [handledAt, List.filterMap_append, hij, Ne.symm hij]

theorem handledAt_outside (i : ι) (f : φ) (ps : List (Performed ι μ ω φ)) :
    handledAt i (ps ++ [.outside f]) = handledAt i ps := by
  simp [handledAt, List.filterMap_append]

/-- A poll that drops nothing keeps every message. -/
theorem poll_kept {l : Loop ι μ σ ω φ} (hkept : Kept l) (ready : ι → Bool) (w : ω)
    (hrunning : c.running l.state = true)
    (hu : Undisturbed (c.awaits l.state) ready l.branches (c.polled l.state)) :
    Kept (c.step l (.poll ready w)) := by
  have hnone := (undisturbed_iff _).mp hu
  simp only [step, hrunning, if_true]
  cases hpoll : pollAll (c.awaits l.state) ready (c.polled l.state) l.branches with
  | mk bs r =>
      have haccounted := hpoll ▸ pollAll_accounted (c.polled l.state) hkept
      rw [hpoll] at hnone
      cases r with
      | none => exact haccounted
      | some done =>
          obtain ⟨i, m⟩ := done
          have hempty : ∀ j, (bs j).inHand = none := hnone rfl
          cases m with
          | none =>
              intro j
              simpa [Branch.Accounted, hempty j] using haccounted j
          | some m =>
              intro j
              simpa [Branch.Accounted, hempty j, handledAt_handled] using haccounted j

/-- One steady event keeps every message while the loop runs. -/
theorem step_kept {l : Loop ι μ σ ω φ} {e : Event ι μ ω φ}
    (hkept : c.running l.state = true → Kept l) (he : c.Steady l e)
    (hrunning : c.running (c.step l e).state = true) : Kept (c.step l e) := by
  cases e with
  | send i m =>
      intro j
      have hj := hkept hrunning j
      by_cases hji : j = i
      · subst hji
        simpa [step, Branch.Accounted] using hj
      · simpa [step, Branch.Accounted, hji] using hj
  | close i =>
      intro j
      have hj := hkept hrunning j
      by_cases hji : j = i
      · subst hji
        simpa [step, Branch.Accounted] using hj
      · simpa [step, Branch.Accounted, hji] using hj
  | outside f =>
      intro j
      have hj := hkept (c.running_of_outside _ _ hrunning) j
      simpa [step, Branch.Accounted, handledAt_outside] using hj
  | poll ready w =>
      by_cases hbefore : c.running l.state = true
      · exact c.poll_kept (hkept hbefore) ready w hbefore (he hbefore)
      · simp [step, hbefore] at hrunning

/-- Every taken message is handled or in hand, after every run whose polls drop nothing. -/
theorem exec_kept (s : σ) {es : List (Event ι μ ω φ)}
    (hes : Runs.Along c.step c.Steady (Loop.initial s) es) :
    c.running (Runs.exec c.step (Loop.initial s) es).state = true →
      Kept (Runs.exec c.step (Loop.initial s) es) := by
  refine Runs.exec_induct (I := fun l => c.running l.state = true → Kept l)
    (fun l e hl he => c.step_kept hl he) ?_ hes
  intro _ i
  rfl

/-- The shared state is the result of what was performed, on every run. -/
theorem exec_state (s : σ) (es : List (Event ι μ ω φ)) :
    (Runs.exec c.step (Loop.initial s) es).state =
      Runs.exec c.perform s (Runs.exec c.step (Loop.initial s) es).performed := by
  refine Runs.exec_invariant (I := fun l : Loop ι μ σ ω φ =>
    l.state = Runs.exec c.perform s l.performed) (fun l e hl => ?_) rfl es
  cases e with
  | send i m => exact hl
  | close i => exact hl
  | outside f => simp [step, Runs.exec_append, ← hl, perform]
  | poll ready w =>
      simp only [step]
      split
      · split
        · exact hl
        · exact hl
        · simp [Runs.exec_append, ← hl, perform]
      · exact hl

/-- A message in hand is handled by the first steady poll that finds its answer. -/
theorem step_answered {l : Loop ι μ σ ω φ} {ready : ι → Bool} {w : ω}
    (hrunning : c.running l.state = true) (he : c.Steady l (.poll ready w)) {i : ι}
    (hi : i ∈ c.polled l.state) {m : μ i} (hhand : (l.branches i).inHand = some m)
    (hready : ready i = true) :
    (c.step l (.poll ready w)).performed = l.performed ++ [.handled i m w] := by
  have hdone := pollAll_answered (he hrunning) hi hhand hready
  simp only [step, hrunning, if_true]
  cases hpoll : pollAll (c.awaits l.state) ready (c.polled l.state) l.branches with
  | mk bs r =>
      rw [hpoll] at hdone
      cases hdone
      rfl

end Component

end Select
