import GridPoolSv2.Lib.Runs
import Mathlib.Data.List.TakeDrop

/-!
# StratumApps.FallbackCoordinator: waiting for the components of an old upstream

The model of `stratum-apps/src/fallback_coordinator.rs`. A component registers a handler and
calls `done` on it when its cleanup is over; the main loop calls
`trigger_fallback_and_wait` and starts the components of the new upstream when it returns.

* Handlers and calls are tasks: each event takes **one atomic step** of one of them, so a
  run is any interleaving. A component may also cancel the token itself, and register at
  any time.
* `permit` is what tokio's `Notify` keeps: `notify_one` stores at most one permit and the
  next `notified().await` takes it.
* `before` is a **ghost** field: how many handlers were registered when a call began.

The last `done` notifies whether or not somebody waits, and a call that finds the counter at
zero returns without taking the permit. A permit can therefore outlast the components it
stands for, and a later call takes it for its own. `coordinated_exec` says that nothing else
goes wrong.
-/

namespace GridPoolSv2.StratumApps

open Runs (exec Along)

/-- How far `FallbackHandler::done` has come for a handler. -/
inductive HandlerPhase where
  /-- `done` has not been called. -/
  | registered
  /-- The flag is set. -/
  | called
  /-- `fetch_sub` has returned `prev`. -/
  | counted (prev : Nat)
  /-- The token was cancelled and this is the last handler. -/
  | notifying
  | finished
  deriving Repr, DecidableEq

namespace HandlerPhase

/-- The component has called `done`. -/
def DoneCalled (p : HandlerPhase) : Prop := p ≠ .registered

/-- The counter still counts the handler. -/
def counts : HandlerPhase → Bool
  | .registered | .called => true
  | _ => false

/-- The handler is going to notify, once the token is cancelled. -/
def Due (p : HandlerPhase) : Prop := p = .counted 1 ∨ p = .notifying

/-- The steps of `done` that a handler has left. -/
def stepsLeft : HandlerPhase → Nat
  | .registered => 4
  | .called => 3
  | .counted _ => 2
  | .notifying => 1
  | .finished => 0

instance (p : HandlerPhase) : Decidable p.DoneCalled := inferInstanceAs (Decidable (p ≠ _))

instance (p : HandlerPhase) : Decidable p.Due := inferInstanceAs (Decidable (_ ∨ _))

end HandlerPhase

/-- How far a call of `trigger_fallback_and_wait` has come. -/
inductive CallPhase where
  | called
  /-- The token is cancelled. -/
  | signalled
  /-- The counter was not zero: `notified().await`. -/
  | waiting
  | returned
  deriving Repr, DecidableEq

/-- A call of `trigger_fallback_and_wait`. -/
structure Call where
  before : Nat
  phase : CallPhase := .called
  deriving Repr, DecidableEq

/-- `FallbackCoordinator`, with its handlers and the calls that wait for them. -/
structure FallbackCoordinator where
  /-- The cancellation token is cancelled. -/
  signal : Bool := false
  pendingTasks : Nat := 0
  permit : Bool := false
  handlers : List HandlerPhase := []
  calls : List Call := []
  deriving Repr, DecidableEq

namespace FallbackCoordinator

/-- `register`. -/
def register (s : FallbackCoordinator) : FallbackCoordinator :=
  { s with pendingTasks := s.pendingTasks + 1, handlers := s.handlers ++ [.registered] }

@[simp] theorem register_handlers (s : FallbackCoordinator) :
    s.register.handlers = s.handlers ++ [.registered] := rfl

/-- Handler `i` goes on to phase `p`. -/
def setHandler (s : FallbackCoordinator) (i : Nat) (p : HandlerPhase) : FallbackCoordinator :=
  { s with handlers := s.handlers.set i p }

/-- The next step of `FallbackHandler::done`. -/
def done (s : FallbackCoordinator) (i : Nat) : FallbackCoordinator :=
  match s.handlers[i]? with
  | some .registered => s.setHandler i .called
  | some .called =>
      { s with pendingTasks := s.pendingTasks - 1 }.setHandler i (.counted s.pendingTasks)
  | some (.counted prev) =>
      s.setHandler i (if s.signal && prev == 1 then .notifying else .finished)
  | some .notifying => { s with permit := true }.setHandler i .finished
  | some .finished | none => s

/-- A call begins. -/
def trigger (s : FallbackCoordinator) : FallbackCoordinator :=
  { s with calls := s.calls ++ [{ before := s.handlers.length }] }

/-- Call `i` goes on to phase `p`. -/
def setCall (s : FallbackCoordinator) (i : Nat) (c : Call) (p : CallPhase) : FallbackCoordinator :=
  { s with calls := s.calls.set i { c with phase := p } }

/-- The next step of call `c`, the `i`-th one. -/
def advance (s : FallbackCoordinator) (i : Nat) (c : Call) : FallbackCoordinator :=
  match c.phase with
  | .called => { s with signal := true }.setCall i c .signalled
  | .signalled => s.setCall i c (if s.pendingTasks = 0 then .returned else .waiting)
  | .waiting => if s.permit then { s with permit := false }.setCall i c .returned else s
  | .returned => s

/-- What can happen next. -/
inductive Event where
  | register
  | done (i : Nat)
  /-- A component cancels the token. -/
  | cancel
  | trigger
  | advance (i : Nat)
  deriving Repr, DecidableEq

def step (s : FallbackCoordinator) : Event → FallbackCoordinator
  | .register => s.register
  | .done i => s.done i
  | .cancel => { s with signal := true }
  | .trigger => s.trigger
  | .advance i =>
      match s.calls[i]? with
      | none => s
      | some c => s.advance i c

/-! ### The property -/

/-- Every handler registered before the call has called `done`. -/
def Acknowledged (s : FallbackCoordinator) (c : Call) : Prop :=
  ∀ p ∈ s.handlers.take c.before, p.DoneCalled

/-- The steps of handlers and of call `i`. -/
def Progress (i : Nat) : Event → Prop
  | .done _ => True
  | .advance j => j = i
  | _ => False

/-- Steps of `done` and of the call lead to its return. -/
def CanReturn (s : FallbackCoordinator) (i : Nat) : Prop :=
  ∃ es, (∀ e ∈ es, Progress i e) ∧ ∃ c, (exec step s es).calls[i]? = some c ∧ c.phase = .returned

/-- A call that has returned has been acknowledged by the handlers before it, and a call whose
handlers have all called `done` can return. -/
structure Coordinated (s : FallbackCoordinator) : Prop where
  acknowledged : ∀ c ∈ s.calls, c.phase = .returned → s.Acknowledged c
  canReturn : (∀ p ∈ s.handlers, p.DoneCalled) → ∀ i < s.calls.length, s.CanReturn i

/-- No permit is left and no `done` is going to store one. -/
def Quiet (s : FallbackCoordinator) : Prop :=
  s.permit = false ∧ ∀ p ∈ s.handlers, ¬p.Due

/-- The condition on a step: a call that begins to wait waits alone, and nobody's notification is
left unless the handlers before the call are done anyway. -/
def WaitsAfresh (s : FallbackCoordinator) : Event → Prop
  | .advance i => ∀ c ∈ s.calls[i]?, c.phase = .signalled → s.pendingTasks ≠ 0 →
      (∀ other ∈ s.calls, other.phase ≠ .waiting) ∧ (s.Acknowledged c ∨ s.Quiet)
  | _ => True

instance (s : FallbackCoordinator) (c : Call) : Decidable (s.Acknowledged c) :=
  inferInstanceAs (Decidable (∀ p ∈ s.handlers.take c.before, p.DoneCalled))

instance (s : FallbackCoordinator) : Decidable s.Quiet :=
  inferInstanceAs (Decidable (_ ∧ ∀ p ∈ s.handlers, ¬p.Due))

instance (s : FallbackCoordinator) (e : Event) : Decidable (WaitsAfresh s e) :=
  match e with
  | .advance i => inferInstanceAs (Decidable (∀ c ∈ s.calls[i]?, _ → _ → _ ∧ _))
  | .register | .done _ | .cancel | .trigger => .isTrue trivial

/-! ### What is true of every state

The counter is the number of handlers that are not done, and there is one permit at most. -/

/-- The invariant of the runs that meet the condition. -/
structure Inv (s : FallbackCoordinator) : Prop where
  counted : s.pendingTasks = s.handlers.countP (·.counts)
  before : ∀ c ∈ s.calls, c.before ≤ s.handlers.length
  signalled : ∀ c ∈ s.calls, c.phase ≠ .called → s.signal = true
  alone : s.calls.countP (·.phase = .waiting) ≤ 1
  /-- Whoever waits will be notified. -/
  awaited : ∀ c ∈ s.calls, c.phase = .waiting →
    s.pendingTasks ≠ 0 ∨ s.permit = true ∨ ∃ p ∈ s.handlers, p.Due
  /-- Whoever waits is not notified too early. -/
  fresh : ∀ c ∈ s.calls, c.phase = .waiting → s.Acknowledged c ∨ s.Quiet
  acknowledged : ∀ c ∈ s.calls, c.phase = .returned → s.Acknowledged c

theorem doneCalled_of_pendingTasks {s : FallbackCoordinator}
    (h : s.pendingTasks = s.handlers.countP (·.counts)) (hzero : s.pendingTasks = 0) :
    ∀ p ∈ s.handlers, p.DoneCalled := by
  intro p hp
  rw [h, List.countP_eq_zero] at hzero
  have hcounts := hzero p hp
  rintro rfl
  exact hcounts rfl

theorem acknowledged_of_all {s : FallbackCoordinator} (h : ∀ p ∈ s.handlers, p.DoneCalled)
    (c : Call) : s.Acknowledged c :=
  fun p hp => h p (List.mem_of_mem_take hp)

/-- A later phase of a handler keeps what a call has. -/
theorem Acknowledged.set {s : FallbackCoordinator} {c : Call} (h : s.Acknowledged c) (i : Nat)
    {p : HandlerPhase} (hp : p.DoneCalled) :
    ∀ q ∈ (s.handlers.set i p).take c.before, q.DoneCalled := by
  intro q hq
  rw [List.take_set] at hq
  rcases List.mem_or_eq_of_mem_set hq with hq | rfl
  · exact h q hq
  · exact hp

/-! ### Steps of `done` -/

/-- What a step of `done` has to show: the counter still counts, whoever waits is still notified,
and a notification is only started when every handler has called `done`. -/
theorem Inv.handler {s : FallbackCoordinator} (h : Inv s) {i : Nat} {p : HandlerPhase}
    (hp : p.DoneCalled) {n : Nat} {permit : Bool}
    (hcounted : n = (s.handlers.set i p).countP (·.counts))
    (hawaited : s.signal = true → (s.pendingTasks ≠ 0 ∨ s.permit = true ∨ ∃ q ∈ s.handlers, q.Due) →
      n ≠ 0 ∨ permit = true ∨ ∃ q ∈ s.handlers.set i p, q.Due)
    (hfresh : s.Quiet → n = 0 ∨ permit = false ∧ ¬p.Due) :
    Inv { s with pendingTasks := n, permit := permit, handlers := s.handlers.set i p } where
  counted := hcounted
  before := by
    intro c hc
    rw [List.length_set]
    exact h.before c hc
  signalled := h.signalled
  alone := h.alone
  awaited := by
    intro c hc hwaiting
    have hsignal := h.signalled c hc (by rw [hwaiting]; decide)
    exact hawaited hsignal (h.awaited c hc hwaiting)
  fresh := by
    intro c hc hwaiting
    rcases h.fresh c hc hwaiting with hacked | hquiet
    · exact .inl (hacked.set i hp)
    · rcases hfresh hquiet with hzero | ⟨hpermit, hdue⟩
      · exact .inl (acknowledged_of_all (doneCalled_of_pendingTasks hcounted hzero) c)
      · refine .inr ⟨hpermit, ?_⟩
        intro q hq
        rcases List.mem_or_eq_of_mem_set hq with hq | rfl
        · exact hquiet.2 q hq
        · exact hdue
  acknowledged := fun c hc hreturned => Acknowledged.set (h.acknowledged c hc hreturned) i hp

/-- Another handler's notification is still due after a step of handler `i`. -/
theorem due_set {hs : List HandlerPhase} {i : Nat} {p : HandlerPhase} (hi : hs[i]? = some p)
    (hp : ¬p.Due) (p' : HandlerPhase) (h : ∃ q ∈ hs, q.Due) : ∃ q ∈ hs.set i p', q.Due := by
  obtain ⟨q, hq, hdue⟩ := h
  obtain ⟨j, hj⟩ := List.mem_iff_getElem?.mp hq
  refine ⟨q, List.mem_iff_getElem?.mpr ⟨j, ?_⟩, hdue⟩
  rw [List.getElem?_set_ne, hj]
  rintro rfl
  rw [hi] at hj
  exact hp (Option.some.inj hj ▸ hdue)

theorem mem_set {hs : List HandlerPhase} {i : Nat} {p : HandlerPhase} (hi : hs[i]? = some p)
    (p' : HandlerPhase) : p' ∈ hs.set i p' :=
  List.mem_set (List.getElem?_eq_some_iff.mp hi).1 p'

theorem countP_counts_set {hs : List HandlerPhase} {i : Nat} {p : HandlerPhase}
    (hi : hs[i]? = some p) (p' : HandlerPhase) :
    (hs.set i p').countP (·.counts) =
      hs.countP (·.counts) - (if p.counts then 1 else 0) + if p'.counts then 1 else 0 := by
  obtain ⟨hlt, rfl⟩ := List.getElem?_eq_some_iff.mp hi
  exact List.countP_set hlt

theorem Inv.done {s : FallbackCoordinator} (h : Inv s) (i : Nat) : Inv (s.done i) := by
  unfold FallbackCoordinator.done
  cases hi : s.handlers[i]? with
  | none => exact h
  | some p =>
      have hmem : p ∈ s.handlers := List.mem_of_getElem? hi
      cases p with
      | registered =>
          refine h.handler (by decide) ?_ ?_ ?_
          · rw [countP_counts_set hi, h.counted]
            have hpos : 0 < s.handlers.countP (·.counts) := List.countP_pos_iff.mpr ⟨_, hmem, rfl⟩
            exact (Nat.sub_add_cancel hpos).symm
          · rintro - (hpending | hpermit | hdue)
            · exact .inl hpending
            · exact .inr (.inl hpermit)
            · exact .inr (.inr (due_set hi (by decide) _ hdue))
          · intro hquiet
            exact .inr ⟨hquiet.1, by decide⟩
      | called =>
          have hpos : 0 < s.pendingTasks := by
            rw [h.counted]
            exact List.countP_pos_iff.mpr ⟨_, hmem, rfl⟩
          refine h.handler (by nofun) ?_ ?_ ?_
          · rw [countP_counts_set hi, h.counted]
            simp [HandlerPhase.counts]
          · intro _ _
            by_cases hlast : s.pendingTasks = 1
            · exact .inr (.inr ⟨_, mem_set hi _, .inl (congrArg _ hlast)⟩)
            · exact .inl (show s.pendingTasks - 1 ≠ 0 by omega)
          · intro hquiet
            by_cases hlast : s.pendingTasks = 1
            · exact .inl (show s.pendingTasks - 1 = 0 by omega)
            · refine .inr ⟨hquiet.1, ?_⟩
              rintro (hdue | hdue)
              · exact hlast (HandlerPhase.counted.inj hdue)
              · cases hdue
      | counted prev =>
          by_cases hlast : s.signal && prev == 1
          · dsimp only
            rw [if_pos hlast]
            refine h.handler (by decide) ?_ ?_ ?_
            · rw [countP_counts_set hi, h.counted]
              simp [HandlerPhase.counts]
            · intro _ _
              exact .inr (.inr ⟨_, mem_set hi _, .inr rfl⟩)
            · intro hquiet
              simp only [Bool.and_eq_true, beq_iff_eq] at hlast
              exact absurd (.inl (congrArg _ hlast.2)) (hquiet.2 _ hmem)
          · dsimp only
            rw [if_neg hlast]
            refine h.handler (by decide) ?_ ?_ ?_
            · rw [countP_counts_set hi, h.counted]
              simp [HandlerPhase.counts]
            · intro hsignal
              have hprev : ¬(HandlerPhase.counted prev).Due := by
                rintro (hdue | hdue)
                · refine hlast ?_
                  rw [hsignal, HandlerPhase.counted.inj hdue]
                  rfl
                · cases hdue
              rintro (hpending | hpermit | hdue)
              · exact .inl hpending
              · exact .inr (.inl hpermit)
              · exact .inr (.inr (due_set hi hprev _ hdue))
            · intro hquiet
              exact .inr ⟨hquiet.1, by decide⟩
      | notifying =>
          refine h.handler (by decide) ?_ ?_ ?_
          · rw [countP_counts_set hi, h.counted]
            simp [HandlerPhase.counts]
          · intro _ _
            exact .inr (.inl rfl)
          · intro hquiet
            exact absurd (.inr rfl) (hquiet.2 _ hmem)
      | finished => exact h

/-! ### Steps of a call -/

theorem Inv.register {s : FallbackCoordinator} (h : Inv s) : Inv s.register where
  counted := by
    rw [register_handlers, List.countP_append, ← h.counted]
    rfl
  before := by
    intro c hc
    rw [register_handlers, List.length_append]
    exact Nat.le_add_right_of_le (h.before c hc)
  signalled := h.signalled
  alone := h.alone
  awaited := fun _ _ _ => .inl (Nat.succ_ne_zero _)
  fresh := by
    intro c hc hwaiting
    rcases h.fresh c hc hwaiting with hacked | hquiet
    · refine .inl ?_
      rw [Acknowledged, register_handlers, List.take_append_of_le_length (h.before c hc)]
      exact hacked
    · refine .inr ⟨hquiet.1, ?_⟩
      intro p hp
      rcases List.mem_append.mp hp with hp | hp
      · exact hquiet.2 p hp
      · rw [List.mem_singleton.mp hp]
        decide
  acknowledged := by
    intro c hc hreturned
    rw [Acknowledged, register_handlers, List.take_append_of_le_length (h.before c hc)]
    exact h.acknowledged c hc hreturned

theorem Inv.trigger {s : FallbackCoordinator} (h : Inv s) : Inv s.trigger := by
  have hcalls : ∀ {c : Call} {p : CallPhase}, c ∈ s.trigger.calls → c.phase = p → p ≠ .called →
      c ∈ s.calls := by
    intro c p hc hp hne
    rcases List.mem_append.mp hc with hc | hc
    · exact hc
    · rw [List.mem_singleton.mp hc] at hp
      exact absurd hp.symm hne
  refine ⟨h.counted, ?_, ?_, ?_, ?_, ?_, ?_⟩
  · intro c hc
    rcases List.mem_append.mp hc with hc | hc
    · exact h.before c hc
    · rw [List.mem_singleton.mp hc]
      exact Nat.le_refl _
  · exact fun c hc hphase => h.signalled c (hcalls hc rfl hphase) hphase
  · show (s.calls ++ [_]).countP _ ≤ 1
    rw [List.countP_append]
    exact h.alone
  · exact fun c hc hwaiting => h.awaited c (hcalls hc hwaiting (by decide)) hwaiting
  · exact fun c hc hwaiting => h.fresh c (hcalls hc hwaiting (by decide)) hwaiting
  · exact fun c hc hreturned => h.acknowledged c (hcalls hc hreturned (by decide)) hreturned

theorem Inv.cancel {s : FallbackCoordinator} (h : Inv s) : Inv { s with signal := true } :=
  ⟨h.counted, h.before, fun _ _ _ => rfl, h.alone, h.awaited, h.fresh, h.acknowledged⟩

theorem countP_waiting_set {cs : List Call} {i : Nat} {c : Call} (hi : cs[i]? = some c)
    (p : CallPhase) :
    (cs.set i { c with phase := p }).countP (·.phase = .waiting) =
      cs.countP (·.phase = .waiting) - (if c.phase = .waiting then 1 else 0) +
        if p = .waiting then 1 else 0 := by
  obtain ⟨hlt, rfl⟩ := List.getElem?_eq_some_iff.mp hi
  rw [List.countP_set hlt]
  simp

/-- What a step of a call has to show: a call that begins to wait will be notified and not too
early, a call that returns is acknowledged, and a permit is taken only when nobody else waits. -/
theorem Inv.setCall {s : FallbackCoordinator} (h : Inv s) {i : Nat} {c : Call}
    (hi : s.calls[i]? = some c) {p : CallPhase} {permit : Bool}
    (halone : (s.calls.set i { c with phase := p }).countP (·.phase = .waiting) ≤ 1)
    (hwaiting : p = .waiting → s.pendingTasks ≠ 0 ∧ (s.Acknowledged c ∨ s.Quiet))
    (hreturned : p = .returned → s.Acknowledged c)
    (hpermit : permit = s.permit ∨
      (s.calls.set i { c with phase := p }).countP (·.phase = .waiting) = 0) :
    Inv { s with
      signal := true
      permit := permit
      calls := s.calls.set i { c with phase := p } } := by
  have hcalls : ∀ c' ∈ s.calls.set i { c with phase := p },
      c' ∈ s.calls ∨ c' = { c with phase := p } :=
    fun c' hc' => List.mem_or_eq_of_mem_set hc'
  have hkept : ∀ c' ∈ s.calls.set i { c with phase := p }, c'.phase = .waiting →
      permit = s.permit := by
    intro c' hc' hphase
    refine hpermit.resolve_right ?_
    intro hnone
    exact List.countP_eq_zero.mp hnone c' hc' (by simpa using hphase)
  refine ⟨h.counted, ?_, fun _ _ _ => rfl, halone, ?_, ?_, ?_⟩
  · intro c' hc'
    rcases hcalls c' hc' with hc | rfl
    · exact h.before c' hc
    · exact h.before c (List.mem_of_getElem? hi)
  · intro c' hc' hphase
    rcases hcalls c' hc' with hc | rfl
    · rw [hkept c' hc' hphase]
      exact h.awaited c' hc hphase
    · exact .inl (hwaiting hphase).1
  · intro c' hc' hphase
    have hsame := hkept c' hc' hphase
    have hfresh : s.Acknowledged c' ∨ s.Quiet := by
      rcases hcalls c' hc' with hc | rfl
      · exact h.fresh c' hc hphase
      · exact (hwaiting hphase).2
    rcases hfresh with hacked | hquiet
    · exact .inl hacked
    · exact .inr ⟨hsame.trans hquiet.1, hquiet.2⟩
  · intro c' hc' hphase
    rcases hcalls c' hc' with hc | rfl
    · exact h.acknowledged c' hc hphase
    · exact hreturned hphase

theorem Inv.advance {s : FallbackCoordinator} (h : Inv s) {i : Nat} {c : Call}
    (hi : s.calls[i]? = some c) (hfresh : WaitsAfresh s (.advance i)) : Inv (s.advance i c) := by
  have hmem : c ∈ s.calls := List.mem_of_getElem? hi
  have hsignal : c.phase ≠ .called → s = { s with signal := true } := by
    intro hphase
    rw [← h.signalled c hmem hphase]
  unfold FallbackCoordinator.advance
  cases hphase : c.phase with
  | called =>
      refine h.setCall hi ?_ (by nofun) (by nofun) (.inl rfl)
      rw [countP_waiting_set hi, hphase]
      exact h.alone
  | signalled =>
      by_cases hzero : s.pendingTasks = 0
      · dsimp only
        rw [if_pos hzero, hsignal (by rw [hphase]; decide)]
        refine h.setCall hi ?_ (by nofun) ?_ (.inl rfl)
        · rw [countP_waiting_set hi, hphase]
          exact h.alone
        · intro _
          exact acknowledged_of_all (doneCalled_of_pendingTasks h.counted hzero) c
      · obtain ⟨hnone, hquiet⟩ := hfresh c hi hphase hzero
        have hcount : s.calls.countP (·.phase = .waiting) = 0 := by
          rw [List.countP_eq_zero]
          intro other hother
          simpa using hnone other hother
        dsimp only
        rw [if_neg hzero, hsignal (by rw [hphase]; decide)]
        refine h.setCall hi ?_ (fun _ => ⟨hzero, hquiet⟩) (by nofun) (.inl rfl)
        rw [countP_waiting_set hi, hphase, hcount]
        decide
  | waiting =>
      by_cases hpermit : s.permit = true
      · have hcount : (s.calls.set i { c with phase := .returned }).countP (·.phase = .waiting) =
            0 := by
          have halone := h.alone
          rw [countP_waiting_set hi, hphase, if_pos rfl, if_neg (by decide)]
          omega
        dsimp only
        rw [if_pos hpermit, hsignal (by rw [hphase]; decide)]
        refine h.setCall hi ?_ (by nofun) ?_ (.inr hcount)
        · rw [hcount]
          exact Nat.zero_le _
        · intro _
          refine (h.fresh c hmem hphase).resolve_right ?_
          rintro ⟨hnone, -⟩
          rw [hpermit] at hnone
          cases hnone
      · dsimp only
        rw [if_neg hpermit]
        exact h
  | returned => exact h

theorem inv_step {s : FallbackCoordinator} (h : Inv s) (e : Event) (he : WaitsAfresh s e) :
    Inv (s.step e) := by
  cases e with
  | register => exact h.register
  | done i => exact h.done i
  | cancel => exact h.cancel
  | trigger => exact h.trigger
  | advance i =>
      show Inv (match s.calls[i]? with | none => s | some c => s.advance i c)
      cases hi : s.calls[i]? with
      | none => exact h
      | some c => exact h.advance hi he

theorem inv_initial : Inv {} where
  counted := rfl
  before := by nofun
  signalled := by nofun
  alone := by decide
  awaited := by nofun
  fresh := by nofun
  acknowledged := by nofun

/-! ### No call waits for ever -/

/-- `done` never blocks. -/
theorem done_advances {s : FallbackCoordinator} {i : Nat} {p : HandlerPhase}
    (hi : s.handlers[i]? = some p) (hp : p ≠ .finished) :
    ∃ p' : HandlerPhase, p'.stepsLeft < p.stepsLeft ∧
      (s.done i).handlers = s.handlers.set i p' ∧ (s.done i).calls = s.calls := by
  unfold FallbackCoordinator.done
  rw [hi]
  cases p with
  | registered => exact ⟨.called, by decide, rfl, rfl⟩
  | called => exact ⟨.counted s.pendingTasks, Nat.lt_succ_self _, rfl, rfl⟩
  | counted prev =>
      refine ⟨if s.signal && prev == 1 then .notifying else .finished, ?_, rfl, rfl⟩
      split <;> exact Nat.le_of_ble_eq_true rfl
  | notifying => exact ⟨.finished, by decide, rfl, rfl⟩
  | finished => exact absurd rfl hp

/-- A handler that has called `done` finishes by its own steps, and nothing else moves. -/
theorem finish_handler {s : FallbackCoordinator} {i : Nat} {p : HandlerPhase}
    (hi : s.handlers[i]? = some p) :
    ∃ es, (∀ e ∈ es, e = .done i) ∧ (exec step s es).handlers = s.handlers.set i .finished ∧
      (exec step s es).calls = s.calls := by
  induction hn : p.stepsLeft using Nat.strongRecOn generalizing s p with
  | ind n ih =>
      by_cases hp : p = .finished
      · subst hp
        refine ⟨[], by simp, ?_, rfl⟩
        obtain ⟨hlt, hget⟩ := List.getElem?_eq_some_iff.mp hi
        rw [Runs.exec_nil, ← hget, List.set_getElem_self]
      · obtain ⟨p', hless, hhandlers, hcalls⟩ := done_advances hi hp
        have hi' : (s.done i).handlers[i]? = some p' := by
          rw [hhandlers]
          exact List.getElem?_set_self (List.getElem?_eq_some_iff.mp hi).1
        obtain ⟨es, hes, hfinished, hsame⟩ := ih _ (hn ▸ hless) hi' rfl
        refine ⟨.done i :: es, ?_, ?_, ?_⟩
        · intro e he
          rcases List.mem_cons.mp he with rfl | he
          · rfl
          · exact hes e he
        · rw [Runs.exec_cons]
          exact hfinished.trans (by rw [hhandlers, List.set_set])
        · rw [Runs.exec_cons]
          exact hsame.trans hcalls

/-- The first `k` handlers can finish, one after the other. -/
theorem finish_handlers (s : FallbackCoordinator) (k : Nat) :
    ∃ es, (∀ e ∈ es, ∃ i, e = .done i) ∧
      (exec step s es).handlers.length = s.handlers.length ∧
      (∀ i p, (exec step s es).handlers[i]? = some p → i < k → p = .finished) ∧
      (exec step s es).calls = s.calls := by
  induction k with
  | zero => exact ⟨[], by simp, rfl, fun _ _ _ hi => absurd hi (Nat.not_lt_zero _), rfl⟩
  | succ k ih =>
      obtain ⟨es, hes, hlen, hfinished, hcalls⟩ := ih
      cases hk : (exec step s es).handlers[k]? with
      | none =>
          refine ⟨es, hes, hlen, ?_, hcalls⟩
          intro i p hi hlt
          refine hfinished i p hi (Nat.lt_of_le_of_ne (Nat.le_of_lt_succ hlt) ?_)
          rintro rfl
          rw [hk] at hi
          cases hi
      | some p =>
          obtain ⟨fs, hfs, hset, hsame⟩ := finish_handler hk
          refine ⟨es ++ fs, ?_, ?_, ?_, ?_⟩
          · intro e he
            rcases List.mem_append.mp he with he | he
            · exact hes e he
            · exact ⟨k, hfs e he⟩
          · rw [Runs.exec_append, hset, List.length_set]
            exact hlen
          · intro i q hi hlt
            rw [Runs.exec_append, hset] at hi
            by_cases heq : i = k
            · subst heq
              rw [List.getElem?_set_self (List.getElem?_eq_some_iff.mp hk).1] at hi
              exact (Option.some.inj hi).symm
            · rw [List.getElem?_set_ne (Ne.symm heq)] at hi
              exact hfinished i q hi (by omega)
          · rw [Runs.exec_append]
            exact hsame.trans hcalls

theorem step_advance {s : FallbackCoordinator} {i : Nat} {c : Call} (hi : s.calls[i]? = some c) :
    s.step (.advance i) = s.advance i c := by
  show (match s.calls[i]? with | none => s | some c => s.advance i c) = _
  rw [hi]

/-- With the counter at zero, a call that does not wait yet returns by its own steps. -/
theorem signalled_returns {s : FallbackCoordinator} {i : Nat} {c : Call} (hi : s.calls[i]? = some c)
    (hphase : c.phase = .signalled) (hzero : s.pendingTasks = 0) :
    ∃ c', (s.step (.advance i)).calls[i]? = some c' ∧ c'.phase = .returned := by
  refine ⟨{ c with phase := .returned }, ?_, rfl⟩
  rw [step_advance hi, FallbackCoordinator.advance, hphase]
  dsimp only
  rw [if_pos hzero]
  exact List.getElem?_set_self (List.getElem?_eq_some_iff.mp hi).1

/-- Once every handler is finished, a call returns by its own steps. -/
theorem Inv.returns {s : FallbackCoordinator} (h : Inv s) (hall : ∀ p ∈ s.handlers, p = .finished)
    {i : Nat} {c : Call} (hi : s.calls[i]? = some c) :
    ∃ es, (∀ e ∈ es, e = .advance i) ∧
      ∃ c', (exec step s es).calls[i]? = some c' ∧ c'.phase = .returned := by
  have hlt := (List.getElem?_eq_some_iff.mp hi).1
  have hzero : s.pendingTasks = 0 := by
    rw [h.counted, List.countP_eq_zero]
    intro p hp
    rw [hall p hp]
    decide
  cases hphase : c.phase with
  | called =>
      have hi' : (s.step (.advance i)).calls[i]? = some { c with phase := .signalled } := by
        rw [step_advance hi, FallbackCoordinator.advance, hphase]
        exact List.getElem?_set_self hlt
      have hzero' : (s.step (.advance i)).pendingTasks = 0 := by
        rw [step_advance hi, FallbackCoordinator.advance, hphase]
        exact hzero
      exact ⟨[.advance i, .advance i], by simp, signalled_returns hi' rfl hzero'⟩
  | signalled => exact ⟨[.advance i], by simp, signalled_returns hi hphase hzero⟩
  | waiting =>
      have hpermit : s.permit = true := by
        rcases h.awaited c (List.mem_of_getElem? hi) hphase with hpending | hpermit | ⟨p, hp, hdue⟩
        · exact absurd hzero hpending
        · exact hpermit
        · rw [hall p hp] at hdue
          exact absurd hdue (by decide)
      refine ⟨[.advance i], by simp, { c with phase := .returned }, ?_, rfl⟩
      rw [Runs.exec_cons, Runs.exec_nil, step_advance hi, FallbackCoordinator.advance, hphase]
      dsimp only
      rw [if_pos hpermit]
      exact List.getElem?_set_self hlt
  | returned => exact ⟨[], by simp, c, hi, hphase⟩

theorem Inv.canReturn {s : FallbackCoordinator} (h : Inv s) {i : Nat} (hi : i < s.calls.length) :
    s.CanReturn i := by
  obtain ⟨es, hes, hlen, hfinished, hcalls⟩ := s.finish_handlers s.handlers.length
  have hinv : Inv (exec step s es) := by
    refine Runs.exec_induct (C := WaitsAfresh) (fun _ e h he => inv_step h e he) h ?_
    refine Runs.along_iff_splits.mpr ?_
    intro pre e post hsplit
    obtain ⟨j, rfl⟩ := hes e (by rw [hsplit]; exact List.mem_append_right _ List.mem_cons_self)
    trivial
  have hall : ∀ p ∈ (exec step s es).handlers, p = .finished := by
    intro p hp
    obtain ⟨j, hj⟩ := List.mem_iff_getElem?.mp hp
    exact hfinished j p hj (hlen ▸ (List.getElem?_eq_some_iff.mp hj).1)
  have hi' : (exec step s es).calls[i]? = some s.calls[i] := by
    rw [hcalls]
    exact List.getElem?_eq_getElem hi
  obtain ⟨fs, hfs, hreturned⟩ := hinv.returns hall hi'
  refine ⟨es ++ fs, ?_, ?_⟩
  · intro e he
    rcases List.mem_append.mp he with he | he
    · obtain ⟨j, rfl⟩ := hes e he
      trivial
    · rw [hfs e he]
      exact rfl
  · rw [Runs.exec_append]
    exact hreturned

/-- **Fallback coordination**, in every state of every interleaving whose calls wait afresh. -/
theorem coordinated_exec {es : List Event} (hes : Along step WaitsAfresh {} es) :
    Coordinated (exec step {} es) := by
  have h : Inv (exec step {} es) :=
    Runs.exec_induct (I := Inv) (fun _ e h he => inv_step h e he) inv_initial hes
  exact ⟨h.acknowledged, fun _ i hi => h.canReturn hi⟩

/-- The main loop waits for two components, the second of which finishes between the check of the
counter and the wait. -/
theorem two_components_coordinated :
    let s := exec step {} ([.register, .register, .trigger, .advance 0, .done 0, .done 0, .done 0,
      .advance 0, .done 1, .done 1, .done 1, .done 1, .advance 0])
    Coordinated s ∧ s.calls = [⟨2, .returned⟩] :=
  ⟨coordinated_exec (by decide), by decide⟩

/-- A component cancels the token and its `done` stores a permit for which nobody waits. The handler
that registers next is counted, but the call takes the old permit. -/
theorem permit_of_first_component_taken :
    let s := exec step {} ([.register, .cancel, .done 0, .done 0, .done 0, .done 0, .register,
      .trigger, .advance 0, .advance 0, .advance 0])
    s.calls = [⟨2, .returned⟩] ∧ s.handlers = [.finished, .registered] ∧ ¬Coordinated s := by
  refine ⟨by decide, by decide, ?_⟩
  intro h
  exact absurd (h.acknowledged ⟨2, .returned⟩ (by decide) rfl) (by decide)

end FallbackCoordinator

end GridPoolSv2.StratumApps
