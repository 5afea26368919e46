import GridPoolSv2.Lib.Runs
import GridPoolSv2.Pool.ChannelManager

/-!
# Pool.WorkRefresh: the tasks that fetch GridPool work selections

Two tasks write `GridPoolClient.work`: the background poll of `start`, and
`refresh_for_chain_tip`, which `handle_new_template` awaits when a future template announces
a new chain tip. Each sends a request, the node answers from the selection it has **then**,
and the answer reaches the task later. `GridPoolClient.refreshForChainTip` is one refresh
with its answers given; here the requests, the answers and the writes are steps of their
own, interleaved with the commits of the node.

* A selection is **stamped** with the number of the commit it was answered from.
* `Refresh` holds the local variables of `refresh_for_chain_tip` between two attempts, and
  `Refresh.run` iterates its loop; `refresh_run_eq` connects it with `refreshForChainTip`.
* `handle_new_template` reads `work` anew for every channel (`buildJob`), and the poll may
  write in between.

The template message does not say which block it builds on: the tip of a template is a
**ghost** argument of `newTemplate`.

Proof shape: every event either `Leaves` what is installed or `Writes` one selection. Order and
tip are two invariants over these two cases. The equivalence for a single refresh is about the
loop alone and uses neither.
-/

namespace GridPoolSv2.Pool.WorkRefresh

open Payout (Text)
open GridPoolClient (chainTipRefreshAttempts fetchLoop)

/-- A work selection, and the number of the node's commit it comes from. -/
structure Stamped where
  version : Nat
  selection : WorkSelection
  deriving Repr, DecidableEq

/-- A request of `fetch_work`. -/
inductive Fetch where
  | idle
  | sent
  | answered (answer : Except String Stamped)

/-- `tip_changed`: any tip counts when no previous one is known. -/
def tipChanged (previousTip : Option Text) (work : WorkSelection) : Bool :=
  previousTip.isNone || work.currentTipBlockHash ≠ previousTip

/-! ### One refresh -/

/-- The variables of `refresh_for_chain_tip` before an attempt. A selection it keeps as `latest` has
not changed the tip, or the loop would have ended. -/
structure Refresh where
  /-- Ghost: the block the template builds on. -/
  tip : Text
  previousTip : Option Text
  attempt : Nat
  latest : Option Stamped
  lastError : Option String
  fetch : Fetch
  unchanged : ∀ work ∈ latest, tipChanged previousTip work.selection = false

/-- What follows an answer. -/
inductive Outcome where
  | again (r : Refresh)
  | install (work : Stamped)
  | fail (reason : String)

namespace Refresh

/-- The first request of a refresh. -/
def begin (tip : Text) (lastTemplateTip : Option Text) : Refresh where
  tip := tip
  previousTip := lastTemplateTip
  attempt := 0
  latest := none
  lastError := none
  fetch := .sent
  unchanged := by simp

/-- The end of `refresh_for_chain_tip`, after its loop. -/
def finish (previousTip : Option Text) (latest : Option Stamped) (lastError : Option String) :
    Outcome :=
  match latest with
  | none =>
      .fail ("GridPool returned no work selection after chain-tip refresh: " ++
        lastError.getD "no response")
  | some work =>
      if previousTip.isSome && work.selection.currentTipBlockHash = previousTip then
        .fail "GridPool work selection did not advance to the new chain tip"
      else .install work

/-- The pause before the next attempt, or the end of the loop. -/
def next (r : Refresh) : Outcome :=
  if r.attempt + 1 < chainTipRefreshAttempts then
    .again { r with attempt := r.attempt + 1, fetch := .idle }
  else finish r.previousTip r.latest r.lastError

/-- The body of the loop, from the answer on. -/
def receive (r : Refresh) : Except String Stamped → Outcome
  | .ok work =>
      if h : tipChanged r.previousTip work.selection then
        finish r.previousTip (some work) r.lastError
      else next { r with latest := some work, unchanged := by simpa using h }
  | .error e => next { r with lastError := some e }

/-- The loop, with what the node answers at each attempt and `remaining` attempts left. -/
def run (answers : Nat → Except String Stamped) : Nat → Refresh → Outcome
  | 0, r => finish r.previousTip r.latest r.lastError
  | remaining + 1, r =>
      match r.receive (answers r.attempt) with
      | .again r => run answers remaining r
      | outcome => outcome

/-- A selection of a new tip ends the refresh. -/
theorem finish_of_changed {previousTip : Option Text} {work : Stamped} (lastError : Option String)
    (h : tipChanged previousTip work.selection = true) :
    finish previousTip (some work) lastError = .install work := by
  cases previousTip with
  | none => rfl
  | some tip =>
      have hne : work.selection.currentTipBlockHash ≠ some tip := by simpa [tipChanged] using h
      simp [finish, hne]

/-- A loop that never saw the tip change fails. -/
theorem finish_of_unchanged {previousTip : Option Text} {latest : Option Stamped}
    (lastError : Option String)
    (h : ∀ work ∈ latest, tipChanged previousTip work.selection = false) :
    ∃ reason, finish previousTip latest lastError = .fail reason := by
  cases latest with
  | none => exact ⟨_, rfl⟩
  | some work =>
      have hwork := h work rfl
      cases previousTip with
      | none => simp [tipChanged] at hwork
      | some tip =>
          have heq : work.selection.currentTipBlockHash = some tip := by
            simpa [tipChanged] using hwork
          refine ⟨"GridPool work selection did not advance to the new chain tip", ?_⟩
          simp [finish, heq]

/-- Only an answer that changes the tip is installed, and every such answer is. -/
theorem receive_eq_install {r : Refresh} {answer : Except String Stamped} {work : Stamped} :
    r.receive answer = .install work ↔
      answer = .ok work ∧ tipChanged r.previousTip work.selection = true := by
  have hnext : ∀ r : Refresh, r.next ≠ .install work := by
    intro r hr
    unfold next at hr
    split at hr
    · cases hr
    · obtain ⟨reason, hfail⟩ := finish_of_unchanged r.lastError r.unchanged
      rw [hfail] at hr
      cases hr
  cases answer with
  | error e => simp [receive, hnext]
  | ok w =>
      by_cases hw : tipChanged r.previousTip w.selection = true
      · rw [receive, dif_pos hw, finish_of_changed _ hw]
        constructor
        · rintro ⟨rfl⟩
          exact ⟨rfl, hw⟩
        · rintro ⟨h, -⟩
          cases h
          rfl
      · rw [receive, dif_neg hw]
        constructor
        · intro h
          exact absurd h (hnext _)
        · rintro ⟨h, hchanged⟩
          cases h
          exact absurd hchanged hw

/-- A refresh as the caller sees it. -/
def result : Outcome → Except String WorkSelection
  | .install work => .ok work.selection
  | .fail reason => .error reason
  | .again _ => .error "not finished"

/-- The end of the atomic refresh, given the result of its loop. -/
def concluded (previousTip : Option Text) (loop : Option WorkSelection × Option String) :
    Except String WorkSelection :=
  match loop with
  | (none, lastError) =>
      .error ("GridPool returned no work selection after chain-tip refresh: " ++
        lastError.getD "no response")
  | (some work, _) =>
      if previousTip.isSome && work.currentTipBlockHash = previousTip then
        .error "GridPool work selection did not advance to the new chain tip"
      else .ok work

theorem result_finish (previousTip : Option Text) (latest : Option Stamped)
    (lastError : Option String) :
    result (finish previousTip latest lastError) =
      concluded previousTip (latest.map (·.selection), lastError) := by
  cases latest with
  | none => rfl
  | some work =>
      simp only [finish, concluded, Option.map_some]
      split <;> rfl

theorem fetchLoop_ok {previousTip : Option Text} {fetch : Nat → Except String WorkSelection}
    {attempt : Nat} {work : WorkSelection} (h : fetch attempt = .ok work) (remaining : Nat)
    (latest : Option WorkSelection) (lastError : Option String) :
    fetchLoop previousTip fetch (remaining + 1) attempt latest lastError =
      if tipChanged previousTip work then (some work, lastError)
      else fetchLoop previousTip fetch remaining (attempt + 1) (some work) lastError := by
  rw [fetchLoop, h]
  rfl

theorem fetchLoop_error {previousTip : Option Text} {fetch : Nat → Except String WorkSelection}
    {attempt : Nat} {e : String} (h : fetch attempt = .error e) (remaining : Nat)
    (latest : Option WorkSelection) (lastError : Option String) :
    fetchLoop previousTip fetch (remaining + 1) attempt latest lastError =
      fetchLoop previousTip fetch remaining (attempt + 1) latest (some e) := by
  rw [fetchLoop, h]

/-- The loop, attempt by attempt, is the loop of the atomic refresh. -/
theorem result_run (answers : Nat → Except String Stamped) (remaining : Nat) (r : Refresh)
    (hattempt : r.attempt + remaining = chainTipRefreshAttempts) :
    result (run answers remaining r) =
      concluded r.previousTip
        (fetchLoop r.previousTip (fun k => (answers k).map (·.selection)) remaining r.attempt
          (r.latest.map (·.selection)) r.lastError) := by
  induction remaining generalizing r with
  | zero => exact result_finish r.previousTip r.latest r.lastError
  | succ remaining ih =>
      -- a further attempt, or the end of the loop after the last one
      have hnext : ∀ (latest : Option Stamped) (lastError : Option String)
          (hlatest : ∀ work ∈ latest, tipChanged r.previousTip work.selection = false),
          result (match
              ({ r with latest := latest, lastError := lastError, unchanged := hlatest } :
                Refresh).next with
            | .again r => run answers remaining r
            | outcome => outcome) =
            concluded r.previousTip
              (fetchLoop r.previousTip (fun k => (answers k).map (·.selection)) remaining
                (r.attempt + 1) (latest.map (·.selection)) lastError) := by
        intro latest lastError hlatest
        by_cases hmore : r.attempt + 1 < chainTipRefreshAttempts
        · rw [next, if_pos hmore]
          exact ih ⟨r.tip, r.previousTip, r.attempt + 1, latest, lastError, .idle, hlatest⟩
            (by simp only; omega)
        · have hzero : remaining = 0 := by omega
          obtain ⟨reason, hfail⟩ := finish_of_unchanged lastError hlatest
          have hfinish := result_finish r.previousTip latest lastError
          rw [hfail] at hfinish
          rw [next, if_neg hmore, hfail, hzero]
          exact hfinish
      rw [run]
      cases hanswer : answers r.attempt with
      | error e =>
          have hfetch : (answers r.attempt).map (·.selection) = .error e := by rw [hanswer]; rfl
          rw [fetchLoop_error hfetch]
          exact hnext r.latest (some e) r.unchanged
      | ok work =>
          have hfetch : (answers r.attempt).map (·.selection) = .ok work.selection := by
            rw [hanswer]
            rfl
          rw [fetchLoop_ok hfetch]
          by_cases hw : tipChanged r.previousTip work.selection = true
          · have hfinish := result_finish r.previousTip (some work) r.lastError
            rw [finish_of_changed _ hw] at hfinish
            rw [receive, dif_pos hw, finish_of_changed _ hw, if_pos hw]
            exact hfinish
          · rw [receive, dif_neg hw, if_neg hw]
            exact hnext (some work) r.lastError (by simpa using hw)

/-- The selection an atomic refresh installs. -/
theorem refreshForChainTip_work (g : GridPoolClient) (fetch : Nat → Except String WorkSelection) :
    (g.refreshForChainTip fetch).map (·.work) =
      concluded g.lastTemplateTip
        (fetchLoop g.lastTemplateTip fetch chainTipRefreshAttempts 0 none none) := by
  cases hloop : fetchLoop g.lastTemplateTip fetch chainTipRefreshAttempts 0 none none with
  | mk latest lastError =>
      simp only [GridPoolClient.refreshForChainTip, hloop]
      cases latest with
      | none => rfl
      | some work =>
          unfold concluded
          by_cases h : (g.lastTemplateTip.isSome &&
              decide (work.currentTipBlockHash = g.lastTemplateTip)) = true
          · simp only [h, if_true, Except.map]
          · simp only [h, Except.map]
            rfl

/-- A refresh that nothing interrupts is `refreshForChainTip`. -/
theorem refresh_run_eq (g : GridPoolClient) (tip : Text) (answers : Nat → Except String Stamped) :
    result (run answers chainTipRefreshAttempts (begin tip g.lastTemplateTip)) =
      (g.refreshForChainTip fun k => (answers k).map (·.selection)).map (·.work) := by
  rw [refreshForChainTip_work]
  exact result_run answers _ (begin tip g.lastTemplateTip) (by simp [begin])

/-- The loop ends with a selection that changes the tip exactly when an attempt is answered with
one. -/
theorem concluded_isOk (previousTip : Option Text) (fetch : Nat → Except String WorkSelection)
    (remaining attempt : Nat) (latest : Option WorkSelection) (lastError : Option String)
    (hlatest : ∀ work ∈ latest, tipChanged previousTip work = false) :
    (∃ work, concluded previousTip
        (fetchLoop previousTip fetch remaining attempt latest lastError) = .ok work) ↔
      ∃ k work, attempt ≤ k ∧ k < attempt + remaining ∧ fetch k = .ok work ∧
        tipChanged previousTip work = true := by
  induction remaining generalizing attempt latest lastError with
  | zero =>
      constructor
      · rintro ⟨work, hwork⟩
        cases latest with
        | none => cases hwork
        | some w =>
            have hw := hlatest w rfl
            have hfail : (previousTip.isSome && decide (w.currentTipBlockHash = previousTip)) =
              true := by
              cases previousTip <;> simp_all [tipChanged]
            simp [fetchLoop, concluded, hfail] at hwork
      · rintro ⟨k, work, hle, hlt, -⟩
        omega
  | succ remaining ih =>
      have hshift : ∀ latest lastError, (∀ work ∈ latest, tipChanged previousTip work = false) →
          (∀ work, fetch attempt = .ok work → tipChanged previousTip work = false) →
          ((∃ work, concluded previousTip
              (fetchLoop previousTip fetch remaining (attempt + 1) latest lastError) = .ok work) ↔
            ∃ k work, attempt ≤ k ∧ k < attempt + (remaining + 1) ∧ fetch k = .ok work ∧
              tipChanged previousTip work = true) := by
        intro latest lastError hlatest hskip
        rw [ih (attempt + 1) latest lastError hlatest]
        constructor
        · rintro ⟨k, work, hle, hlt, hk⟩
          exact ⟨k, work, by omega, by omega, hk⟩
        · rintro ⟨k, work, hle, hlt, hk, hchanged⟩
          have hne : k ≠ attempt := by
            rintro rfl
            simp [hskip work hk] at hchanged
          exact ⟨k, work, by omega, by omega, hk, hchanged⟩
      cases hfetch : fetch attempt with
      | error e =>
          rw [fetchLoop_error hfetch]
          exact hshift latest (some e) hlatest (fun work h => by simp [hfetch] at h)
      | ok work =>
          rw [fetchLoop_ok hfetch]
          by_cases hw : tipChanged previousTip work = true
          · rw [if_pos hw]
            constructor
            · intro _
              exact ⟨attempt, work, le_rfl, by omega, hfetch, hw⟩
            · intro _
              refine ⟨work, ?_⟩
              have hgo : (previousTip.isSome && decide (work.currentTipBlockHash = previousTip)) =
                false := by
                cases previousTip <;> simp_all [tipChanged]
              simp [concluded, hgo]
          · rw [if_neg hw]
            have hw : tipChanged previousTip work = false := by simpa using hw
            refine hshift (some work) lastError (by simpa using hw) ?_
            intro work' h
            rw [hfetch] at h
            cases h
            exact hw

/-- When `refresh_for_chain_tip` succeeds. -/
theorem refreshForChainTip_isOk (g : GridPoolClient) (fetch : Nat → Except String WorkSelection) :
    (∃ g', g.refreshForChainTip fetch = .ok g') ↔
      ∃ k work, k < chainTipRefreshAttempts ∧ fetch k = .ok work ∧
        tipChanged g.lastTemplateTip work = true := by
  have hwork : (∃ g', g.refreshForChainTip fetch = .ok g') ↔
      ∃ work, (g.refreshForChainTip fetch).map (·.work) = .ok work := by
    cases g.refreshForChainTip fetch with
    | error e => simp [Except.map]
    | ok g' => simp [Except.map]
  rw [hwork, refreshForChainTip_work, concluded_isOk _ _ _ _ _ _ (by simp)]
  simp

/-- If the node answers with a selection for `tip` within the window, the refresh succeeds unless
the refresh before already recorded `tip` and the node stays there for the whole window. -/
theorem refresh_after_answer_for_tip (g : GridPoolClient)
    (fetch : Nat → Except String WorkSelection) (tip : Text) {k : Nat} {work : WorkSelection}
    (hk : k < chainTipRefreshAttempts) (hwork : fetch k = .ok work)
    (htip : work.currentTipBlockHash = some tip) :
    (∃ g', g.refreshForChainTip fetch = .ok g') ↔
      g.lastTemplateTip ≠ some tip ∨
        ∃ k' work', k' < chainTipRefreshAttempts ∧ fetch k' = .ok work' ∧
          work'.currentTipBlockHash ≠ some tip := by
  rw [refreshForChainTip_isOk]
  by_cases hlast : g.lastTemplateTip = some tip
  · simp [tipChanged, hlast]
  · constructor
    · intro _
      exact .inl hlast
    · intro _
      refine ⟨k, work, hk, hwork, ?_⟩
      have hne : work.currentTipBlockHash ≠ g.lastTemplateTip := by
        rw [htip]
        exact fun h => hlast h.symm
      simp [tipChanged, hne]

/-- The node is still on the old tip at first, and then refuses, as during a snapshot transition. -/
theorem refresh_after_conflict :
    let g := Reference.client "a" []
    let fetch := fun k =>
      if k = 0 then .ok (Reference.selection "a" [])
      else if k = 1 then .error "409 Conflict"
      else .ok (Reference.selection "b" [])
    g.lastTemplateTip ≠ some "b".toList ∧ ∃ g', g.refreshForChainTip fetch = .ok g' := by
  intro g fetch
  have hlast : g.lastTemplateTip ≠ some "b".toList := by decide
  refine ⟨hlast, ?_⟩
  have htip : (Reference.selection "b" []).currentTipBlockHash = some "b".toList := rfl
  exact (refresh_after_answer_for_tip g fetch "b".toList (k := 2) (by decide) rfl htip).mpr
    (.inl hlast)

/-- The node is on the second of two new tips when the template of the first is handled. The
template of the second then finds no other tip in the whole window, and the pool shuts down. -/
theorem refresh_after_node_ran_ahead :
    let answer := fun _ : Nat => (.ok (Reference.selection "c" []) : Except String WorkSelection)
    let es : List ChannelManager.Event :=
      [.newTemplate (Reference.template 1 true 5000) answer (fun _ _ => 0),
        .newTemplate (Reference.template 2 true 5000) answer (fun _ _ => 0)]
    let s := Runs.exec ChannelManager.step Reference.manager es
    let s' := s.step (.newTemplate (Reference.template 3 true 5000) answer (fun _ _ => 0))
    s.running = true ∧ s.gridpool.map (·.lastTemplateTip) = some (some "c".toList) ∧
      s.gridpool.map (fun g => (g.refreshForChainTip answer).isOk) = some false ∧
      s'.running = false := by
  decide +kernel

end Refresh

/-! ### The two tasks

An event sends a request, has the node answer it, has a task receive the answer, or commits a
selection in the node. -/

/-- The tasks that fetch: the background poll and the handler of a new template. -/
inductive Task where
  | poll
  | refresh
  deriving Repr, DecidableEq

/-- The other task. -/
def Task.other : Task → Task
  | .poll => .refresh
  | .refresh => .poll

/-- Where `handle_new_template` stands for a future template that is not the first. -/
inductive Handler where
  | idle
  | refreshing (r : Refresh)
  /-- After the refresh, in the loops over the channels. -/
  | building (tip : Text)

/-- The node, the cells of the client and the two tasks. -/
structure System where
  /-- What the node answers now. -/
  node : Stamped
  work : Stamped
  lastTemplateTip : Option Text
  poll : Fetch
  handler : Handler
  running : Bool
  /-- Ghost: everything `work` has held. -/
  installs : List Stamped
  /-- Ghost: the tip of each refreshed template, with the selection the refresh installed. -/
  refreshed : List (Text × Stamped)
  /-- Ghost: the tip of the template each job was built for, with the selection that was read. -/
  jobs : List (Text × Stamped)

inductive Event where
  /-- The node commits a selection. -/
  | commit (selection : WorkSelection)
  | request (t : Task)
  /-- The node answers a request. -/
  | answer (t : Task)
  /-- A request fails, also on the way back. -/
  | fail (t : Task) (e : String)
  /-- A task receives its answer. -/
  | receive (t : Task)
  /-- `handle_new_template` starts, for a template on `tip`. -/
  | newTemplate (tip : Text)
  /-- The handler reads `work` for the job of a channel. -/
  | buildJob
  | finishTemplate
  /-- The handler is dropped by the loop of the channel manager. -/
  | dropHandler

namespace System

/-- `GridPoolClient::connect`. -/
def connect (node : Stamped) : System where
  node := node
  work := node
  lastTemplateTip := node.selection.currentTipBlockHash
  poll := .idle
  handler := .idle
  running := true
  installs := [node]
  refreshed := []
  jobs := []

/-- The request of a task. -/
def fetch (s : System) : Task → Fetch
  | .poll => s.poll
  | .refresh =>
      match s.handler with
      | .refreshing r => r.fetch
      | _ => .idle

def setFetch (s : System) (t : Task) (f : Fetch) : System :=
  match t with
  | .poll => { s with poll := f }
  | .refresh =>
      match s.handler with
      | .refreshing r => { s with handler := .refreshing { r with fetch := f } }
      | _ => s

/-- Write `work`. -/
def install (s : System) (work : Stamped) : System :=
  { s with work := work, installs := s.installs ++ [work] }

/-- The poll with its answer. -/
def receivePoll (s : System) : Except String Stamped → System
  | .ok work => { s with poll := .idle }.install work
  | .error _ => { s with poll := .idle }

/-- The refresh with its answer. A refresh that fails shuts the pool down. -/
def receiveRefresh (s : System) (r : Refresh) (answer : Except String Stamped) : System :=
  match r.receive answer with
  | .again r => { s with handler := .refreshing r }
  | .install work =>
      { s with
        lastTemplateTip := work.selection.currentTipBlockHash
        handler := .building r.tip
        refreshed := s.refreshed ++ [(r.tip, work)] }.install work
  | .fail _ => { s with handler := .idle, running := false }

def step (s : System) : Event → System
  | .commit selection => { s with node := ⟨s.node.version + 1, selection⟩ }
  | .request t =>
      match s.fetch t with
      | .idle => s.setFetch t .sent
      | _ => s
  | .answer t =>
      match s.fetch t with
      | .sent => s.setFetch t (.answered (.ok s.node))
      | _ => s
  | .fail t e =>
      match s.fetch t with
      | .idle => s
      | _ => s.setFetch t (.answered (.error e))
  | .receive .poll =>
      match s.poll with
      | .answered answer => s.receivePoll answer
      | _ => s
  | .receive .refresh =>
      match s.handler with
      | .refreshing r =>
          match r.fetch with
          | .answered answer => s.receiveRefresh r answer
          | _ => s
      | _ => s
  | .newTemplate tip =>
      match s.handler with
      | .idle =>
          if s.running then { s with handler := .refreshing (.begin tip s.lastTemplateTip) } else s
      | _ => s
  | .buildJob =>
      match s.handler with
      | .building tip => { s with jobs := s.jobs ++ [(tip, s.work)] }
      | _ => s
  | .finishTemplate =>
      match s.handler with
      | .building _ => { s with handler := .idle }
      | _ => s
  | .dropHandler => { s with handler := .idle }

/-- The selection a task is about to receive. -/
def held (s : System) (t : Task) : Option Stamped :=
  match s.fetch t with
  | .answered (.ok work) => some work
  | _ => none

/-- The selection a task would install with the answer it is about to receive. -/
def installing (s : System) (t : Task) : Option Stamped :=
  match t, s.handler with
  | .poll, _ => s.held .poll
  | .refresh, .refreshing r => (s.held .refresh).filter fun work =>
      tipChanged r.previousTip work.selection
  | .refresh, _ => none

section Fetch

variable (s : System)

theorem held_setFetch {t : Task} {f : Fetch} {t' : Task} {work : Stamped}
    (h : work ∈ (s.setFetch t f).held t') : f = .answered (.ok work) ∨ work ∈ s.held t' := by
  have hfetch : (s.setFetch t f).fetch t' = f ∨ (s.setFetch t f).fetch t' = s.fetch t' := by
    cases t with
    | poll => cases t' <;> simp [setFetch, fetch]
    | refresh =>
        cases hh : s.handler with
        | refreshing r => cases t' <;> simp [setFetch, fetch, hh]
        | idle => simp [setFetch, hh]
        | building tip => simp [setFetch, hh]
  unfold held at h ⊢
  rcases hfetch with hf | hf
  · left
    rw [hf] at h
    split at h
    · cases h
      rfl
    · cases h
  · right
    rwa [hf] at h

theorem setFetch_frame (t : Task) (f : Fetch) :
    (s.setFetch t f).node = s.node ∧ (s.setFetch t f).work = s.work ∧
      (s.setFetch t f).installs = s.installs := by
  unfold setFetch
  split
  · exact ⟨rfl, rfl, rfl⟩
  · split <;> exact ⟨rfl, rfl, rfl⟩

end Fetch

/-- A step that leaves `work` alone: the answers on their way are old ones, or the node's own. -/
structure Leaves (s s' : System) : Prop where
  work : s'.work = s.work
  installs : s'.installs = s.installs
  node : s.node.version ≤ s'.node.version
  held : ∀ t, ∀ work ∈ s'.held t, work ∈ s.held t ∨ work = s.node

/-- A step in which task `t` installs `new`; the other task keeps the answer it may have. -/
structure Writes (s s' : System) (t : Task) (new : Stamped) : Prop where
  installing : new ∈ s.installing t
  work : s'.work = new
  installs : s'.installs = s.installs ++ [new]
  node : s'.node = s.node
  held : ∀ t', ∀ other ∈ s'.held t', t' = t.other ∧ other ∈ s.held t'

theorem Leaves.refl (s : System) : Leaves s s :=
  ⟨rfl, rfl, le_rfl, fun _ _ h => .inl h⟩

theorem leaves_setFetch (s : System) (t : Task) {f : Fetch}
    (hf : ∀ work, f = .answered (.ok work) → work = s.node) : Leaves s (s.setFetch t f) := by
  obtain ⟨hnode, hwork, hinstalls⟩ := s.setFetch_frame t f
  refine ⟨hwork, hinstalls, by rw [hnode], ?_⟩
  intro t' work h
  rcases s.held_setFetch h with hf' | hold
  · exact .inr (hf work hf')
  · exact .inl hold

/-- A refresh that goes on has no answer on its way. -/
theorem receive_again {r r' : Refresh} {answer : Except String Stamped}
    (h : r.receive answer = .again r') : r'.fetch = .idle := by
  have hnext : ∀ r : Refresh, r.next = .again r' → r'.fetch = .idle := by
    intro r hr
    unfold Refresh.next at hr
    split at hr
    · cases hr
      rfl
    · obtain ⟨reason, hfail⟩ := Refresh.finish_of_unchanged r.lastError r.unchanged
      rw [hfail] at hr
      cases hr
  cases answer with
  | error e => exact hnext _ h
  | ok work =>
      by_cases hw : tipChanged r.previousTip work.selection = true
      · rw [Refresh.receive, dif_pos hw, Refresh.finish_of_changed _ hw] at h
        cases h
      · rw [Refresh.receive, dif_neg hw] at h
        exact hnext _ h

/-- A task that has its answer, or has none, keeps nothing of it. -/
theorem leaves_handler (s : System) (handler : Handler) (running : Bool)
    (hidle : ∀ r, handler = .refreshing r → ∀ work, r.fetch ≠ .answered (.ok work)) :
    Leaves s { s with handler := handler, running := running } := by
  refine ⟨rfl, rfl, le_rfl, ?_⟩
  intro t work h
  cases t with
  | poll => exact .inl h
  | refresh =>
      cases handler with
      | refreshing r =>
          simp only [held, fetch] at h
          split at h
          next heq => exact absurd heq (hidle r rfl _)
          · cases h
      | idle => simp [held, fetch] at h
      | building tip => simp [held, fetch] at h

theorem receivePoll_effect {s : System} {answer : Except String Stamped}
    (h : s.poll = .answered answer) :
    Leaves s (s.receivePoll answer) ∨ ∃ new, Writes s (s.receivePoll answer) .poll new := by
  cases answer with
  | error e =>
      left
      refine ⟨rfl, rfl, le_rfl, ?_⟩
      intro t work hheld
      cases t with
      | poll => simp [receivePoll, held, fetch] at hheld
      | refresh => exact .inl hheld
  | ok work =>
      right
      refine ⟨work, ?_, rfl, rfl, rfl, ?_⟩
      · simp [installing, held, fetch, h]
      · intro t' other hheld
        cases t' with
        | poll => simp [receivePoll, install, held, fetch] at hheld
        | refresh => exact ⟨rfl, hheld⟩

theorem receiveRefresh_effect {s : System} {r : Refresh} {answer : Except String Stamped}
    (hr : s.handler = .refreshing r) (h : r.fetch = .answered answer) :
    Leaves s (s.receiveRefresh r answer) ∨
      ∃ new, Writes s (s.receiveRefresh r answer) .refresh new := by
  unfold receiveRefresh
  cases hout : r.receive answer with
  | again r' =>
      left
      refine leaves_handler s (.refreshing r') s.running ?_
      rintro _ ⟨rfl⟩ work hwork
      rw [receive_again hout] at hwork
      cases hwork
  | fail reason =>
      left
      exact leaves_handler s .idle false (fun r h => nomatch h)
  | install work =>
      right
      obtain ⟨rfl, hchanged⟩ := Refresh.receive_eq_install.mp hout
      refine ⟨work, ?_, rfl, rfl, rfl, ?_⟩
      · simp [installing, hr, held, fetch, h, hchanged]
      · intro t' other hheld
        cases t' with
        | poll => exact ⟨rfl, hheld⟩
        | refresh => simp [install, held, fetch] at hheld

/-- What one step does to `work` and to the answers on their way. -/
theorem step_work (s : System) (e : Event) :
    Leaves s (s.step e) ∨ ∃ t new, e = .receive t ∧ Writes s (s.step e) t new := by
  cases e with
  | commit selection => exact .inl ⟨rfl, rfl, Nat.le_succ _, fun _ _ h => .inl h⟩
  | request t =>
      simp only [step]
      split
      · exact .inl (leaves_setFetch s t (fun _ h => nomatch h))
      · exact .inl (.refl s)
  | answer t =>
      simp only [step]
      split
      · refine .inl (leaves_setFetch s t ?_)
        rintro work ⟨rfl⟩
        rfl
      · exact .inl (.refl s)
  | fail t e =>
      simp only [step]
      split
      · exact .inl (.refl s)
      · exact .inl (leaves_setFetch s t (fun _ h => nomatch h))
  | receive t =>
      cases t with
      | poll =>
          simp only [step]
          split
          next answer h =>
            rcases receivePoll_effect h with hl | ⟨new, hw⟩
            · exact .inl hl
            · exact .inr ⟨.poll, new, rfl, hw⟩
          · exact .inl (.refl s)
      | refresh =>
          simp only [step]
          split
          next r hr =>
            split
            next answer h =>
              rcases receiveRefresh_effect hr h with hl | ⟨new, hw⟩
              · exact .inl hl
              · exact .inr ⟨.refresh, new, rfl, hw⟩
            · exact .inl (.refl s)
          · exact .inl (.refl s)
  | newTemplate tip =>
      simp only [step]
      split
      · split
        · refine .inl (leaves_handler s _ s.running ?_)
          rintro _ ⟨rfl⟩ work hwork
          cases hwork
        · exact .inl (.refl s)
      · exact .inl (.refl s)
  | buildJob =>
      simp only [step]
      split
      · exact .inl ⟨rfl, rfl, le_rfl, fun _ _ h => .inl h⟩
      · exact .inl (.refl s)
  | finishTemplate =>
      simp only [step]
      split
      · exact .inl (leaves_handler s .idle s.running (fun _ h => nomatch h))
      · exact .inl (.refl s)
  | dropHandler => exact .inl (leaves_handler s .idle s.running (fun _ h => nomatch h))

/-! ### The order of the installed selections -/

/-- The `n`-th commit of a node, on a tip. -/
def commitOn (n : Nat) (tip : String) : Stamped := ⟨n, Reference.selection tip []⟩

/-- The refresh for a template on `tip`, up to its answer. -/
def refreshOn (tip : String) : List Event :=
  [.newTemplate tip.toList, .answer .refresh, .receive .refresh]

/-- The condition on one step: a task that installs a selection does not overtake the other one,
which has no answer on its way that the node gave before. -/
def InOrder (s : System) : Event → Prop
  | .receive t => ∀ new ∈ s.installing t, ∀ other ∈ s.held t.other, new.version ≤ other.version
  | _ => True

instance (s : System) : ∀ e : Event, Decidable (s.InOrder e)
  | .receive t =>
      inferInstanceAs (Decidable
        (∀ new ∈ s.installing t, ∀ other ∈ s.held t.other, new.version ≤ other.version))
  | .commit _ | .request _ | .answer _ | .fail _ _ | .newTemplate _ | .buildJob
  | .finishTemplate | .dropHandler => isTrue trivial

/-- The selections `work` has held get no older, and no answer on its way is older than `work`. -/
structure Ordered (s : System) : Prop where
  installs : s.installs.Pairwise fun a b => a.version ≤ b.version
  newest : ∀ a ∈ s.installs, a.version ≤ s.work.version
  node : s.work.version ≤ s.node.version
  held : ∀ t, ∀ a ∈ s.held t, s.work.version ≤ a.version ∧ a.version ≤ s.node.version

theorem ordered_connect (node : Stamped) : Ordered (connect node) where
  installs := List.pairwise_singleton _ _
  newest := by simp [connect]
  node := le_rfl
  held := by
    intro t a h
    cases t <;> simp [connect, held, fetch] at h

theorem Ordered.leaves {s s' : System} (h : Ordered s) (hl : Leaves s s') : Ordered s' where
  installs := hl.installs ▸ h.installs
  newest := by
    intro a ha
    rw [hl.installs] at ha
    rw [hl.work]
    exact h.newest a ha
  node := by
    rw [hl.work]
    exact h.node.trans hl.node
  held := by
    intro t a ha
    rw [hl.work]
    rcases hl.held t a ha with hold | rfl
    · exact ⟨(h.held t a hold).1, (h.held t a hold).2.trans hl.node⟩
    · exact ⟨h.node, hl.node⟩

theorem held_of_installing {s : System} {t : Task} {new : Stamped} (h : new ∈ s.installing t) :
    new ∈ s.held t := by
  unfold installing at h
  split at h
  · exact h
  · exact (Option.mem_filter_iff.mp h).1
  · cases h

theorem Ordered.writes {s s' : System} (h : Ordered s) {t : Task} {new : Stamped}
    (hw : Writes s s' t new) (hin : s.InOrder (.receive t)) : Ordered s' := by
  obtain ⟨hnew, hnode⟩ := h.held t new (held_of_installing hw.installing)
  constructor
  case installs =>
    rw [hw.installs, List.pairwise_append]
    refine ⟨h.installs, List.pairwise_singleton _ _, ?_⟩
    intro a ha b hb
    rw [List.mem_singleton] at hb
    exact hb ▸ (h.newest a ha).trans hnew
  case newest =>
    intro a ha
    rw [hw.installs, List.mem_append, List.mem_singleton] at ha
    rw [hw.work]
    rcases ha with hold | rfl
    · exact (h.newest a hold).trans hnew
    · exact le_rfl
  case node =>
    rw [hw.work, hw.node]
    exact hnode
  case held =>
    intro t' a ha
    obtain ⟨rfl, hold⟩ := hw.held t' a ha
    rw [hw.work, hw.node]
    exact ⟨hin new hw.installing a hold, (h.held _ a hold).2⟩

theorem ordered_step {s : System} {e : Event} (h : Ordered s) (he : s.InOrder e) :
    Ordered (s.step e) := by
  rcases s.step_work e with hl | ⟨t, new, rfl, hw⟩
  · exact h.leaves hl
  · exact h.writes hw he

/-- Along every run in which no task overtakes the other, `work` is never replaced by a selection
that the node gave before the installed one. -/
theorem work_never_replaced_by_older (node : Stamped) {es : List Event}
    (hes : Runs.Along step InOrder (connect node) es) :
    (Runs.exec step (connect node) es).installs.Pairwise fun a b => a.version ≤ b.version :=
  (Runs.exec_induct (fun _ _ h he => ordered_step h he) (ordered_connect node) hes).installs

/-- A poll that is answered after the refresh was installed. -/
theorem poll_after_refresh_in_order :
    let es := .commit (commitOn 1 "b").selection ::
      (refreshOn "b" ++ [.request .poll, .answer .poll, .receive .poll])
    Runs.Along step InOrder (connect (commitOn 0 "a")) es ∧
      (Runs.exec step (connect (commitOn 0 "a")) es).installs.Pairwise
        fun a b => a.version ≤ b.version := by
  intro es
  have hes : Runs.Along step InOrder (connect (commitOn 0 "a")) es := by decide +kernel
  exact ⟨hes, work_never_replaced_by_older _ hes⟩

/-- The poll is answered, the node commits the next block, the refresh for it is installed, and then
the answer of the poll arrives. -/
theorem slow_poll_overwrites_refresh :
    let es := [.request .poll, .answer .poll, .commit (commitOn 1 "b").selection] ++
      (refreshOn "b" ++ [.receive .poll])
    let s := Runs.exec step (connect (commitOn 0 "a")) es
    s.installs = [commitOn 0 "a", commitOn 1 "b", commitOn 0 "a"] ∧ s.work = commitOn 0 "a" ∧
      ¬ s.installs.Pairwise fun a b => a.version ≤ b.version := by
  decide +kernel

/-! ### The tip of the installed selection -/

/-- A selection a refresh may be answered with: it is for the tip of the template, or it does not
change the tip and the refresh goes on. -/
def fitsRefresh (r : Refresh) (work : Stamped) : Bool :=
  work.selection.currentTipBlockHash = some r.tip || !tipChanged r.previousTip work.selection

/-- The condition on one step: when the node answers a refresh, it is on the tip of the template or
on the tip of the refresh before; and the poll receives no selection for another tip while the jobs
of a template are built. -/
def OnTip (s : System) : Event → Prop
  | .answer .refresh =>
      match s.handler with
      | .refreshing r => fitsRefresh r s.node = true
      | _ => True
  | .receive .poll =>
      match s.handler with
      | .building tip => ∀ work ∈ s.held .poll, work.selection.currentTipBlockHash = some tip
      | _ => True
  | _ => True

instance (s : System) : ∀ e : Event, Decidable (s.OnTip e)
  | .answer .refresh =>
      match h : s.handler with
      | .refreshing r =>
          decidable_of_iff (fitsRefresh r s.node = true) (by simp [OnTip, h])
      | .idle | .building _ => isTrue (by simp [OnTip, h])
  | .receive .poll =>
      match h : s.handler with
      | .building tip =>
          decidable_of_iff (∀ work ∈ s.held .poll, work.selection.currentTipBlockHash = some tip)
            (by simp [OnTip, h])
      | .idle | .refreshing _ => isTrue (by simp [OnTip, h])
  | .answer .poll | .receive .refresh | .commit _ | .request _ | .fail _ _ | .newTemplate _
  | .buildJob | .finishTemplate | .dropHandler => isTrue trivial

/-- Every refresh installed a selection for the tip of its template, and so did every job read
one. -/
structure AtTip (s : System) : Prop where
  refreshed : ∀ x ∈ s.refreshed, x.2.selection.currentTipBlockHash = some x.1
  jobs : ∀ x ∈ s.jobs, x.2.selection.currentTipBlockHash = some x.1
  building : ∀ tip, s.handler = .building tip → s.work.selection.currentTipBlockHash = some tip
  answered : ∀ r work, s.handler = .refreshing r → r.fetch = .answered (.ok work) →
    fitsRefresh r work = true

theorem atTip_connect (node : Stamped) : AtTip (connect node) where
  refreshed := by simp [connect]
  jobs := by simp [connect]
  building := by simp [connect]
  answered := by simp [connect]

/-- A step that builds no job and installs nothing: the handler is not among the jobs unless it was,
and a new answer to its refresh fits. -/
theorem AtTip.frame {s s' : System} (h : AtTip s) (hrefreshed : s'.refreshed = s.refreshed)
    (hjobs : s'.jobs = s.jobs) (hwork : s'.work = s.work)
    (hbuilding : ∀ tip, s'.handler = .building tip → s.handler = .building tip)
    (hanswered : ∀ r work, s'.handler = .refreshing r → r.fetch = .answered (.ok work) →
      fitsRefresh r work = true) : AtTip s' where
  refreshed := hrefreshed ▸ h.refreshed
  jobs := hjobs ▸ h.jobs
  building := fun tip htip => hwork ▸ h.building tip (hbuilding tip htip)
  answered := hanswered

/-- The handler is dropped, or is done with its template. -/
theorem AtTip.idle {s : System} (h : AtTip s) (running : Bool) :
    AtTip { s with handler := .idle, running := running } :=
  h.frame rfl rfl rfl (fun _ h => nomatch h) (fun _ _ h => nomatch h)

theorem AtTip.setFetch {s : System} (h : AtTip s) (t : Task) {f : Fetch}
    (hf : t = .refresh → ∀ r work, s.handler = .refreshing r → f = .answered (.ok work) →
      fitsRefresh r work = true) : AtTip (s.setFetch t f) := by
  unfold System.setFetch
  split
  · exact h.frame rfl rfl rfl (fun _ h => h) h.answered
  · split
    next r hr =>
      refine h.frame rfl rfl rfl (fun _ h => nomatch h) ?_
      rintro _ work ⟨rfl⟩ hwork
      exact hf rfl r work hr hwork
    · exact h

theorem AtTip.receivePoll {s : System} (h : AtTip s) {answer : Except String Stamped}
    (hpoll : s.poll = .answered answer) (hon : s.OnTip (.receive .poll)) :
    AtTip (s.receivePoll answer) := by
  cases answer with
  | error e => exact h.frame rfl rfl rfl (fun _ h => h) h.answered
  | ok work =>
      refine ⟨h.refreshed, h.jobs, ?_, h.answered⟩
      intro tip htip
      have htip : s.handler = .building tip := htip
      simp only [OnTip, htip] at hon
      exact hon work (by simp [held, fetch, hpoll])

theorem AtTip.receiveRefresh {s : System} (h : AtTip s) {r : Refresh}
    {answer : Except String Stamped} (hr : s.handler = .refreshing r)
    (hfetch : r.fetch = .answered answer) : AtTip (s.receiveRefresh r answer) := by
  unfold System.receiveRefresh
  cases hout : r.receive answer with
  | again r' =>
      refine h.frame rfl rfl rfl (fun _ h => nomatch h) ?_
      rintro _ work ⟨rfl⟩ hwork
      rw [receive_again hout] at hwork
      cases hwork
  | fail reason => exact h.idle false
  | install work =>
      obtain ⟨rfl, hchanged⟩ := Refresh.receive_eq_install.mp hout
      have htip : work.selection.currentTipBlockHash = some r.tip := by
        simpa [fitsRefresh, hchanged] using h.answered r work hr hfetch
      refine ⟨?_, h.jobs, ?_, fun _ _ h => nomatch h⟩
      · intro x hx
        rcases List.mem_append.mp hx with hold | hnew
        · exact h.refreshed x hold
        · rw [List.mem_singleton] at hnew
          exact hnew ▸ htip
      · rintro tip ⟨rfl⟩
        exact htip

theorem atTip_step {s : System} {e : Event} (h : AtTip s) (he : s.OnTip e) : AtTip (s.step e) := by
  cases e with
  | commit selection => exact h.frame rfl rfl rfl (fun _ h => h) h.answered
  | request t =>
      simp only [step]
      split
      · exact h.setFetch t (fun _ _ _ _ h => nomatch h)
      · exact h
  | answer t =>
      simp only [step]
      split
      · refine h.setFetch t ?_
        rintro rfl r work hr ⟨rfl⟩
        simpa only [OnTip, hr] using he
      · exact h
  | fail t e =>
      simp only [step]
      split
      · exact h
      · exact h.setFetch t (fun _ _ _ _ h => nomatch h)
  | receive t =>
      cases t with
      | poll =>
          simp only [step]
          split
          next answer hpoll => exact h.receivePoll hpoll he
          · exact h
      | refresh =>
          simp only [step]
          split
          next r hr =>
            split
            next answer hfetch => exact h.receiveRefresh hr hfetch
            · exact h
          · exact h
  | newTemplate tip =>
      simp only [step]
      split
      · split
        · refine h.frame rfl rfl rfl (fun _ h => nomatch h) ?_
          rintro _ work ⟨rfl⟩ hwork
          cases hwork
        · exact h
      · exact h
  | buildJob =>
      simp only [step]
      split
      next tip htip =>
        refine ⟨h.refreshed, ?_, h.building, h.answered⟩
        intro x hx
        rcases List.mem_append.mp hx with hold | hnew
        · exact h.jobs x hold
        · rw [List.mem_singleton] at hnew
          exact hnew ▸ h.building tip htip
      · exact h
  | finishTemplate =>
      simp only [step]
      split
      · exact h.idle s.running
      · exact h
  | dropHandler => exact h.idle s.running

/-- Along every run in which the node answers a refresh from the tip of the template or from the tip
it had before, and no poll changes the tip while jobs are built: every refresh that succeeds
installs a selection for the tip of its template, and the jobs of the template are built from
selections for that tip. -/
theorem refreshed_work_is_for_tip (node : Stamped) {es : List Event}
    (hes : Runs.Along step OnTip (connect node) es) :
    let s := Runs.exec step (connect node) es
    (∀ x ∈ s.refreshed, x.2.selection.currentTipBlockHash = some x.1) ∧
      ∀ x ∈ s.jobs, x.2.selection.currentTipBlockHash = some x.1 := by
  have h := Runs.exec_induct (fun _ _ h he => atTip_step h he) (atTip_connect node) hes
  exact ⟨h.refreshed, h.jobs⟩

/-- The node is on the tip of the template when it is asked. -/
theorem refresh_on_template_tip :
    let es := .commit (commitOn 1 "b").selection :: (refreshOn "b" ++ [.buildJob, .finishTemplate])
    let s := Runs.exec step (connect (commitOn 0 "a")) es
    Runs.Along step OnTip (connect (commitOn 0 "a")) es ∧
      (∀ x ∈ s.refreshed, x.2.selection.currentTipBlockHash = some x.1) ∧
      ∀ x ∈ s.jobs, x.2.selection.currentTipBlockHash = some x.1 := by
  intro es s
  have hes : Runs.Along step OnTip (connect (commitOn 0 "a")) es := by decide +kernel
  exact ⟨hes, refreshed_work_is_for_tip _ hes⟩

/-- Two blocks follow each other quickly, and the node is on the second one when the template of the
first is handled. -/
theorem refresh_on_later_tip :
    let es := [.commit (commitOn 1 "b").selection, .commit (commitOn 2 "c").selection] ++
      (refreshOn "b" ++ [.buildJob, .finishTemplate])
    let s := Runs.exec step (connect (commitOn 0 "a")) es
    s.running = true ∧ s.refreshed = [("b".toList, commitOn 2 "c")] ∧
      s.jobs = [("b".toList, commitOn 2 "c")] ∧
      (commitOn 2 "c").selection.currentTipBlockHash ≠ some "b".toList := by
  decide +kernel

end System

end GridPoolSv2.Pool.WorkRefresh
