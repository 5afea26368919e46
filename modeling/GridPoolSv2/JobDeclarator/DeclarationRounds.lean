import GridPoolSv2.JobDeclarator.ErrorCleanup
import GridPoolSv2.JobDeclarator.MempoolMirror

/-!
# JobDeclarator.DeclarationRounds: declarations, their retries and the mirror

The job declarator together with the node side. A declaration takes one round, or two when
transactions are missing: the client then provides the ones at the listed positions and the
same declaration is validated again. Templates arrive at any time, during a round and
between the rounds, and so do the messages of the other clients.

* The node side takes a request up (`processRequest`), asks Bitcoin Core (`checkBlock`),
  refreshes the mirror when the block was rejected (`refresh`) and answers; the answer
  travels to the engine (`deliver`). Each is an event of its own.
* `tipChanges`, `sampledAt` and `firstRounds` are **ghost** fields: how often the mirror
  changed its tip, how often it had when the request in flight was taken up, and what was
  found missing in the first round of a declaration. Nothing reads them.

The module has no result of its own. `Rounds` is what `JobDeclarator.StaleTip` and
`JobDeclarator.MissingTransactions` share: every state ties the declaration in flight to the
samples of the mirror it was, and will be, compared with.
-/

namespace GridPoolSv2.JobDeclarator

open Runs
open Consensus (Bytes Transaction)
open Function (update)

/-! ### What a message does to the declarations under way

The messages of the clients go on while the node is busy. They may take a declaration out of the
pending ones, never put one in. -/

/-- What a step other than the node's answer does: the declaration in flight stays, a retry was a
pending declaration of its client, and no declaration becomes pending. -/
structure Proceeds (s s' : Declarator) : Prop where
  kept : ∀ f, s.inFlight = some f → s'.inFlight = some f
  started : ∀ f, s'.inFlight = some f → s.inFlight = some f ∨
    s.inFlight = none ∧ (f.retry = true → ∃ r, Pending s f.client r f.declaration)
  pending : ∀ c r d, Pending s' c r d → Pending s c r d

section Proceeds

variable {s s' : Declarator}

theorem ClientStep.proceeds (h : ClientStep s s') : Proceeds s s' := by
  cases h with
  | stays hflight hpending =>
      exact ⟨fun f hf => hflight.trans hf, fun f hf => .inl (hflight ▸ hf), hpending⟩
  | starts f hidle hflight htoken hfound hpending =>
      refine ⟨?_, ?_, hpending⟩
      · intro g hg
        rw [hidle] at hg
        cases hg
      · intro g hg
        obtain rfl := Option.some.inj (hflight.symm.trans hg)
        refine .inr ⟨hidle, ?_⟩
        intro hretry
        rcases hfound with ⟨hfirst, -⟩ | ⟨-, hpending⟩
        · rw [hretry] at hfirst
          cases hfirst
        · exact hpending

theorem proceeds_step (hash : Bytes → Bytes) (s : Declarator) {e : Declarator.Event}
    (he : ClientSide e) : Proceeds s (s.step hash e) :=
  (clientStep_step hash s he).proceeds

/-- The node's answer makes the first round of a declaration pending, if transactions are
missing. -/
theorem pending_handleNodeAnswer {f : InFlight} {response : JdResponse} {c : DownstreamId}
    {r : RequestId} {d : DeclareMiningJob} (h : Pending (s.handleNodeAnswer f response) c r d) :
    (Pending s c r d ∧ ∀ missing ctx, response = .missingTransactions missing ctx →
      f.retry = false → c = f.client → r ≠ f.declaration.requestId) ∨
    c = f.client ∧ r = f.declaration.requestId ∧ d = f.declaration ∧ f.retry = false ∧
      ∃ missing ctx, response = .missingTransactions missing ctx := by
  unfold Declarator.handleNodeAnswer at h
  rcases pending_settle h with ⟨hold, hother⟩ | ⟨hc, hr, hd, hretry, missing, hresult⟩
  · refine .inl ⟨hold, ?_⟩
    rintro missing ctx rfl hretry
    refine hother missing ?_ hretry
    rw [hretry]
    rfl
  · refine .inr ⟨hc, hr, hd, hretry, ?_⟩
    cases response with
    | missingTransactions missing' ctx => exact ⟨missing', ctx, rfl⟩
    | success ctx txids => cases hresult
    | error code ctx => cases hresult
    | channelClosed => cases hresult

end Proceeds

/-! ### The system

The phases of the node side for the one request in flight, with the mirror and the ghosts. -/

/-- **Ghost.** The first round of a declaration: the mirror when the request was taken up, and how
often the tip had changed by then. -/
structure FirstRound where
  declaration : DeclareMiningJob
  initial : MempoolMirror
  tipChanges : Nat

/-- The transactions the first round did not find. -/
def FirstRound.missing (first : FirstRound) : List Bytes :=
  first.initial.verify first.declaration.wtxidList

/-- How far the node side is with the request in flight. -/
inductive NodePhase where
  | requested
  /-- `checkBlock` is under way. -/
  | checking (initial : MempoolMirror)
  /-- The block was rejected; the mirror is being refreshed. -/
  | refreshing (initial : MempoolMirror)
  | answered (answer : NodeAnswer)

/-- The sample taken with the request. -/
def NodePhase.initial? : NodePhase → Option MempoolMirror
  | .requested => none
  | .checking initial | .refreshing initial => some initial
  | .answered answer => answer.initial?

def NodePhase.isAnswered : NodePhase → Bool
  | .answered _ => true
  | _ => false

theorem NodePhase.exists_answer {p : NodePhase} (h : p.isAnswered = true) :
    ∃ answer, p = .answered answer := by
  cases p with
  | answered answer => exact ⟨answer, rfl⟩
  | requested | checking | refreshing => cases h

/-- The job declarator and the node side. -/
structure Jds where
  declarator : Declarator
  mirror : MempoolMirror
  phase : NodePhase := .requested
  /-- The transactions that came with the retry in flight. -/
  transactionList : List Bytes := []
  tipChanges : Nat := 0
  sampledAt : Nat := 0
  firstRounds : DownstreamId × RequestId → Option FirstRound := fun _ => none

/-- What `checkBlock` returns. -/
inductive CheckBlock where
  | accepted
  | rejected
  | failed
  deriving Repr, DecidableEq

namespace Jds

/-- What can happen next. -/
inductive Event where
  /-- An event of the job declarator other than those below. -/
  | message (e : Declarator.Event)
  /-- `ProvideMissingTransactions.Success`. -/
  | provide (c : DownstreamId) (r : RequestId) (transactionList : List Bytes)
  /-- The monitor has a new template. -/
  | templateUpdate (t : Template)
  /-- The node side takes the request up. -/
  | processRequest
  | checkBlock (result : CheckBlock)
  /-- The refresh after a rejection ends, with a template unless it failed. -/
  | refresh (t : Option Template)
  /-- The node side is gone. -/
  | closeChannel
  /-- The engine receives the answer. -/
  | deliver
  deriving Repr, DecidableEq

/-- A template reaches the mirror. -/
def updateMirror (hash : Bytes → Bytes) (s : Jds) (t : Template) : Jds :=
  { s with
    mirror := s.mirror.update hash t
    tipChanges :=
      if t.prevHash = s.mirror.context.prevHash then s.tipChanges else s.tipChanges + 1 }

/-- Add the missing transactions, sample the mirror, and look for the declared ones. Transactions
that do not decode are skipped. -/
def processRequest (hash : Bytes → Bytes) (s : Jds) (f : InFlight) : Jds :=
  let missingTxs := s.transactionList.filterMap fun raw => (Transaction.decode raw).map (·.1)
  let initial := s.mirror.addTransactions hash missingTxs
  { s with
    mirror := initial
    sampledAt := s.tipChanges
    phase :=
      if (initial.verify f.declaration.wtxidList).isEmpty then .checking initial
      else .answered (.missingTransactions initial) }

/-- What follows `checkBlock`. -/
def checked (initial : MempoolMirror) : CheckBlock → NodePhase
  | .accepted => .answered (.success initial)
  | .rejected => .refreshing initial
  | .failed => .answered (.internalError initial)

/-- The end of the refresh, and the second sample. -/
def refresh (hash : Bytes → Bytes) (s : Jds) (initial : MempoolMirror) (t : Option Template) :
    Jds :=
  let s := t.elim s (s.updateMirror hash)
  { s with phase := .answered (.rejected initial s.mirror) }

/-- **Ghost.** The first rounds after an answer. -/
def roundsAfter (s : Jds) (f : InFlight) : NodeAnswer → DownstreamId × RequestId → Option FirstRound
  | .missingTransactions initial =>
      if f.retry then s.firstRounds
      else update s.firstRounds (f.client, f.declaration.requestId)
        (some ⟨f.declaration, initial, s.sampledAt⟩)
  | _ => s.firstRounds

/-- The engine goes on with the answer, and the client gets its reply. -/
def deliver (hash : Bytes → Bytes) (s : Jds) (f : InFlight) (answer : NodeAnswer) : Jds :=
  { s with
    declarator := s.declarator.handleNodeAnswer f (answer.response hash f.declaration)
    phase := .requested
    transactionList := []
    firstRounds := s.roundsAfter f answer }

/-- A client provides transactions; they go to the node with the retry, if there is one. -/
def provide (hash : Bytes → Bytes) (s : Jds) (c : DownstreamId) (r : RequestId)
    (transactionList : List Bytes) : Jds :=
  let declarator := s.declarator.step hash (.provideMissingTransactionsSuccess c r)
  { s with
    declarator := declarator
    transactionList :=
      if s.declarator.inFlight.isNone && declarator.inFlight.isSome then transactionList
      else s.transactionList }

def step (hash : Bytes → Bytes) (s : Jds) : Event → Jds
  | .message (.nodeAnswer _) | .message (.provideMissingTransactionsSuccess _ _) => s
  | .message e => { s with declarator := s.declarator.step hash e }
  | .provide c r transactionList => s.provide hash c r transactionList
  | .templateUpdate t => s.updateMirror hash t
  | .processRequest =>
      match s.declarator.inFlight, s.phase with
      | some f, .requested => s.processRequest hash f
      | _, _ => s
  | .checkBlock result =>
      match s.phase with
      | .checking initial => { s with phase := checked initial result }
      | _ => s
  | .refresh t =>
      match s.phase with
      | .refreshing initial => s.refresh hash initial t
      | _ => s
  | .closeChannel =>
      if s.declarator.inFlight.isSome then { s with phase := .answered .channelClosed } else s
  | .deliver =>
      match s.declarator.inFlight, s.phase with
      | some f, .answered answer => s.deliver hash f answer
      | _, _ => s

/-- The mirror is filled before requests are accepted. -/
def initial (hash : Bytes → Bytes) (script : Bytes) (t : Template) : Jds where
  declarator := Declarator.initial script
  mirror := MempoolMirror.bootstrap hash t

/-! ### What is true of every state

`Rounds` relates the phase, the mirror and the ghosts. Each event has its lemma, and `rounds_step`
is their case distinction. -/

/-- What the sample of the request in flight has: it is not older than the mirror, and it has the
transactions that came with the retry and those the mirror has kept since the first round. -/
structure Sampled (hash : Bytes → Bytes) (s : Jds) (initial : MempoolMirror) : Prop where
  le : s.sampledAt ≤ s.tipChanges
  kept : s.sampledAt = s.tipChanges → ∀ w, initial.Has w → s.mirror.Has w
  provided : ∀ raw ∈ s.transactionList, ∀ tx rest, Transaction.decode raw = some (tx, rest) →
    initial.Has (hash tx.encode)
  first : ∀ k first, s.firstRounds k = some first → first.tipChanges ≤ s.sampledAt ∧
    (first.tipChanges = s.sampledAt →
      ∀ w ∈ first.declaration.wtxidList, w ∈ first.missing ∨ initial.Has w)
  found : ∀ f, s.declarator.inFlight = some f →
    (s.phase = .answered (.missingTransactions initial) ↔
      initial.verify f.declaration.wtxidList ≠ [])

/-- The invariant of all runs: pending declarations and retries have had a first round, and what the
mirror had in a first round it has until the tip changes. -/
structure Rounds (hash : Bytes → Bytes) (s : Jds) : Prop where
  idle : s.declarator.inFlight = none → s.phase = .requested
  pending : ∀ c r d, Pending s.declarator c r d → d.requestId = r ∧
    ∃ first, s.firstRounds (c, r) = some first ∧ first.declaration = d
  retry : ∀ f, s.declarator.inFlight = some f → f.retry = true →
    ∃ first, s.firstRounds (f.client, f.declaration.requestId) = some first ∧
      first.declaration = f.declaration
  known : ∀ k first, s.firstRounds k = some first → first.tipChanges ≤ s.tipChanges ∧
    (first.tipChanges = s.tipChanges →
      ∀ w ∈ first.declaration.wtxidList, w ∈ first.missing ∨ s.mirror.Has w)
  sampled : ∀ initial, s.phase.initial? = some initial → Sampled hash s initial

section Rounds

variable {hash : Bytes → Bytes} {s : Jds}

/-- A step of the clients, with or without provided transactions. -/
theorem Rounds.proceeds (h : Rounds hash s) {declarator : Declarator} {transactionList : List Bytes}
    (hp : Proceeds s.declarator declarator)
    (hlist : s.declarator.inFlight ≠ none → transactionList = s.transactionList) :
    Rounds hash { s with declarator := declarator, transactionList := transactionList } := by
  -- a request that is under way stays the one in flight
  have hbusy : ∀ initial, s.phase.initial? = some initial → s.declarator.inFlight ≠ none := by
    intro initial hinitial hidle
    rw [h.idle hidle] at hinitial
    cases hinitial
  refine ⟨?_, ?_, ?_, h.known, ?_⟩
  · intro hidle
    refine h.idle ?_
    cases hf : s.declarator.inFlight with
    | none => rfl
    | some f => exact absurd ((hp.kept f hf).symm.trans hidle) (by simp)
  · exact fun c r d hd => h.pending c r d (hp.pending c r d hd)
  · intro f hf hretry
    rcases hp.started f hf with hold | ⟨-, hpending⟩
    · exact h.retry f hold hretry
    · obtain ⟨r, hr⟩ := hpending hretry
      obtain ⟨rfl, hfirst⟩ := h.pending _ _ _ hr
      exact hfirst
  · intro initial hinitial
    have hs := h.sampled initial hinitial
    have hnot := hbusy initial hinitial
    refine ⟨hs.le, hs.kept, ?_, hs.first, ?_⟩
    · show ∀ raw ∈ transactionList, _
      rw [hlist hnot]
      exact hs.provided
    · intro f hf
      exact hs.found f ((hp.started f hf).resolve_right fun hnew => hnot hnew.1)

theorem Rounds.updateMirror (h : Rounds hash s) (t : Template) :
    Rounds hash (s.updateMirror hash t) := by
  have hle : s.tipChanges ≤ (s.updateMirror hash t).tipChanges := by
    unfold Jds.updateMirror
    dsimp only
    split
    · exact Nat.le_refl _
    · exact Nat.le_succ _
  -- as long as the tip is the same, the mirror keeps everything
  have hkeeps : s.tipChanges = (s.updateMirror hash t).tipChanges →
      ∀ w, s.mirror.Has w → (s.updateMirror hash t).mirror.Has w := by
    intro heq w hw
    refine hw.update ?_
    by_contra hne
    have hnew : (s.updateMirror hash t).tipChanges = s.tipChanges + 1 := if_neg hne
    omega
  refine ⟨h.idle, h.pending, h.retry, ?_, ?_⟩
  · intro k first hfirst
    obtain ⟨hle', hhas⟩ := h.known k first hfirst
    refine ⟨Nat.le_trans hle' hle, ?_⟩
    intro heq w hw
    exact (hhas (by omega) w hw).imp_right (hkeeps (by omega) w)
  · intro initial hinitial
    have hs := h.sampled initial hinitial
    refine ⟨Nat.le_trans hs.le hle, ?_, hs.provided, hs.first, hs.found⟩
    intro heq w hw
    have hle' := hs.le
    have heq' : s.sampledAt = (s.updateMirror hash t).tipChanges := heq
    exact hkeeps (by omega) w (hs.kept (by omega) w hw)

/-- A request is taken up: the mirror is sampled for the first time. -/
theorem Rounds.processRequest (h : Rounds hash s) {f : InFlight}
    (hf : s.declarator.inFlight = some f) : Rounds hash (s.processRequest hash f) := by
  let missingTxs := s.transactionList.filterMap fun raw => (Transaction.decode raw).map (·.1)
  let initial := s.mirror.addTransactions hash missingTxs
  refine ⟨?_, h.pending, h.retry, ?_, ?_⟩
  · intro hidle
    exact absurd (hf.symm.trans hidle) (by simp)
  · intro k first hfirst
    obtain ⟨hle, hhas⟩ := h.known k first hfirst
    exact ⟨hle, fun heq w hw => (hhas heq w hw).imp_right (·.addTransactions missingTxs)⟩
  · intro initial' hinitial
    obtain rfl : initial = initial' := by
      simp only [Jds.processRequest] at hinitial
      split at hinitial <;> exact Option.some.inj hinitial
    refine ⟨Nat.le_refl _, fun _ _ => id, ?_, ?_, ?_⟩
    · intro raw hraw tx rest hdec
      refine MempoolMirror.has_addTransactions ?_
      exact List.mem_filterMap.mpr ⟨raw, hraw, by rw [hdec]; rfl⟩
    · intro k first hfirst
      obtain ⟨hle, hhas⟩ := h.known k first hfirst
      exact ⟨hle, fun heq w hw => (hhas heq w hw).imp_right (·.addTransactions missingTxs)⟩
    · intro g hg
      obtain rfl : f = g := Option.some.inj (hf.symm.trans hg)
      show (if (initial.verify f.declaration.wtxidList).isEmpty then NodePhase.checking initial
        else .answered (.missingTransactions initial)) = _ ↔ _
      by_cases hnone : initial.verify f.declaration.wtxidList = []
      · simp [hnone]
      · simp [hnone]

/-- The node side goes on with a sample it has. -/
theorem Rounds.phase (h : Rounds hash s) {initial : MempoolMirror} {p : NodePhase}
    (hold : s.phase.initial? = some initial) (hnew : p.initial? = some initial)
    (hmissing : ∀ m, s.phase ≠ .answered (.missingTransactions m) ∧
      p ≠ .answered (.missingTransactions m)) : Rounds hash { s with phase := p } := by
  have hs := h.sampled initial hold
  refine ⟨?_, h.pending, h.retry, h.known, ?_⟩
  · intro hidle
    rw [h.idle hidle] at hold
    cases hold
  · intro initial' hinitial
    obtain rfl : initial = initial' := Option.some.inj (hnew.symm.trans hinitial)
    refine ⟨hs.le, hs.kept, hs.provided, hs.first, ?_⟩
    intro f hf
    refine iff_of_false (hmissing initial).2 ?_
    rw [← hs.found f hf]
    exact (hmissing initial).1

/-- The block was rejected, and the mirror is sampled again. -/
theorem Rounds.refresh (h : Rounds hash s) {initial : MempoolMirror}
    (hphase : s.phase = .refreshing initial) (t : Option Template) :
    Rounds hash (s.refresh hash initial t) := by
  have hupdated : Rounds hash (t.elim s (s.updateMirror hash)) ∧
      (t.elim s (s.updateMirror hash)).phase = .refreshing initial := by
    cases t with
    | none => exact ⟨h, hphase⟩
    | some t => exact ⟨h.updateMirror t, hphase⟩
  refine @Rounds.phase _ _ hupdated.1 initial _ ?_ rfl ?_
  · rw [hupdated.2]
    rfl
  · intro m
    rw [hupdated.2]
    exact ⟨by simp, by simp⟩

theorem Rounds.closeChannel (h : Rounds hash s) (hbusy : s.declarator.inFlight.isSome) :
    Rounds hash { s with phase := .answered .channelClosed } := by
  refine ⟨?_, h.pending, h.retry, h.known, ?_⟩
  · intro hidle
    rw [show s.declarator.inFlight = none from hidle] at hbusy
    cases hbusy
  · intro initial hinitial
    cases hinitial

/-- An answer records a first round for its own declaration at most. -/
theorem roundsAfter_of_ne {f : InFlight} {answer : NodeAnswer} {k : DownstreamId × RequestId}
    (h : ∀ initial, answer = .missingTransactions initial → f.retry = false →
      k ≠ (f.client, f.declaration.requestId)) : s.roundsAfter f answer k = s.firstRounds k := by
  cases answer with
  | missingTransactions initial =>
      unfold Jds.roundsAfter
      dsimp only
      split
      · rfl
      · rename_i hretry
        exact Function.update_of_ne (h initial rfl (Bool.eq_false_iff.mpr hretry)) _ _
  | success | rejected | internalError | channelClosed => rfl

theorem roundsAfter_first {f : InFlight} (hretry : f.retry = false) (initial : MempoolMirror) :
    s.roundsAfter f (.missingTransactions initial) (f.client, f.declaration.requestId) =
      some ⟨f.declaration, initial, s.sampledAt⟩ := by
  unfold Jds.roundsAfter
  dsimp only
  rw [if_neg (by rw [hretry]; decide), Function.update_self]

theorem response_eq_missingTransactions {d : DeclareMiningJob} {answer : NodeAnswer}
    {missing : List Bytes} {ctx : ValidationContext}
    (h : answer.response hash d = .missingTransactions missing ctx) :
    ∃ initial, answer = .missingTransactions initial := by
  cases answer with
  | missingTransactions initial => exact ⟨initial, rfl⟩
  | success | rejected | internalError | channelClosed => cases h

theorem Rounds.deliver (h : Rounds hash s) (f : InFlight) {answer : NodeAnswer}
    (hphase : s.phase = .answered answer) : Rounds hash (s.deliver hash f answer) := by
  refine ⟨fun _ => rfl, ?_, ?_, ?_, fun initial hinitial => by cases hinitial⟩
  · intro c r d hd
    rcases pending_handleNodeAnswer hd with ⟨hold, hother⟩ | ⟨rfl, rfl, rfl, hretry, missing,
      ctx, hres⟩
    · obtain ⟨hr, first, hfirst, hsame⟩ := h.pending c r d hold
      refine ⟨hr, first, ?_, hsame⟩
      refine (roundsAfter_of_ne ?_).trans hfirst
      rintro initial rfl hretry heq
      obtain ⟨rfl, rfl⟩ := Prod.mk.inj heq
      exact hother _ _ rfl hretry rfl rfl
    · obtain ⟨initial, rfl⟩ := response_eq_missingTransactions hres
      exact ⟨rfl, ⟨f.declaration, initial, s.sampledAt⟩, roundsAfter_first hretry initial, rfl⟩
  · intro g hg
    have hidle : (s.deliver hash f answer).declarator.inFlight = none :=
      (settle_frame f _ _).2
    rw [hidle] at hg
    cases hg
  · intro k first hfirst
    by_cases hnew : ∃ initial, answer = .missingTransactions initial ∧ f.retry = false ∧
        k = (f.client, f.declaration.requestId)
    · obtain ⟨initial, rfl, hretry, rfl⟩ := hnew
      have hs := h.sampled initial (by rw [hphase]; rfl)
      obtain rfl := Option.some.inj ((roundsAfter_first hretry initial).symm.trans hfirst)
      refine ⟨hs.le, ?_⟩
      intro heq w hw
      by_cases hhas : initial.Has w
      · exact .inr (hs.kept heq w hhas)
      · exact .inl (MempoolMirror.mem_verify.mpr ⟨hw, hhas⟩)
    · refine h.known k first ((roundsAfter_of_ne ?_).symm.trans hfirst)
      intro initial hanswer hretry hk
      exact hnew ⟨initial, hanswer, hretry, hk⟩

theorem rounds_step (h : Rounds hash s) (e : Event) : Rounds hash (s.step hash e) := by
  cases e with
  | message e =>
      by_cases hskip : s.step hash (.message e) = s
      · rw [hskip]
        exact h
      · cases e with
        | nodeAnswer _ => exact absurd rfl hskip
        | provideMissingTransactionsSuccess _ _ => exact absurd rfl hskip
        | _ => exact h.proceeds (proceeds_step hash s.declarator trivial) fun _ => rfl
  | provide c r transactionList =>
      refine h.proceeds (proceeds_step hash s.declarator trivial) ?_
      intro hbusy
      rw [if_neg]
      simp [Option.isNone_iff_eq_none, hbusy]
  | templateUpdate t => exact h.updateMirror t
  | processRequest =>
      unfold Jds.step
      cases hf : s.declarator.inFlight with
      | none => exact h
      | some f =>
          cases hphase : s.phase with
          | requested => exact h.processRequest hf
          | checking | refreshing | answered => exact h
  | checkBlock result =>
      unfold Jds.step
      cases hphase : s.phase with
      | checking initial =>
          refine @Rounds.phase _ _ h initial _ (by rw [hphase]; rfl) ?_ ?_
          · cases result <;> rfl
          · intro m
            rw [hphase]
            cases result <;> exact ⟨by simp, by simp [checked]⟩
      | requested | refreshing | answered => exact h
  | refresh t =>
      unfold Jds.step
      cases hphase : s.phase with
      | refreshing initial => exact h.refresh hphase t
      | requested | checking | answered => exact h
  | closeChannel =>
      unfold Jds.step
      dsimp only
      split
      · rename_i hbusy
        exact h.closeChannel hbusy
      · exact h
  | deliver =>
      unfold Jds.step
      cases hf : s.declarator.inFlight with
      | none => exact h
      | some f =>
          cases hphase : s.phase with
          | answered answer => exact h.deliver f hphase
          | requested | checking | refreshing => exact h

theorem rounds_initial (hash : Bytes → Bytes) (script : Bytes) (t : Template) :
    Rounds hash (Jds.initial hash script t) where
  idle := fun _ => rfl
  pending := by
    rintro c r d ⟨client, x, hclient, -⟩
    cases hclient
  retry := fun f hf => by cases hf
  known := fun k first hfirst => by cases hfirst
  sampled := fun initial hinitial => by cases hinitial

/-- The state a run leads to. -/
abbrev reached (hash : Bytes → Bytes) (script : Bytes) (t : Template) (es : List Event) : Jds :=
  exec (step hash) (Jds.initial hash script t) es

theorem rounds_reached (hash : Bytes → Bytes) (script : Bytes) (t : Template) (es : List Event) :
    Rounds hash (reached hash script t es) :=
  exec_invariant (I := Rounds hash) (fun _ e h => rounds_step h e) (rounds_initial hash script t) es

end Rounds

end Jds

end GridPoolSv2.JobDeclarator
