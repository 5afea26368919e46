import GridPoolSv2.JobDeclarator.MissingTransactions

/-!
# JobDeclarator.StaleTip: how a rejected job is classified

A job that `checkBlock` rejects is answered with `stale-chain-tip`, which the client ignores,
or with `invalid-job`, on which it falls back. The classification is made **twice**: by the
node side, which compares the template before and after `checkBlock` and the declared
height, and by the engine, which compares the context it finds under the `request_id` with
the latest one.

Both compare `nbits` and `min_ntime` besides the previous hash, the node side also the
height. `min_ntime` is the time of the last template, which the refresh after a rejection
replaces. `rejection_classified_iff` says exactly when the code tells what happened to the
tip.
-/

namespace GridPoolSv2.JobDeclarator

open Runs
open Consensus (Bytes Transaction)

/-! ### What the client is told

`rejectionCode` is the code of both classifications together: the engine overrides the node side if
it finds another context. -/

/-- The code reads `stale-chain-tip`. -/
def ErrorCode.StaleChainTip : ErrorCode → Prop
  | .staleChainTip => True
  | .node code => code = staleChainTipCode
  | _ => False

namespace Jds

/-- The answer in flight makes the engine reply with an error. -/
def RepliesError (hash : Bytes → Bytes) (s : Jds) (f : InFlight) (code : ErrorCode) : Prop :=
  (s.step hash .deliver).declarator.outbox =
    (f.client, .declareMiningJobError f.declaration.requestId code) :: s.declarator.outbox

/-- The code of the reply to a rejected job. -/
def rejectionCode (f : InFlight) (initial latest : MempoolMirror) : ErrorCode :=
  if f.previous.any (validationContextDrifted · latest.context) then .staleChainTip
  else .node (if contextDrifted f.declaration initial latest then staleChainTipCode else
    invalidJobCode)

theorem repliesError_rejected {hash : Bytes → Bytes} {s : Jds} {f : InFlight}
    {initial latest : MempoolMirror} (hf : s.declarator.inFlight = some f)
    (hphase : s.phase = .answered (.rejected initial latest)) :
    RepliesError hash s f (rejectionCode f initial latest) := by
  have hstep : s.step hash .deliver = s.deliver hash f (.rejected initial latest) := by
    unfold Jds.step
    rw [hf, hphase]
  unfold RepliesError
  rw [hstep]
  rfl

/-- The code reads `stale-chain-tip` if anything of the template has changed, or if the context kept
under the `request_id` is not the latest one. -/
theorem staleChainTip_iff {f : InFlight} {initial latest : MempoolMirror} :
    (rejectionCode f initial latest).StaleChainTip ↔
      Noticed f latest ∨ ¬SameTemplate initial latest ∨
        declaredHeight f.declaration ≠ latest.bip34Height := by
  rw [← contextDrifted_iff]
  unfold rejectionCode Noticed
  rw [← any_drifted_iff]
  by_cases hprevious : f.previous.any (validationContextDrifted · latest.context) = true
  · simp [hprevious, ErrorCode.StaleChainTip]
  · by_cases hdrift : contextDrifted f.declaration initial latest = true
    · simp [hprevious, hdrift, ErrorCode.StaleChainTip]
    · simp [hprevious, hdrift, ErrorCode.StaleChainTip, staleChainTipCode, invalidJobCode]

/-- What is not called stale is called invalid. -/
theorem rejectionCode_of_not_stale {f : InFlight} {initial latest : MempoolMirror}
    (h : ¬(rejectionCode f initial latest).StaleChainTip) :
    rejectionCode f initial latest = .node invalidJobCode := by
  unfold rejectionCode at h ⊢
  split at h
  · exact absurd trivial h
  · rename_i hprevious
    rw [if_neg hprevious]
    split at h
    · exact absurd rfl h
    · rename_i hdrift
      rw [if_neg hdrift]

/-! ### What happened to the tip

`TipStale` speaks of the template of the first round and of the latest one. It is what the code is
meant to detect. -/

/-- The context of the first round of the declaration in flight. -/
def FirstContext (s : Jds) (f : InFlight) (initial : MempoolMirror) (ctx : ValidationContext) :
    Prop :=
  if f.retry then
    ∃ first, s.firstRounds (f.client, f.declaration.requestId) = some first ∧
      first.declaration = f.declaration ∧ ctx = first.initial.context
  else ctx = initial.context

/-- The tip is another one than in the first round, or the declared height is not the one of the
current template. -/
def TipStale (ctx : ValidationContext) (latest : MempoolMirror) (d : DeclareMiningJob) : Prop :=
  ctx.prevHash ≠ latest.context.prevHash ∨ declaredHeight d ≠ latest.bip34Height

/-- The contexts that are compared change with the tip and only with it. -/
structure FollowsTip (f : InFlight) (ctx : ValidationContext) (initial latest : MempoolMirror) :
    Prop where
  /-- On the same tip: the template of the round is the same, and so is the context that is kept. -/
  same : ctx.prevHash = latest.context.prevHash →
    SameTemplate initial latest ∧ ∀ previous ∈ f.previous, previous = latest.context
  /-- On another tip than in the first of two rounds: the template changes in the second round, or
  the context that is kept is not the latest. -/
  changed : f.retry = true → ctx.prevHash ≠ latest.context.prevHash →
    ¬SameTemplate initial latest ∨ Noticed f latest

/-- In one round, another tip is another template. -/
theorem not_sameTemplate {initial latest : MempoolMirror}
    (h : initial.context.prevHash ≠ latest.context.prevHash) : ¬SameTemplate initial latest := by
  intro hsame
  exact h (congrArg ValidationContext.prevHash hsame.1)

/-- The engine finds the context of the retry, or none. -/
theorem not_noticed_iff {f : InFlight} {latest : MempoolMirror} :
    ¬Noticed f latest ↔ ∀ previous ∈ f.previous, previous = latest.context := by
  simp [Noticed]

/-- The comparison of the code and the one of the tips agree. -/
theorem classified_iff {s : Jds} {f : InFlight} {ctx : ValidationContext}
    {initial latest : MempoolMirror} (hctx : FirstContext s f initial ctx) :
    ((rejectionCode f initial latest).StaleChainTip ↔ TipStale ctx latest f.declaration) ↔
      (declaredHeight f.declaration = latest.bip34Height → FollowsTip f ctx initial latest) := by
  rw [staleChainTip_iff]
  unfold TipStale
  by_cases hheight : declaredHeight f.declaration = latest.bip34Height
  · simp only [hheight, ne_eq, not_true_eq_false, or_false, true_imp_iff]
    constructor
    · intro h
      refine ⟨?_, ?_⟩
      · intro hsame
        have hquiet := mt h.mp (not_not.mpr hsame)
        rw [not_or, not_not, not_noticed_iff] at hquiet
        exact hquiet.symm
      · exact fun _ hchanged => (h.mpr hchanged).symm
    · intro h
      constructor
      · rintro htold hsame
        obtain ⟨htemplate, hkept⟩ := h.same hsame
        rcases htold with hnoticed | hother
        · exact not_noticed_iff.mpr hkept hnoticed
        · exact hother htemplate
      · intro hchanged
        cases hretry : f.retry with
        | true => exact (h.changed hretry hchanged).symm
        | false =>
            -- a single round compares the very contexts
            rw [FirstContext, hretry, if_neg (by decide)] at hctx
            rw [hctx] at hchanged
            exact .inr (not_sameTemplate hchanged)
  · simp [hheight]

/-! ### Two rejections -/

/-- The samples a rejection was made from. -/
def rejection? (s : Jds) : Option (MempoolMirror × MempoolMirror) :=
  match s.phase with
  | .answered (.rejected initial latest) => some (initial, latest)
  | _ => none

/-- The node side has answered with these two samples. -/
theorem phase_of_rejection? {s : Jds} {initial latest : MempoolMirror}
    (h : s.rejection? = some (initial, latest)) : s.phase = .answered
    (.rejected initial latest) := by
  unfold rejection? at h
  split at h
  · rename_i hphase
    obtain ⟨rfl, rfl⟩ := Prod.mk.inj (Option.some.inj h)
    exact hphase
  · cases h

/-- `checkBlock` rejects a job, and the refresh brings a template of the same tip. -/
def rejectedOnSameTip (time : UInt32) : List Event :=
  [.message (.connect 1), .message (.allocateMiningJobToken 1 1),
    .message (.declareMiningJob 1 (sampleDeclaration 5 0 [0x51])), .processRequest,
    .checkBlock .rejected, .refresh (some { sampleTemplate 9 [] with time := time })]

def sampleRound : InFlight where
  client := 1
  declaration := sampleDeclaration 5 0 [0x51]
  token := 0
  retry := false
  previous := none

/-- The job of the runs was rejected on the tip it was validated on, at the right height; the time
of the template is another. -/
def SampleRejected (s : Jds) (time : UInt32) : Prop :=
  s.declarator.inFlight = some sampleRound ∧ s.tipChanges = 0 ∧
    s.rejection?.map (fun x => (x.1.context, x.1.bip34Height, x.2.context, x.2.bip34Height)) =
      some (sampleContext, 200000, { sampleContext with minNtime := time }, 200000) ∧
    declaredHeight (sampleDeclaration 5 0 [0x51]) = 200000

instance (s : Jds) (time : UInt32) : Decidable (SampleRejected s time) :=
  inferInstanceAs (Decidable (_ ∧ _))

/-- The samples of the run differ in the time at most. -/
theorem SampleRejected.exists_samples {s : Jds} {time : UInt32} (h : SampleRejected s time) :
    ∃ initial latest, s.phase = .answered (.rejected initial latest) ∧
      initial.context = sampleContext ∧ latest.context = { sampleContext with minNtime := time } ∧
      initial.bip34Height = latest.bip34Height ∧
      declaredHeight (sampleDeclaration 5 0 [0x51]) = latest.bip34Height := by
  obtain ⟨-, -, hsamples, hdeclared⟩ := h
  obtain ⟨⟨initial, latest⟩, hrejection, hvalues⟩ := Option.map_eq_some_iff.mp hsamples
  simp only [Prod.mk.injEq] at hvalues
  obtain ⟨hinitial, hheight, hlatest, hheight'⟩ := hvalues
  refine ⟨initial, latest, phase_of_rejection? hrejection, hinitial, hlatest,
    hheight.trans hheight'.symm, hdeclared.trans hheight'.symm⟩

/-! ### The result -/

/-- **When the code tells what happened to the tip**: for every job that `checkBlock` rejects, in
any run. If the declared height is another it does; otherwise exactly when the contexts it compares
follow the tip. Any other rejection is `invalid-job`. -/
theorem rejection_classified_iff (hash : Bytes → Bytes) (script : Bytes) (t : Template)
    (es : List Event) {f : InFlight} {initial latest : MempoolMirror}
    (hf : (reached hash script t es).declarator.inFlight = some f)
    (hphase : (reached hash script t es).phase = .answered (.rejected initial latest)) :
    ∃ code ctx, RepliesError hash (reached hash script t es) f code ∧
      FirstContext (reached hash script t es) f initial ctx ∧
      (¬code.StaleChainTip → code = .node invalidJobCode) ∧
      ((code.StaleChainTip ↔ TipStale ctx latest f.declaration) ↔
        (declaredHeight f.declaration = latest.bip34Height → FollowsTip f ctx initial latest)) := by
  have hctx : ∃ ctx, FirstContext (reached hash script t es) f initial ctx := by
    unfold FirstContext
    cases hretry : f.retry with
    | true =>
        obtain ⟨first, hfirst, hsame⟩ := (rounds_reached hash script t es).retry f hf hretry
        exact ⟨first.initial.context, first, hfirst, hsame, rfl⟩
    | false => exact ⟨initial.context, rfl⟩
  obtain ⟨ctx, hctx⟩ := hctx
  exact ⟨rejectionCode f initial latest, ctx, repliesError_rejected hf hphase, hctx,
    rejectionCode_of_not_stale, classified_iff hctx⟩

/-- The refresh brings the same template. -/
theorem same_template_invalid_job :
    RepliesError Sha256.digestTwice
      (reached Sha256.digestTwice [0x51] (sampleTemplate 9 []) (rejectedOnSameTip 1700000000))
      sampleRound (.node invalidJobCode) := by
  have hrun : SampleRejected (reached Sha256.digestTwice [0x51] (sampleTemplate 9 [])
      (rejectedOnSameTip 1700000000)) 1700000000 := by decide +kernel
  obtain ⟨initial, latest, hphase, hinitial, hlatest, hsame, hheight⟩ := hrun.exists_samples
  obtain ⟨code, ctx, hreplies, hctx, hinvalid, hiff⟩ :=
    rejection_classified_iff Sha256.digestTwice [0x51] (sampleTemplate 9 [])
      (rejectedOnSameTip 1700000000) hrun.1 hphase
  obtain rfl : ctx = initial.context := hctx
  have hcontext : initial.context = latest.context := hinitial.trans hlatest.symm
  have hfollows : FollowsTip sampleRound initial.context initial latest :=
    ⟨fun _ => ⟨⟨hcontext, hsame⟩, fun _ h => by cases h⟩, fun h => by cases h⟩
  have hstale := (hiff.mpr fun _ => hfollows).mp
  obtain rfl := hinvalid fun h =>
    (hstale h).elim (fun htip => htip (congrArg _ hcontext)) fun hother => hother hheight
  exact hreplies

/-- The refresh brings a template with a later time. -/
theorem later_time_called_stale :
    let s := reached Sha256.digestTwice [0x51] (sampleTemplate 9 []) (rejectedOnSameTip 1700000001)
    s.declarator.inFlight = some sampleRound ∧ s.tipChanges = 0 ∧
      (∃ initial latest, s.phase = .answered (.rejected initial latest) ∧
        FirstContext s sampleRound initial initial.context ∧
        ¬TipStale initial.context latest sampleRound.declaration) ∧
      RepliesError Sha256.digestTwice s sampleRound (.node staleChainTipCode) := by
  have hrun : SampleRejected (reached Sha256.digestTwice [0x51] (sampleTemplate 9 [])
      (rejectedOnSameTip 1700000001)) 1700000001 := by decide +kernel
  refine ⟨hrun.1, hrun.2.1, ?_, by unfold RepliesError; decide +kernel⟩
  obtain ⟨initial, latest, hphase, hinitial, hlatest, -, hheight⟩ := hrun.exists_samples
  refine ⟨initial, latest, hphase, rfl, ?_⟩
  rw [TipStale, hinitial, hlatest]
  rintro (htip | hother)
  · exact htip rfl
  · exact hother hheight

end Jds

end GridPoolSv2.JobDeclarator
