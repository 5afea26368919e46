import GridPoolSv2.Pool.Telemetry

/-!
# Pool.TelemetryLoss: shares that no batch brings to the node

A flush takes the aggregates out of the map before it posts them, and nothing brings them
back: when the node answers with an error status, or does not answer and has not taken the
batch in, the shares of the batch are in no map and in no batch of the node. A full proof
is spooled to disk instead and sent again until the node accepts it.

`Ledger` says where every recorded share is. `conserved_iff` reads off that no share is
missing, and none is counted twice, exactly in the runs whose posts were all accepted.
-/

namespace GridPoolSv2.Pool

open Runs (exec Along)

namespace TelemetryPool

variable {env : Env} {F : Type}

/-! ### The property

Every recorded share is counted once: in the map, in a post that waits for its answer, or in a batch
the node has. -/

/-- The accepted or rejected shares of an aggregate. -/
def shareCount (accepted : Bool) (item : TelemetryAggregate F) : Nat :=
  if accepted then item.acceptedShareCount else item.rejectedShareCount

/-- The accepted or rejected shares of a batch. -/
def batchCount (accepted : Bool) (p : TelemetryPost F) : Nat :=
  (p.batch.map fun entry =>
    if accepted then entry.acceptedShareCount else entry.rejectedShareCount).sum

/-- Accepted and rejected shares are in a batch the node has accepted, in the map, or in a post that
has no answer yet, and every recorded share is in one of them once. -/
structure Conserved (s : TelemetryPool env F) : Prop where
  counts : ∀ accepted, (s.delivered.map (batchCount accepted)).sum +
    Tally.total (shareCount accepted) s.telemetry + (s.posts.map (batchCount accepted)).sum =
      s.history.countP (·.accepted == accepted)
  once : s.history.Perm (s.window ++ (s.posts ++ s.delivered).flatMap (·.shares))

/-- The condition on a step: a post that is answered has been accepted by the node. -/
def NodeAccepts (s : TelemetryPool env F) : Event F → Prop
  | .answer i result => i < s.posts.length → result.accepted = true
  | _ => True

/-! ### Where the shares are -/

/-- Every recorded share is in the open window or in a post, and the map and the batches count their
shares. -/
structure Ledger (s : TelemetryPool env F) : Prop where
  window : ∀ accepted, Tally.total (shareCount accepted) s.telemetry =
    s.window.countP (·.accepted == accepted)
  sent : ∀ p ∈ s.sent, ∀ accepted, batchCount accepted p = p.shares.countP (·.accepted == accepted)
  history : s.history.Perm (s.window ++ s.sent.flatMap (·.shares))

theorem batchCount_telemetryBatch (accepted : Bool) (m : TelemetryMap F)
    (shares : List (RecordedShare F)) :
    batchCount accepted ⟨telemetryBatch m, shares⟩ = Tally.total (shareCount accepted) m := by
  unfold batchCount telemetryBatch Tally.total
  rw [List.map_map]
  rfl

theorem ledger_initial (manager : ChannelManager env.channels) :
    Ledger (initial (F := F) manager) where
  window := fun _ => rfl
  sent := fun _ hp => by cases hp
  history := List.Perm.refl _

theorem Ledger.handleAnswer {s : TelemetryPool env F} (h : Ledger s) (i : Nat)
    (result : PostResult) : Ledger (s.handleAnswer i result) := by
  obtain ⟨htelemetry, hwindow, hhistory⟩ := s.handleAnswer_frame i result
  have hsent := s.sent_handleAnswer i result
  refine ⟨?_, ?_, ?_⟩
  · rw [htelemetry, hwindow]
    exact h.window
  · intro p hp
    exact h.sent p (hsent.mem_iff.mp hp)
  · rw [hhistory, hwindow]
    exact h.history.trans ((hsent.flatMap_right _).symm.append_left _)

theorem Ledger.flushTelemetry {s : TelemetryPool env F} (h : Ledger s) :
    Ledger s.flushTelemetry := by
  unfold TelemetryPool.flushTelemetry
  split
  · exact h
  · have hsent : ∀ p : TelemetryPost F,
        (s.posts ++ [p] ++ (s.delivered ++ s.lost)).Perm (p :: s.sent) := by
      intro p
      rw [List.append_assoc]
      exact List.perm_middle
    refine ⟨fun _ => rfl, ?_, ?_⟩
    · intro p hp accepted
      rcases List.mem_cons.mp ((hsent _).mem_iff.mp hp) with rfl | hp
      · rw [batchCount_telemetryBatch, h.window]
      · exact h.sent p hp accepted
    · refine h.history.trans (List.Perm.symm ?_)
      exact (hsent _).flatMap_right _

/-- Without lost posts, the ledger is the conservation law. -/
theorem Ledger.conserved {s : TelemetryPool env F} (h : Ledger s) (hlost : s.lost = []) :
    Conserved s := by
  have hsent : s.sent = s.posts ++ s.delivered := by rw [TelemetryPool.sent, hlost, List.append_nil]
  have honce := h.history
  rw [hsent] at honce
  refine ⟨?_, honce⟩
  intro accepted
  have hcount : ∀ ps : List (TelemetryPost F), (∀ p ∈ ps, p ∈ s.sent) →
      (ps.map (batchCount accepted)).sum =
        (ps.flatMap (·.shares)).countP (·.accepted == accepted) := by
    intro ps hps
    rw [List.countP_flatMap]
    exact congrArg List.sum (List.map_congr_left fun p hp => h.sent p (hps p hp) accepted)
  rw [honce.countP_eq, List.countP_append, List.flatMap_append, List.countP_append, h.window,
    hcount s.posts fun p hp => by rw [hsent]; exact List.mem_append_left _ hp,
    hcount s.delivered fun p hp => by rw [hsent]; exact List.mem_append_right _ hp]
  omega

variable [Zero F] [Add F] [Max F]

theorem shareCount_addShare (accepted : Bool) (old : Option (TelemetryAggregate F))
    (x : RecordedShare F) :
    shareCount accepted (addShare old x) =
      old.elim 0 (shareCount accepted) + if x.accepted == accepted then 1 else 0 := by
  cases accepted with
  | true => exact addShare_accepted old x
  | false => exact addShare_rejected old x

theorem Ledger.handleShare {s : TelemetryPool env F} (h : Ledger s) (k : ChannelKind)
    (d : DownstreamId) (c : ChannelId) (verdict : ShareVerdict F) (now : Nat) :
    Ledger (s.handleShare k d c verdict now) := by
  unfold TelemetryPool.handleShare
  split
  · refine ⟨?_, h.sent, h.history.cons _⟩
    intro accepted
    rw [List.countP_cons, ← h.window accepted]
    exact Tally.total_record _ _ (shareCount_addShare accepted) _ _
  · exact h

theorem ledger_step {s : TelemetryPool env F} (h : Ledger s) (e : Event F) : Ledger (s.step e) := by
  cases e with
  | manage e => exact ⟨h.window, h.sent, h.history⟩
  | share k d c verdict now => exact h.handleShare k d c verdict now
  | flush => exact h.flushTelemetry
  | answer i result => exact h.handleAnswer i result

/-! ### The condition -/

/-- A lost post has a share that is missing. -/
theorem Conserved.lost_eq_nil {s : TelemetryPool env F} (h : Conserved s) (hledger : Ledger s)
    (htallied : Tallied s) : s.lost = [] := by
  have hperm := h.once.symm.trans hledger.history
  have hlen := hperm.length_eq
  simp only [TelemetryPool.sent, List.flatMap_append, List.length_append] at hlen
  have hshares : s.lost.flatMap (·.shares) = [] := List.eq_nil_of_length_eq_zero (by omega)
  rw [List.flatMap_eq_nil_iff] at hshares
  cases hlost : s.lost with
  | nil => rfl
  | cons p ps =>
      have hmem : p ∈ s.lost := by
        rw [hlost]
        exact List.mem_cons_self
      have hp : p ∈ s.sent := List.mem_append_right _ (List.mem_append_right _ hmem)
      exact absurd (hshares p hmem) (htallied.sent p hp).nonempty

/-- A step loses nothing exactly when nothing was lost and the node accepts what it answers. -/
theorem lost_step (s : TelemetryPool env F) (e : Event F) :
    (s.step e).lost = [] ↔ s.lost = [] ∧ NodeAccepts s e := by
  cases e with
  | manage e => exact (and_iff_left trivial).symm
  | share k d c verdict now =>
      have hframe : (s.handleShare k d c verdict now).lost = s.lost := by
        unfold TelemetryPool.handleShare
        split <;> rfl
      show (s.handleShare k d c verdict now).lost = [] ↔ _
      rw [hframe]
      exact (and_iff_left trivial).symm
  | flush =>
      have hframe : s.flushTelemetry.lost = s.lost := by
        unfold TelemetryPool.flushTelemetry
        split <;> rfl
      show s.flushTelemetry.lost = [] ↔ _
      rw [hframe]
      exact (and_iff_left trivial).symm
  | answer i result =>
      show (s.handleAnswer i result).lost = [] ↔ _
      unfold TelemetryPool.handleAnswer NodeAccepts
      by_cases hi : i < s.posts.length
      · rw [List.getElem?_eq_getElem hi]
        cases haccepted : result.accepted with
        | true => simp [haccepted]
        | false => simp [hi, haccepted]
      · rw [List.getElem?_eq_none (Nat.le_of_not_lt hi)]
        simp [hi]

/-- Nothing is lost exactly if the node accepts every post. -/
theorem lost_exec (s : TelemetryPool env F) (es : List (Event F)) :
    (exec step s es).lost = [] ↔ s.lost = [] ∧ Along step NodeAccepts s es := by
  induction es generalizing s with
  | nil => exact (and_iff_left trivial).symm
  | cons e es ih =>
      rw [Runs.exec_cons, ih, lost_step, Runs.along_cons, and_assoc]

/-- In every run: no share is missing and none is counted twice **exactly** when the node has
accepted every post that was answered. -/
theorem conserved_iff (manager : ChannelManager env.channels) (es : List (Event F)) :
    Conserved (exec step (initial manager) es) ↔ Along step NodeAccepts (initial manager) es := by
  have hledger : Ledger (exec step (initial manager) es) :=
    Runs.exec_invariant (I := Ledger) (fun _ e h => ledger_step h e) (ledger_initial manager) es
  have hlost := lost_exec (initial (F := F) manager) es
  constructor
  · intro h
    exact (hlost.mp (h.lost_eq_nil hledger (tallied_exec manager es))).2
  · intro h
    exact hledger.conserved (hlost.mpr ⟨rfl, h⟩)

/-- The node is busy when the first batch arrives. -/
theorem rejected_batch_lost :
    let s := exec step (initial Reference.manager)
      (twoConnections "attic-rig".toList "garage-rig".toList ++ [.answer 0 (.rejected 503)])
    s.history.length = 2 ∧ s.telemetry.entries = [] ∧ s.posts = [] ∧ s.delivered = [] ∧
      ¬Conserved s := by
  refine ⟨by decide +kernel, by decide +kernel, by decide +kernel, by decide +kernel, ?_⟩
  intro h
  have hcounts := h.counts true
  revert hcounts
  decide +kernel

end TelemetryPool

end GridPoolSv2.Pool
