import GridPoolSv2.JobDeclaratorClient.TokenSupply

/-!
# JobDeclaratorClient.PendingOpens: open requests that wait for the upstream channel

The first open request of a downstream makes the client ask the pool for a channel, and until that
is there all requests wait in `pending_downstream_requests`. With the channel the queue is taken out
whole, and its requests are handed to the mining handler one after the other.

* `established` is the first half of `handle_open_extended_mining_channel_success`, the part in
  which the channel is set up; the queue comes after it.
* `handedOver` are the requests an event hands to the mining handler. The loop over the queue ends
  with the first request that fails, so those behind it are lost; the request of a downstream that
  has disconnected is one that fails (`handleOpenMiningChannel_disconnected`).
* No other handler writes the queue or the state of the upstream (`LeavesQueue`).

`Opens` is the client with the requests that arrived, those that were handed over, and the number of
requests to the pool that are not answered.

Proof shape: `Moves` says of one event that the queue before it, with what came in, is what was
handed over and the queue after it. The count over a run is the sum of these equations, so the
run lemma needs no fact about single handlers.
-/

namespace GridPoolSv2.JobDeclaratorClient

open Consensus (Bytes TxOut)
open Visit Handler Runs

/-- The request an event brings. -/
def Event.openRequest? : Event → Option PendingChannelRequest
  | .openMiningChannel r _ => some r
  | _ => none

/-- The answers of the pool to a request for a channel. -/
def Event.answersOpen : Event → Bool
  | .openExtendedMiningChannelSuccess _ _ | .openStandardMiningChannelSuccess
  | .openMiningChannelError => true
  | _ => false

/-- The events that put an end to a wait without a request. -/
def Event.startsOver : Event → Bool
  | .requestInitialTokens | .openExtendedMiningChannelSuccess _ _ => true
  | _ => false

/-- The events whose handlers write the queue or the state of the upstream. -/
def Event.aboutQueue : Event → Bool
  | .requestInitialTokens | .openMiningChannel _ _ | .openExtendedMiningChannelSuccess _ _ => true
  | _ => false

namespace ChannelManager

variable {api : ChannelsSv2} {s : ChannelManager api} {o : Handled api} {v : UpstreamState}
  {w : List PendingChannelRequest × UpstreamState}

/-! ### Handlers that do not see the queue

The queue and the state of the upstream channel are a pair of cells that two handlers write. The
rules of `Walk` carry them through the others. -/

/-- The queue, and the state of the upstream. -/
def queueState (s : ChannelManager api) : List PendingChannelRequest × UpstreamState :=
  (s.pendingDownstreamRequests, s.upstreamState)

/-- Queue and state are kept, and no upstream channel is asked for. -/
abbrev LeavesQueue (w : List PendingChannelRequest × UpstreamState) (o : Handled api) : Prop :=
  Leaves (fun s => s.queueState = w) (fun n => n.upstreamOpen? = none) (fun _ => True) o

/-- The queue is carried through the handlers of downstreams. -/
theorem framed_queue (w : List PendingChannelRequest × UpstreamState) :
    Framed (fun s : ChannelManager api => s.queueState = w) (fun n => n.upstreamOpen? = none) where
  of_frame h hframe := Eq.trans
    (congrArg (fun f : Frame => (f.pendingDownstreamRequests, f.upstreamState)) hframe) h
  note n hn := by cases n <;> first | rfl | cases hn

theorem allocateTokenIf_error (taken : Bool) (s : ChannelManager api) :
    (s.allocateTokenIf taken).error = none := by
  cases taken <;> rfl

theorem shareFree_queue (w : List PendingChannelRequest × UpstreamState) :
    ShareFree (fun s : ChannelManager api => s.queueState = w) (fun n =>
      n.upstreamOpen? = none) where
  of_base h hbase := Eq.trans
    (congrArg (fun b : Base api => (b.pendingDownstreamRequests, b.upstreamState)) hbase) h
  shareNote _ hn := hn

theorem handleNewTemplate_leavesQueue (t : NewTemplate)
    (h : s.queueState = w) :
    LeavesQueue w (s.handleNewTemplate t) := by
  unfold handleNewTemplate
  dsimp only
  split
  · exact .fail h trivial
  · refine Leaves.andThen (.say h ?_) fun _ h => ?_
    · split <;> simp [Note.upstreamOpen?]
    · refine Leaves.collect (.forEach (fun d _ s h => ?_) h) fun _ h =>
        (shareFree_queue w).declarationFree.allocateTokenIf _ h
      exact (framed_queue w).newTemplateDownstream (fun _ _ => trivial)
        (fun s h => (shareFree_queue w).declarationFree.sendCustomJob (fun _ _ => trivial) h) h

theorem handleSetNewPrevHash_leavesQueue (m : SetNewPrevHash)
    (h : s.queueState = w) :
    LeavesQueue w (s.handleSetNewPrevHash m) := by
  unfold handleSetNewPrevHash
  split
  · exact .fail h trivial
  · refine Leaves.andThen (.say h fun n hn => ?_) fun _ h => ?_
    · unfold declareFuture at hn
      split at hn
      · split at hn
        · obtain rfl := List.mem_singleton.mp hn
          rfl
        · cases hn
      · cases hn
    · have hb : ShareFree (fun s : ChannelManager api => s.queueState = w) _ := shareFree_queue w
      have hd := hb.declarationFree
      refine Leaves.collect (.andThen (hd.sendCustomJob (fun _ _ => trivial) h) fun _ h => ?_)
        fun _ h => hd.allocateTokenIf _ h
      exact .forEach (fun d _ s h => (framed_queue w).prevHashDownstream (fun _ _ => trivial) h) h

/-! ### The queue is taken out

`replayed` are the requests the loop reaches. They are the whole queue exactly if none but the last
one fails. -/

/-- `handle_open_extended_mining_channel_success` up to the queue, if it sets the channel up. -/
def established (m : OpenExtendedMiningChannelSuccess) (s : ChannelManager api) :
    Option (Handled api) :=
  match deserializeOutputs s.coinbaseOutputs with
  | none => none
  | some outputs =>
      if m.extranonceSize < localPrefixBytes + s.reservedDownstreamRollableExtranonceSize then none
      else
        match s.pendingDownstreamRequests.head? with
        | none => none
        | some first =>
            let totalLen := (m.extranoncePrefix.length + m.extranonceSize) % 2 ^ 16
            match api.fromUpstreamPrefix m.extranoncePrefix (totalLen % 2 ^ 8) with
            | .error _ => none
            | .ok allocator =>
                let u := s.upstreamOf m first.message.nominalHashRate
                let taken := s.takeToken s.wantsUpstreamToken
                let r := taken.2.upstreamCustomJob u taken.1 outputs
                let s := resizeGroups (api.upstreamFullSize u) { r.1 with
                  extranonceAllocator := allocator
                  upstreamChannel := some u
                  jobFactory := some r.2.1
                  upstreamState := .connected }
                let requested : List Note :=
                  match s.mode, s.lastFutureTemplate with
                  | .fullTemplate, some t => [.requestTransactionData t.templateId]
                  | _, _ => []
                let custom : List Note :=
                  match r.2.2 with
                  | some (t, message) => [.setCustomMiningJob t (api.upstreamPrefix u) message]
                  | none => []
                some (Outcome.andThen (say (requested ++ custom) s) (allocateTokenIf r.2.2.isSome))

/-- The loop over the queue, from the state in which it was taken out. -/
def replay (slots : Nat → Nat) (r : PendingChannelRequest × Nat) (s : ChannelManager api) :
    Handled api :=
  s.handleOpenMiningChannel r.1 (slots r.2)

theorem upstreamCustomJob_queueState (u : api.Upstream)
    (token : Option AllocateMiningJobTokenSuccess) (outputs : List TxOut) (s : ChannelManager api) :
    (s.upstreamCustomJob u token outputs).1.queueState = s.queueState := by
  unfold upstreamCustomJob
  split <;> rfl

/-- The handler sets the channel up and replays the queue, or it leaves the queue alone. -/
theorem handleOpenExtendedMiningChannelSuccess_cases (m : OpenExtendedMiningChannelSuccess)
    (slots : Nat → Nat) (s : ChannelManager api) :
    (s.established m = none ∧ ∃ st, (st = s.upstreamState ∨ st = .noChannel) ∧
      LeavesQueue (s.pendingDownstreamRequests, st)
        (s.handleOpenExtendedMiningChannelSuccess m slots)) ∨
    ∃ o, s.established m = some o ∧ o.error = none ∧
      LeavesQueue (s.pendingDownstreamRequests, .connected) o ∧
      s.handleOpenExtendedMiningChannelSuccess m slots = o.andThen fun s' =>
        forEach (replay slots) s.pendingDownstreamRequests.zipIdx
          { s' with pendingDownstreamRequests := [] } := by
  unfold handleOpenExtendedMiningChannelSuccess established
  cases deserializeOutputs s.coinbaseOutputs with
  | none => exact .inl ⟨rfl, _, .inl rfl, .fail rfl trivial⟩
  | some outputs =>
      dsimp only
      by_cases hsize :
          m.extranonceSize < localPrefixBytes + s.reservedDownstreamRollableExtranonceSize
      · rw [if_pos hsize, if_pos hsize]
        exact .inl ⟨rfl, _, .inl rfl, .fail rfl trivial⟩
      · rw [if_neg hsize, if_neg hsize]
        cases s.pendingDownstreamRequests.head? with
        | none => exact .inl ⟨rfl, _, .inr rfl, .say rfl (by simp [Note.upstreamOpen?])⟩
        | some first =>
            dsimp only
            cases api.fromUpstreamPrefix m.extranoncePrefix
                ((m.extranoncePrefix.length + m.extranonceSize) % 2 ^ 16 % 2 ^ 8) with
            | error e => exact .inl ⟨rfl, _, .inr rfl, .say rfl (by simp [Note.upstreamOpen?])⟩
            | ok allocator =>
                have hqueue := upstreamCustomJob_queueState
                  (s.upstreamOf m first.message.nominalHashRate)
                  (s.takeToken s.wantsUpstreamToken).1 outputs (s.takeToken s.wantsUpstreamToken).2
                have hpending := congrArg Prod.fst hqueue
                refine .inr ⟨_, rfl, ?_, ?_, ?_⟩
                · rw [Outcome.andThen_eq_of_ok (say_error _ _)]
                  exact allocateTokenIf_error _ _
                · refine Leaves.andThen (.say (Prod.ext hpending rfl) fun n hn => ?_) fun _ h =>
                    (shareFree_queue _).declarationFree.allocateTokenIf _ h
                  rcases List.mem_append.mp hn with hn | hn
                  · split at hn
                    · obtain rfl := List.mem_singleton.mp hn
                      rfl
                    · cases hn
                  · split at hn
                    · obtain rfl := List.mem_singleton.mp hn
                      rfl
                    · cases hn
                · rw [Outcome.andThen_assoc]
                  have hzip := congrArg (fun q : List PendingChannelRequest => q.zipIdx) hpending
                  exact congrArg (fun keys => Outcome.andThen _ fun s =>
                    (allocateTokenIf _ s).andThen fun s' => forEach (replay slots) keys
                      { s' with pendingDownstreamRequests := [] }) hzip

/-- The requests of the queue that the mining handler gets. -/
def replayed (m : OpenExtendedMiningChannelSuccess) (slots : Nat → Nat) (s : ChannelManager api) :
    List PendingChannelRequest :=
  match s.established m with
  | none => []
  | some o => (reached (replay slots) s.pendingDownstreamRequests.zipIdx
      { o.value with pendingDownstreamRequests := [] }).map (·.1)

/-- No request of the queue fails, except for the last one. -/
def ReplaysAll (m : OpenExtendedMiningChannelSuccess) (slots : Nat → Nat) (s : ChannelManager api) :
    Prop :=
  match s.established m with
  | none => True
  | some o => FailsLast (replay slots) s.pendingDownstreamRequests.zipIdx
      { o.value with pendingDownstreamRequests := [] }

instance (m : OpenExtendedMiningChannelSuccess) (slots : Nat → Nat) (s : ChannelManager api) :
    Decidable (s.ReplaysAll m slots) :=
  match h : s.established m with
  | none => isTrue (by simp only [ReplaysAll, h])
  | some o => decidable_of_iff (FailsLast (replay slots) s.pendingDownstreamRequests.zipIdx
      { o.value with pendingDownstreamRequests := [] }) (by simp only [ReplaysAll, h])

/-- The whole queue is handed over exactly when no request fails before the last one. -/
theorem replayed_eq_iff {m : OpenExtendedMiningChannelSuccess} {slots : Nat → Nat}
    (hestablished : (s.established m).isSome = true) :
    s.replayed m slots = s.pendingDownstreamRequests ↔ s.ReplaysAll m slots := by
  obtain ⟨o, ho⟩ := Option.isSome_iff_exists.mp hestablished
  simp only [replayed, ReplaysAll, ho, ← reached_eq_iff]
  constructor
  · intro h
    have hpre := reached_prefix (replay slots) s.pendingDownstreamRequests.zipIdx
      { o.value with pendingDownstreamRequests := [] }
    refine hpre.eq_of_length ?_
    have hlength := congrArg List.length h
    simpa using hlength
  · intro h
    rw [h, List.zipIdx_map_fst]

/-- The mining handler fails on a request whose downstream has disconnected. -/
theorem handleOpenMiningChannel_disconnected {r : PendingChannelRequest} (slot : Nat)
    (hgone : s.downstream.lookup r.downstreamId = none) :
    (s.handleOpenMiningChannel r slot).error ≠ none := by
  unfold handleOpenMiningChannel
  split
  · unfold handleOpenStandardMiningChannel
    split
    · exact Option.some_ne_none _
    · split
      · exact Option.some_ne_none _
      · split
        · exact Option.some_ne_none _
        · split
          · exact Option.some_ne_none _
          · rw [hgone]
            exact Option.some_ne_none _
  · unfold handleOpenExtendedMiningChannel
    split
    · exact Option.some_ne_none _
    · split
      · exact Option.some_ne_none _
      · rw [hgone]
        exact Option.some_ne_none _

/-! ### Events

`Moves` says what an event does to the queue and what it hands over. Together they are the queue
before it, with the request that came in. -/

/-- The requests an event hands to the mining handler. -/
def handedOver (s : ChannelManager api) : Event → List PendingChannelRequest
  | .openMiningChannel r _ =>
      match s.upstreamState with
      | .noChannel | .pending => []
      | .connected | .soloMining => [r]
  | .openExtendedMiningChannelSuccess m slots =>
      if s.mode = .soloMining then [] else s.replayed m slots
  | _ => []

theorem handler_leavesQueue {e : Event} (he : e.aboutQueue = false) (s : ChannelManager api) :
    LeavesQueue s.queueState (handler e s) := by
  have hb : Framed (fun s' : ChannelManager api => s'.queueState = s.queueState) _ := framed_queue _
  have hq : ShareFree (fun s' : ChannelManager api => s'.queueState = s.queueState) _ :=
    shareFree_queue _
  cases e with
  | activate mode => exact .keep rfl
  | requestInitialTokens => cases he
  | connect r => exact hb.connect rfl
  | disconnect d => exact .keep rfl
  | newTemplate t => exact handleNewTemplate_leavesQueue t rfl
  | requestTxDataSuccess i txs excess => exact hq.declarationFree.handleRequestTxDataSuccess rfl
  | setNewPrevHash m => exact handleSetNewPrevHash_leavesQueue m rfl
  | allocateMiningJobTokenSuccess m => exact hq.handleAllocateMiningJobTokenSuccess rfl
  | declareMiningJobSuccess r token => exact hq.declarationFree.handleDeclareMiningJobSuccess rfl
  | declareMiningJobError code =>
      simp only [handler, handleDeclareMiningJobError]
      split
      · exact .keep rfl
      · exact .fail rfl trivial
  | openExtendedMiningChannelSuccess m slots => cases he
  | openStandardMiningChannelSuccess => exact .fail rfl trivial
  | openMiningChannelError => exact .fail rfl trivial
  | closeUpstreamChannel => exact .fail rfl trivial
  | setExtranoncePrefix p slots => exact hb.handleSetExtranoncePrefix rfl
  | setCustomMiningJobSuccess r j => exact hq.handleSetCustomMiningJobSuccess rfl
  | setCustomMiningJobError r code => exact hq.handleSetCustomMiningJobError rfl
  | openMiningChannel r slot => cases he
  | closeChannel d c => exact hb.handleCloseChannel rfl
  | submitSharesStandard d m => exact hb.submitShares rfl
  | submitSharesExtended d m => exact hb.submitShares rfl

theorem handle_leavesQueue {e : Event} (he : e.aboutQueue = false) (s : ChannelManager api) :
    LeavesQueue s.queueState (handle e s) := by
  unfold handle
  split
  · exact .keep rfl
  · exact handler_leavesQueue he s

/-- What a handler does about the queue and the upstream channel. -/
structure Moves (s : ChannelManager api) (e : Event) (o : Handled api) : Prop where
  accounts : ∀ r, s.pendingDownstreamRequests.count r + e.openRequest?.toList.count r =
    (s.handedOver e).count r + o.value.pendingDownstreamRequests.count r
  connected : (s.upstreamState = .connected → s.pendingDownstreamRequests = []) →
    o.value.upstreamState = .connected → o.value.pendingDownstreamRequests = []
  /-- One channel is asked for, or none. -/
  asks : (o.notes.filterMap Note.upstreamOpen?).length = 1 ∧ s.upstreamState = .noChannel ∧
      o.value.upstreamState = .pending ∨
    (o.notes.filterMap Note.upstreamOpen?).length = 0 ∧
      (e.startsOver = false → o.value.upstreamState = s.upstreamState ∨
        s.upstreamState = .noChannel)
  solo : e.startsOver = false → s.upstreamState = .soloMining → s.pendingDownstreamRequests = [] →
    o.value.upstreamState = .soloMining ∧ o.value.pendingDownstreamRequests = []

/-- The queue is left alone, and nothing arrives for it. -/
theorem LeavesQueue.moves {e : Event} (h : LeavesQueue (s.pendingDownstreamRequests, v) o)
    (hst : e.startsOver = false → v = s.upstreamState)
    (hconnected : v = .connected → s.upstreamState = .connected)
    (hcount : ∀ r, e.openRequest?.toList.count r = (s.handedOver e).count r) : s.Moves e o where
  accounts r := by
    rw [(Prod.mk.inj h.value).1, hcount r]
    exact Nat.add_comm _ _
  connected hc hc' := by
    obtain ⟨hq, hs⟩ := Prod.mk.inj h.value
    exact hq.trans (hc (hconnected (hs.symm.trans hc')))
  asks := by
    refine .inr ⟨by rw [List.filterMap_eq_nil_iff.mpr h.notes]; rfl, fun he => .inl ?_⟩
    exact (Prod.mk.inj h.value).2.trans (hst he)
  solo he hsolo hempty := by
    obtain ⟨hq, hs⟩ := Prod.mk.inj h.value
    exact ⟨hs.trans ((hst he).trans hsolo), hq.trans hempty⟩

/-- A request is handed over at once or waits. -/
theorem handle_moves_open (r : PendingChannelRequest) (slot : Nat) (s : ChannelManager api) :
    s.Moves (.openMiningChannel r slot) (handle (.openMiningChannel r slot) s) := by
  have hhandle : handle (.openMiningChannel r slot) s = s.handleDownstreamOpen r slot := by
    simp [handle, Event.fromUpstream, handler]
  have hdirect : s.handedOver (.openMiningChannel r slot) = [r] →
      s.Moves (.openMiningChannel r slot) (s.handleOpenMiningChannel r slot) := by
    intro hhanded
    refine LeavesQueue.moves (v := s.upstreamState)
      ((framed_queue s.queueState).handleOpenMiningChannel rfl) (fun _ => rfl) id fun r' => ?_
    rw [hhanded]
    rfl
  rw [hhandle]
  unfold handleDownstreamOpen
  cases hst : s.upstreamState with
  | noChannel =>
      have hhanded : s.handedOver (.openMiningChannel r slot) = [] := by simp [handedOver, hst]
      refine ⟨fun r' => ?_, fun _ hc => (by cases hc), .inl ⟨rfl, hst, rfl⟩, fun _ hs => ?_⟩
      · simp only [hhanded, Event.openRequest?, Option.toList_some, say_value, List.count_cons,
          List.count_nil]
        omega
      · rw [hst] at hs
        cases hs
  | pending =>
      have hhanded : s.handedOver (.openMiningChannel r slot) = [] := by simp [handedOver, hst]
      refine ⟨fun r' => ?_, fun _ hc => (by cases hc), .inr ⟨rfl, fun _ => .inl hst.symm⟩,
        fun _ hs => ?_⟩
      · simp [hhanded, Event.openRequest?]
      · rw [hst] at hs
        cases hs
  | connected => exact hdirect (by simp [handedOver, hst])
  | soloMining => exact hdirect (by simp [handedOver, hst])

theorem handle_moves_success {m : OpenExtendedMiningChannelSuccess} {slots : Nat → Nat}
    (hreplay : s.ReplaysAll m slots) :
    s.Moves (.openExtendedMiningChannelSuccess m slots)
      (handle (.openExtendedMiningChannelSuccess m slots) s) := by
  unfold handle
  by_cases hsolo : s.mode = .soloMining
  · rw [if_pos (by simp [hsolo, Event.fromUpstream])]
    refine LeavesQueue.moves (v := s.upstreamState) (.keep rfl) (fun _ => rfl) id fun r => ?_
    simp [handedOver, hsolo, Event.openRequest?]
  · rw [if_neg (by simp [hsolo])]
    have hhanded : s.handedOver (.openExtendedMiningChannelSuccess m slots) =
        s.replayed m slots := by
      simp [handedOver, hsolo]
    rcases handleOpenExtendedMiningChannelSuccess_cases m slots s with
      ⟨hnone, st, hst, hleaves⟩ | ⟨o, ho, hok, hleaves, heq⟩
    · refine LeavesQueue.moves hleaves (fun hstart => by cases hstart) (fun hc => ?_) fun r => ?_
      · rcases hst with rfl | rfl
        · exact hc
        · cases hc
      · simp [hhanded, replayed, hnone, Event.openRequest?]
    · have hall : s.replayed m slots = s.pendingDownstreamRequests :=
        (replayed_eq_iff (by rw [ho]; rfl)).mpr hreplay
      have hempty : queueState { o.value with pendingDownstreamRequests := [] } =
          ([], .connected) := Prod.ext rfl (Prod.mk.inj hleaves.value).2
      have hreplays : LeavesQueue ([], .connected) (forEach (replay slots)
          s.pendingDownstreamRequests.zipIdx { o.value with pendingDownstreamRequests := [] }) :=
        .forEach (fun r _ s h => (framed_queue _).handleOpenMiningChannel h) hempty
      simp only [handler]
      rw [heq, Outcome.andThen_eq_of_ok hok]
      obtain ⟨hqueue, hst⟩ := Prod.mk.inj hreplays.value
      refine ⟨fun r => ?_, fun _ _ => hqueue, .inr ⟨?_, fun h => by cases h⟩, fun h => by cases h⟩
      · rw [hhanded, hall, hqueue]
        rfl
      · rw [List.filterMap_append, List.filterMap_eq_nil_iff.mpr hleaves.notes,
          List.filterMap_eq_nil_iff.mpr hreplays.notes]
        rfl

/-- A queue that is replayed is replayed to its end. -/
def KeepsQueue (s : ChannelManager api) : Event → Prop
  | .openExtendedMiningChannelSuccess m slots => s.ReplaysAll m slots
  | _ => True

instance (s : ChannelManager api) (e : Event) : Decidable (s.KeepsQueue e) :=
  match e with
  | .openExtendedMiningChannelSuccess m slots => inferInstanceAs (Decidable (s.ReplaysAll m slots))
  | .activate _ | .requestInitialTokens | .connect _ | .disconnect _ | .newTemplate _
  | .requestTxDataSuccess _ _ _ | .setNewPrevHash _ | .allocateMiningJobTokenSuccess _
  | .declareMiningJobSuccess _ _ | .declareMiningJobError _ | .openStandardMiningChannelSuccess
  | .openMiningChannelError | .closeUpstreamChannel | .setExtranoncePrefix _ _
  | .setCustomMiningJobSuccess _ _ | .setCustomMiningJobError _ _ | .openMiningChannel _ _
  | .closeChannel _ _ | .submitSharesStandard _ _ | .submitSharesExtended _ _ => isTrue trivial

/-- What every event does about the queue and the upstream channel. -/
theorem handle_moves (e : Event) (s : ChannelManager api) (hkeeps : s.KeepsQueue e) :
    s.Moves e (handle e s) := by
  cases he : e.aboutQueue with
  | false =>
      have hstart : e.startsOver = false := by
        cases e <;> first | rfl | cases he
      refine LeavesQueue.moves (v := s.upstreamState) (handle_leavesQueue he s) (fun _ => rfl) id
        fun r => ?_
      cases e <;> first | rfl | cases he
  | true =>
      cases e with
      | requestInitialTokens =>
          have hd : DeclarationFree (fun s' : ChannelManager api =>
              s'.queueState = (s.pendingDownstreamRequests, .noChannel)) _ :=
            (shareFree_queue _).declarationFree
          have hleaves : LeavesQueue (s.pendingDownstreamRequests, .noChannel)
              s.requestInitialTokens :=
            .andThen (hd.allocateTokenIf true (s := { s with upstreamState := .noChannel }) rfl)
              fun _ h => hd.allocateTokenIf true h
          have hhandle : handle .requestInitialTokens s = s.requestInitialTokens := by
            simp [handle, Event.fromUpstream, handler]
          rw [hhandle]
          exact hleaves.moves (fun h => by cases h) (fun h => by cases h) fun r => rfl
      | openMiningChannel r slot => exact handle_moves_open r slot s
      | openExtendedMiningChannelSuccess m slots => exact handle_moves_success hkeeps
      | _ => cases he

end ChannelManager

/-! ### Runs -/

/-- The client, with the open requests that arrived and those that were handed to the mining
handler. -/
structure Opens (api : ChannelsSv2) where
  client : Client api
  arrived : List PendingChannelRequest
  handed : List PendingChannelRequest
  /-- The requests to the pool that are not answered. -/
  outstanding : Nat

namespace Opens

variable {api : ChannelsSv2}

def start (coinbaseOutputs : Bytes) (reserved : Nat) : Opens api :=
  ⟨.start coinbaseOutputs reserved, [], [], 0⟩

def step (x : Opens api) (e : Event) : Opens api :=
  if x.client.running then
    let client := x.client.step e
    let sent := client.history.drop x.client.history.length
    { client := client
      arrived := x.arrived ++ e.openRequest?.toList
      handed := x.handed ++ x.client.manager.handedOver e
      outstanding := x.outstanding - (if e.answersOpen then 1 else 0) +
        (sent.filterMap Note.upstreamOpen?).length }
  else x

def queue (x : Opens api) : List PendingChannelRequest :=
  x.client.manager.pendingDownstreamRequests

/-- At most one request for a channel is outstanding, and every request of a downstream was handed
over once or still waits, which it does not once the channel is there. -/
structure HandledOnce (x : Opens api) : Prop where
  outstanding : x.outstanding ≤ 1
  accounted : ∀ r, x.arrived.count r = x.handed.count r + x.queue.count r
  connected : x.client.manager.upstreamState = .connected → x.queue = []

/-- The client starts once, and the pool is asked for a channel after that. -/
def InOrder (x : Opens api) : Event → Prop
  | .requestInitialTokens => x.client.initialized = false
  | .openExtendedMiningChannelSuccess _ _ => x.client.initialized = true
  | _ => True

instance (x : Opens api) (e : Event) : Decidable (x.InOrder e) :=
  match e with
  | .requestInitialTokens => inferInstanceAs (Decidable (_ = _))
  | .openExtendedMiningChannelSuccess _ _ => inferInstanceAs (Decidable (_ = _))
  | .activate _ | .connect _ | .disconnect _ | .newTemplate _
  | .requestTxDataSuccess _ _ _ | .setNewPrevHash _ | .allocateMiningJobTokenSuccess _
  | .declareMiningJobSuccess _ _ | .declareMiningJobError _ | .openStandardMiningChannelSuccess
  | .openMiningChannelError | .closeUpstreamChannel | .setExtranoncePrefix _ _
  | .setCustomMiningJobSuccess _ _ | .setCustomMiningJobError _ _ | .openMiningChannel _ _
  | .closeChannel _ _ | .submitSharesStandard _ _ | .submitSharesExtended _ _ => isTrue trivial

def KeepsQueue (x : Opens api) (e : Event) : Prop :=
  x.client.manager.KeepsQueue e

instance (x : Opens api) (e : Event) : Decidable (x.KeepsQueue e) :=
  inferInstanceAs (Decidable (ChannelManager.KeepsQueue _ _))

/-- The invariant. Before the start is over no channel is asked for. -/
structure Inv (x : Opens api) : Prop extends HandledOnce x where
  pending : x.outstanding = 1 → x.client.manager.upstreamState = .pending
  early : x.client.initialized = false →
    x.client.manager.upstreamState = .soloMining ∧ x.queue = []

/-- What a step does, in terms of the handler. -/
theorem step_eq {x : Opens api} (hrun : x.client.running = true) (e : Event) :
    let o := ChannelManager.handle e x.client.manager
    (x.step e).client.manager.queueState = o.value.queueState ∧
      (x.step e).arrived = x.arrived ++ e.openRequest?.toList ∧
      (x.step e).handed = x.handed ++ x.client.manager.handedOver e ∧
      (x.step e).outstanding = x.outstanding - (if e.answersOpen then 1 else 0) +
        (o.notes.filterMap Note.upstreamOpen?).length ∧
      ((x.step e).client.initialized = false →
        x.client.initialized = false ∧ e ≠ .requestInitialTokens) := by
  intro o
  have hsent : (x.client.step e).history.drop x.client.history.length = o.notes := by
    simp [Client.step, hrun, o]
  have hmanager : (x.client.step e).manager = Client.managerAfter o := by
    simp [Client.step, hrun, o]
  simp only [step, hrun, if_true, hsent, hmanager]
  refine ⟨?_, trivial, trivial, trivial, fun h => ?_⟩
  · unfold Client.managerAfter
    split <;> rfl
  · simp only [Client.step, hrun, if_true] at h
    cases e with
    | requestInitialTokens => cases h
    | _ => exact ⟨h, by simp⟩

/-- A request that is outstanding was sent in this step, or the client still waits for its
answer. -/
theorem outstanding_step {x : Opens api} {e : Event} (h : x.Inv) (hin : x.InOrder e)
    (hkeeps : x.KeepsQueue e) :
    (x.step e).outstanding ≤ 1 ∧ ((x.step e).outstanding = 1 →
      (x.step e).client.manager.upstreamState = .pending) := by
  cases hrun : x.client.running with
  | false =>
      have hsame : x.step e = x := by simp [step, hrun]
      rw [hsame]
      exact ⟨h.outstanding, h.pending⟩
  | true =>
      obtain ⟨hstate, -, -, hout, -⟩ := step_eq hrun e
      have hst := (Prod.mk.inj hstate).2
      have hone := h.outstanding
      rcases (ChannelManager.handle_moves e x.client.manager hkeeps).asks with
        ⟨hlen, hnone, hwaits⟩ | ⟨hlen, hkept⟩
      · have hzero : x.outstanding ≠ 1 := fun hw => by
          have hp := h.pending hw
          rw [hnone] at hp
          cases hp
        rw [hout, hlen]
        exact ⟨by omega, fun _ => hst.trans hwaits⟩
      · rw [hout, hlen]
        refine ⟨by omega, fun hw => ?_⟩
        cases hanswer : e.answersOpen with
        | true =>
            rw [hanswer, if_pos rfl] at hw
            omega
        | false =>
            have hp := h.pending (by omega)
            have hstart : e.startsOver = false := by
              cases e with
              | requestInitialTokens =>
                  have hsolo := (h.early hin).1
                  rw [hp] at hsolo
                  cases hsolo
              | openExtendedMiningChannelSuccess m slots => cases hanswer
              | _ => rfl
            rcases hkept hstart with hsame | hnone
            · exact hst.trans (hsame.trans hp)
            · rw [hp] at hnone
              cases hnone

theorem inv_step {x : Opens api} {e : Event} (h : x.Inv) (hin : x.InOrder e)
    (hkeeps : x.KeepsQueue e) : (x.step e).Inv := by
  cases hrun : x.client.running with
  | false =>
      have hsame : x.step e = x := by simp [step, hrun]
      rw [hsame]
      exact h
  | true =>
      obtain ⟨hstate, harrived, hhanded, hout, hinit⟩ := step_eq hrun e
      have hmoves := ChannelManager.handle_moves e x.client.manager hkeeps
      obtain ⟨hqueue, hst⟩ := Prod.mk.inj hstate
      have hpending := outstanding_step h hin hkeeps
      refine ⟨⟨hpending.1, fun r => ?_, fun hc => ?_⟩, hpending.2, fun hi => ?_⟩
      · have haccounts := hmoves.accounts r
        have haccounted := h.accounted r
        rw [harrived, hhanded, queue, hqueue, List.count_append, List.count_append]
        unfold queue at haccounted
        omega
      · exact hqueue.trans (hmoves.connected h.connected (hst.symm.trans hc))
      · obtain ⟨hearly, hne⟩ := hinit hi
        obtain ⟨hsolo, hempty⟩ := h.early hearly
        have hstart : e.startsOver = false := by
          cases e with
          | requestInitialTokens => exact absurd rfl hne
          | openExtendedMiningChannelSuccess m slots =>
              have hafter : x.client.initialized = true := hin
              rw [hearly] at hafter
              cases hafter
          | _ => rfl
        obtain ⟨hsolo', hempty'⟩ := hmoves.solo hstart hsolo hempty
        exact ⟨hst.trans hsolo', hqueue.trans hempty'⟩

theorem inv_start (coinbaseOutputs : Bytes) (reserved : Nat) :
    (start coinbaseOutputs reserved : Opens api).Inv where
  outstanding := Nat.zero_le _
  accounted _ := rfl
  connected _ := rfl
  pending h := by cases h
  early _ := ⟨rfl, rfl⟩

open Client (sampleOutputs sampleTemplate samplePrevHash sampleOpen)

end Opens

end GridPoolSv2.JobDeclaratorClient
