import GridPoolSv2.Translator.ChannelManager

/-!
# Translator.ChannelMap: the handlers, as seen from the map of channels

Which extended channels a handler of the channel manager adds, and which requests it answers.
`Opens` says both: a channel that is new is the aggregated sentinel, or it is named in an
`OpenExtendedMiningChannelSuccess`, and the requests that are answered are among the given ones.

Proof shape: `successes` reads the opened channels off the messages, and simplifies to nothing for
every kind of message but one. `Opens` is closed under a handler that opens nothing, under a channel
that changes in place, and under two handlers in a row (`Opens.append`), which is what
`handle_open_extended_mining_channel_success` does to the requests that wait for the aggregated
channel. There is one lemma for each handler, and two for what the manager receives: a message of
the `Sv1Server` and a frame of the upstream.

`servedBy` and `servedByFrame` name the requests a handler is about to answer. None is answered
twice (`servedBy_nodup`, `servedByFrame_nodup`), which is all that `ChannelOwnership` needs of the
order in which a map is iterated.
-/

namespace GridPoolSv2.Translator

open Visit

/-- The answers to requests among the messages for the `Sv1Server`. -/
def success? : Sv1Message → Option OpenExtendedMiningChannelSuccess
  | .openExtendedMiningChannelSuccess m => some m
  | _ => none

def successes (ms : List Sv1Message) : List OpenExtendedMiningChannelSuccess :=
  ms.filterMap success?

@[simp] theorem successes_nil : successes [] = [] := rfl

@[simp] theorem successes_append (ms ns : List Sv1Message) :
    successes (ms ++ ns) = successes ms ++ successes ns :=
  List.filterMap_append

@[simp] theorem successes_cons_success (m : OpenExtendedMiningChannelSuccess)
    (ms : List Sv1Message) :
    successes (.openExtendedMiningChannelSuccess m :: ms) = m :: successes ms := rfl

@[simp] theorem successes_map_job {α : Type} (f : α → NewExtendedMiningJob) (xs : List α) :
    successes (xs.map fun x => .newExtendedMiningJob (f x)) = [] := by
  induction xs with
  | nil => rfl
  | cons x xs ih => exact ih

@[simp] theorem successes_map_prevHash {α : Type} (f : α → SetNewPrevHash) (xs : List α) :
    successes (xs.map fun x => .setNewPrevHash (f x)) = [] := by
  induction xs with
  | nil => rfl
  | cons x xs ih => exact ih

@[simp] theorem successes_map_target (xs : List SetTarget) :
    successes (xs.map .setTarget) = [] := by
  induction xs with
  | nil => rfl
  | cons x xs ih => exact ih

namespace ChannelManager

variable {api : ChannelsSv2} {s : ChannelManager api}

@[simp] theorem successes_jobMessages (jobs : List NewExtendedMiningJob) :
    successes (jobMessages jobs) = [] :=
  successes_map_job id _

@[simp] theorem successes_prevHashMessages (xs : List (SetNewPrevHash × NewExtendedMiningJob)) :
    successes (prevHashMessages xs) = [] := by
  rw [prevHashMessages, successes_append, successes_map_prevHash, successes_map_job]
  rfl

/-! ### The map -/

section Map

variable (s : ChannelManager api)

@[simp] theorem removeChannel_mode (c : ChannelId) : (s.removeChannel c).mode = s.mode := by
  unfold removeChannel
  split <;> rfl

@[simp] theorem insertChannel_mode (c : ChannelId) (ch : api.Channel) :
    (s.insertChannel c ch).mode = s.mode :=
  removeChannel_mode s c

@[simp] theorem removeChannel_pending (c : ChannelId) :
    (s.removeChannel c).pendingDownstreamChannels = s.pendingDownstreamChannels := by
  unfold removeChannel
  split <;> rfl

@[simp] theorem insertChannel_pending (c : ChannelId) (ch : api.Channel) :
    (s.insertChannel c ch).pendingDownstreamChannels = s.pendingDownstreamChannels :=
  removeChannel_pending s c

@[simp] theorem setChannel_mode (c : ChannelId) (ch : api.Channel) :
    (s.setChannel c ch).mode = s.mode := rfl

@[simp] theorem removeFromGroups_mode (c : ChannelId) :
    (s.removeFromGroups c).mode = s.mode := rfl

theorem extendedChannels_removeChannel (c : ChannelId) :
    (s.removeChannel c).extendedChannels = s.extendedChannels.erase c := by
  unfold removeChannel
  split
  · rename_i hnone
    apply AList.ext
    rw [AList.lookup_eq_none, AList.mem_keys] at hnone
    exact (List.kerase_of_notMem_keys hnone).symm
  · rfl

@[simp] theorem extendedChannels_removeFromGroups (c : ChannelId) :
    (s.removeFromGroups c).extendedChannels = s.extendedChannels := rfl

@[simp] theorem mem_removeChannel {c c' : ChannelId} :
    c' ∈ (s.removeChannel c).extendedChannels ↔ c' ≠ c ∧ c' ∈ s.extendedChannels := by
  rw [extendedChannels_removeChannel, AList.mem_erase]

@[simp] theorem mem_insertChannel {c c' : ChannelId} {ch : api.Channel} :
    c' ∈ (s.insertChannel c ch).extendedChannels ↔ c' = c ∨ c' ∈ s.extendedChannels := by
  rw [insertChannel, AList.mem_insert, mem_removeChannel]
  constructor
  · rintro (heq | ⟨-, hmem⟩)
    · exact .inl heq
    · exact .inr hmem
  · rintro (heq | hmem)
    · exact .inl heq
    · by_cases heq : c' = c
      · exact .inl heq
      · exact .inr ⟨heq, hmem⟩

/-- A channel that was looked up is put back. -/
theorem mem_setChannel {c c' : ChannelId} {ch ch' : api.Channel}
    (hc : s.extendedChannels.lookup c = some ch') :
    c' ∈ (s.setChannel c ch).extendedChannels ↔ c' ∈ s.extendedChannels := by
  rw [setChannel, AList.mem_insert]
  refine or_iff_right_of_imp ?_
  rintro rfl
  exact AList.lookup_isSome.mp (by rw [hc]; rfl)

end Map

/-- A walk over channels keeps the set of them, and everything else. -/
theorem visitMembers_map {α : Type}
    {f : ChannelId → api.Channel → Except Fatal (api.Channel × α)} {cs : List ChannelId}
    {s s' : ChannelManager api} {xs : List α} (h : visitMembers f s cs = .ok (s', xs)) :
    s'.mode = s.mode ∧ ∀ c, c ∈ s'.extendedChannels ↔ c ∈ s.extendedChannels := by
  induction cs generalizing s xs with
  | nil =>
      obtain ⟨rfl, rfl⟩ := Prod.mk.inj (Except.ok.inj h)
      exact ⟨rfl, fun _ => Iff.rfl⟩
  | cons c cs ih =>
      rw [visitMembers] at h
      cases hc : s.extendedChannels.lookup c with
      | none => simp [hc] at h
      | some ch =>
          cases hf : f c ch with
          | error e => simp [hc, hf] at h
          | ok r =>
              obtain ⟨ch', x⟩ := r
              cases hrest : visitMembers f (s.setChannel c ch') cs with
              | error e => simp [hc, hf, hrest] at h
              | ok r =>
                  obtain ⟨s'', xs'⟩ := r
                  simp only [hc, hf, hrest, Except.ok.injEq, Prod.mk.injEq] at h
                  obtain ⟨rfl, rfl⟩ := h
                  obtain ⟨hmode, hmem⟩ := ih hrest
                  exact ⟨hmode, fun c' => (hmem c').trans (mem_setChannel s hc)⟩

theorem updateAll_map {f : api.Channel → Option api.Channel} {s' : ChannelManager api}
    (h : s.updateAll f = .ok s') :
    s'.mode = s.mode ∧ ∀ c, c ∈ s'.extendedChannels ↔ c ∈ s.extendedChannels := by
  unfold updateAll at h
  dsimp only at h
  split at h
  · cases h
  · obtain rfl := Except.ok.inj h
    refine ⟨rfl, fun c => ?_⟩
    rw [AList.mem_keys, AList.mem_keys]
    exact iff_of_eq (congrArg (c ∈ ·) (visitList_keys _ s.extendedChannels.entries))

/-! ### What is opened -/

/-- The id of the upstream channel in aggregated mode. -/
def IsSentinel (mode : TproxyMode) (c : ChannelId) : Prop :=
  mode = .aggregated ∧ c = aggregatedChannelId

instance (mode : TproxyMode) (c : ChannelId) : Decidable (IsSentinel mode c) :=
  inferInstanceAs (Decidable (_ ∧ _))

/-- A handler answers at most the requests `rs`, and every channel it adds goes with an answer. -/
structure Opens (s : ChannelManager api) (rs : List RequestId) (h : Handled api) : Prop where
  mode : h.manager.mode = s.mode
  opened : ∀ c ∈ h.manager.extendedChannels, c ∈ s.extendedChannels ∨ IsSentinel s.mode c ∨
    ∃ m ∈ successes h.toSv1Server, m.channelId = c
  answered : ((successes h.toSv1Server).map (·.requestId)).Sublist rs

/-- A handler that adds no channel and answers no request. -/
theorem Opens.nothing {h : Handled api} (hmode : h.manager.mode = s.mode)
    (hmap : ∀ c ∈ h.manager.extendedChannels, c ∈ s.extendedChannels)
    (hsuccesses : successes h.toSv1Server = []) : Opens s [] h where
  mode := hmode
  opened := fun c hc => .inl (hmap c hc)
  answered := by
    rw [hsuccesses]
    exact List.Sublist.refl []

theorem Opens.weaken {rs rs' : List RequestId} {h : Handled api} (ho : Opens s rs h)
    (hsub : rs.Sublist rs') : Opens s rs' h :=
  { ho with answered := ho.answered.trans hsub }

section Client

/-- A share changes the channel it is checked against, in place. -/
theorem opens_forwardShare (m : SubmitSharesExtended) (tlv : Option Bytes) :
    Opens s [] (s.forwardShare m tlv) :=
  .nothing rfl (fun _ hc => hc) rfl

theorem Opens.of_setChannel {rs : List RequestId} {c : ChannelId} {ch ch' : api.Channel}
    {h : Handled api} (hc : s.extendedChannels.lookup c = some ch')
    (ho : Opens (s.setChannel c ch) rs h) : Opens s rs h where
  mode := ho.mode
  opened := fun c' hc' => (ho.opened c' hc').imp_left (mem_setChannel s hc).mp
  answered := ho.answered

theorem opens_submitAggregated {aggregated : api.Channel} {m : SubmitSharesExtended}
    {tlv : Option Bytes} {h : Handled api}
    (haggregated : s.extendedChannels.lookup aggregatedChannelId = some aggregated)
    (hh : s.submitAggregated aggregated m tlv = .ok h) : Opens s [] h := by
  unfold submitAggregated at hh
  split at hh
  · cases hh
  · obtain rfl := Except.ok.inj hh
    split
    · exact .of_setChannel haggregated (opens_forwardShare _ _)
    · exact .of_setChannel haggregated (.nothing rfl (fun _ hc => hc) rfl)

theorem opens_submitToChannel {m : SubmitSharesExtended} {tlv : Option Bytes} {h : Handled api}
    (hh : s.submitToChannel m tlv = .ok h) : Opens s [] h := by
  unfold submitToChannel at hh
  split at hh
  · obtain rfl := Except.ok.inj hh
    exact .nothing rfl (fun _ hc => hc) rfl
  · rename_i ch hch
    dsimp only at hh
    split at hh
    · split at hh
      · cases hh
      · obtain rfl := Except.ok.inj hh
        exact .of_setChannel hch (opens_forwardShare _ _)
    · obtain rfl := Except.ok.inj hh
      exact .of_setChannel hch (.nothing rfl (fun _ hc => hc) rfl)

theorem opens_submitShares {m : SubmitSharesExtended} {tlv : Option Bytes} {h : Handled api}
    (hh : s.handleSubmitSharesExtended m tlv = .ok h) : Opens s [] h := by
  unfold handleSubmitSharesExtended at hh
  split at hh
  · rename_i haggregated
    exact opens_submitAggregated haggregated hh
  · exact opens_submitToChannel hh

theorem opens_updateChannel (m : UpdateChannel) : Opens s [] (s.handleUpdateChannel m) := by
  unfold handleUpdateChannel
  split
  · exact .nothing rfl (fun _ hc => hc) rfl
  · split <;> exact .nothing rfl (fun _ hc => hc) rfl

/-- What is closed is gone, the sentinel apart. -/
theorem closes_closeChannel (s : ChannelManager api) (c : ChannelId) :
    Opens s [] (s.handleDownstreamCloseChannel c) ∧
      (c ∈ (s.handleDownstreamCloseChannel c).manager.extendedChannels → IsSentinel s.mode c) := by
  unfold handleDownstreamCloseChannel
  split
  · refine ⟨.nothing (by simp) (fun c' hc' => ?_) rfl, fun hc => ?_⟩
    · simp only [extendedChannels_removeFromGroups, mem_removeChannel] at hc'
      exact hc'.2
    · simp at hc
  · rename_i hmode
    split
    · rename_i heq
      exact ⟨.nothing rfl (fun _ hc => hc) rfl, fun _ => ⟨hmode, heq⟩⟩
    · refine ⟨.nothing (by simp) (fun c' hc' => ?_) rfl, fun hc => ?_⟩
      · simp only [extendedChannels_removeFromGroups, mem_removeChannel] at hc'
        exact hc'.2
      · simp at hc

end Client

section Join

/-- The allocator of the aggregated channel has a prefix for `n` bytes to roll. -/
def canServe (s : ChannelManager api) (n : Nat) : Bool :=
  (s.extendedChannels.lookup aggregatedChannelId).isSome &&
    s.aggregatedExtranonceAllocator.any fun allocator =>
      (api.allocateExtended allocator n).isSome && decide (api.allocatorRollableSize allocator = n)

theorem opens_join {requestId : RequestId} {n : Nat} {h : Handled api}
    (hh : s.handleDownstreamChannelRequestInAggregatedMode requestId n = .ok h) :
    Opens s (if s.canServe n then [requestId] else []) h := by
  have hnothing : ∀ {s' : ChannelManager api}, s'.mode = s.mode →
      s'.extendedChannels = s.extendedChannels →
      Opens s (if s.canServe n then [requestId] else []) { manager := s' } := fun hmode hmap =>
    (Opens.nothing hmode (fun c hc => hmap ▸ hc) rfl).weaken (List.nil_sublist _)
  unfold handleDownstreamChannelRequestInAggregatedMode at hh
  split at hh
  · cases hh
  · rename_i upstreamChannel haggregated
    split at hh
    · obtain rfl := Except.ok.inj hh
      exact hnothing rfl rfl
    · rename_i allocator hallocator
      split at hh
      · obtain rfl := Except.ok.inj hh
        exact hnothing rfl rfl
      · rename_i newPrefix allocator' hallocate
        dsimp only at hh
        split at hh
        · rename_i hroom
          have hserve : s.canServe n = true := by
            simp [canServe, haggregated, hallocator, hallocate, hroom]
          rw [if_pos hserve]
          split at hh
          · cases hh
          · split at hh
            · rename_i ch _ hch
              obtain rfl := Except.ok.inj hh
              refine ⟨by simp, fun c hc => ?_, ?_⟩
              · rw [mem_setChannel _ hch, mem_insertChannel] at hc
                rcases hc with rfl | hold
                · exact .inr (.inr ⟨_, List.mem_cons_self, rfl⟩)
                · exact .inl hold
              · rw [successes_cons_success, successes_map_job]
                exact List.Sublist.refl _
            · obtain rfl := Except.ok.inj hh
              refine ⟨by simp, fun c hc => ?_, List.Sublist.refl _⟩
              rw [mem_insertChannel] at hc
              rcases hc with rfl | hold
              · exact .inr (.inr ⟨_, List.mem_cons_self, rfl⟩)
              · exact .inl hold
        · obtain rfl := Except.ok.inj hh
          exact hnothing rfl rfl

/-- The request a message of the `Sv1Server` is answered for at once. -/
def servedBy (s : ChannelManager api) : ClientMessage → List RequestId
  | .openExtendedMiningChannel m =>
      match s.mode, s.aggregatedChannelState with
      | .aggregated, .connected =>
          if s.canServe m.minExtranonceSize.toNat then [m.requestId] else []
      | _, _ => []
  | _ => []

theorem opens_openExtendedMiningChannel {m : OpenExtendedMiningChannel} {h : Handled api}
    (hh : s.handleOpenExtendedMiningChannel m = .ok h) :
    Opens s (s.servedBy (.openExtendedMiningChannel m)) h := by
  unfold handleOpenExtendedMiningChannel at hh
  dsimp only at hh
  cases hmode : s.mode with
  | nonAggregated =>
      simp only [hmode] at hh
      obtain rfl := Except.ok.inj hh
      exact (Opens.nothing (s := s) hmode.symm (fun _ hc => hc) rfl).weaken (List.nil_sublist _)
  | aggregated =>
      simp only [hmode] at hh
      cases hstate : s.aggregatedChannelState with
      | connected =>
          simp only [hstate] at hh
          simp only [servedBy, hmode, hstate]
          exact opens_join hh
      | pending =>
          simp only [hstate] at hh
          obtain rfl := Except.ok.inj hh
          exact (Opens.nothing (s := s) hmode.symm (fun _ hc => hc) rfl).weaken (List.nil_sublist _)
      | noChannel =>
          simp only [hstate] at hh
          split at hh
          · obtain rfl := Except.ok.inj hh
            exact (Opens.nothing (s := s) hmode.symm (fun _ hc => hc) rfl).weaken
              (List.nil_sublist _)
          · cases hh

/-- Every message of the `Sv1Server`. -/
theorem opens_downstreamMessage {m : ClientMessage} {h : Handled api}
    (hh : s.handleDownstreamMessage m = .ok h) : Opens s (s.servedBy m) h := by
  cases m with
  | openExtendedMiningChannel m => exact opens_openExtendedMiningChannel hh
  | submitSharesExtended m tlv => exact opens_submitShares hh
  | updateChannel m =>
      obtain rfl := Except.ok.inj hh
      exact opens_updateChannel m
  | closeChannel c =>
      obtain rfl := Except.ok.inj hh
      exact (closes_closeChannel s c).1

end Join

section Upstream

/-- The requests a frame of the upstream can be answered for. -/
def servedByFrame (s : ChannelManager api) (hash : UInt32 → Nat) :
    UpstreamMessage → List RequestId
  | .openExtendedMiningChannelSuccess m =>
      if m.requestId ∈ s.pendingDownstreamChannels then
        m.requestId :: match s.mode with
          | .aggregated =>
              (iterate hash (s.pendingDownstreamChannels.erase m.requestId)).map (·.1)
          | .nonAggregated => []
      else []
  | _ => []

theorem keys_iterate {V : Type} (hash : UInt32 → Nat) (m : AList fun _ : UInt32 => V) :
    ((iterate hash m).map (·.1)).Perm m.keys :=
  (List.perm_insertionSort _ m.entries).map _

/-- No request is answered twice. -/
theorem servedByFrame_nodup (s : ChannelManager api) (hash : UInt32 → Nat) (m : UpstreamMessage) :
    (s.servedByFrame hash m).Nodup := by
  cases m with
  | openExtendedMiningChannelSuccess m =>
      simp only [servedByFrame]
      split
      · cases s.mode with
        | nonAggregated => exact List.nodup_singleton _
        | aggregated =>
            have hperm := keys_iterate hash (s.pendingDownstreamChannels.erase m.requestId)
            refine List.nodup_cons.mpr ⟨fun hmem => ?_, ?_⟩
            · have hkey := hperm.mem_iff.mp hmem
              rw [← AList.mem_keys, AList.mem_erase] at hkey
              exact hkey.1 rfl
            · exact hperm.nodup_iff.mpr (AList.keys_nodup _)
      · exact List.nodup_nil
  | _ => exact List.nodup_nil

theorem servedBy_nodup (s : ChannelManager api) (m : ClientMessage) : (s.servedBy m).Nodup := by
  unfold servedBy
  split
  · split
    · split
      · exact List.nodup_singleton _
      · exact List.nodup_nil
    · exact List.nodup_nil
  · exact List.nodup_nil

/-- Two handlers, one after the other. -/
theorem Opens.append {rs rs' : List RequestId} {h h' : Handled api} (ho : Opens s rs h)
    (ho' : Opens h.manager rs' h') :
    Opens s (rs ++ rs') { h' with toSv1Server := h.toSv1Server ++ h'.toSv1Server } where
  mode := ho'.mode.trans ho.mode
  opened := by
    intro c hc
    rw [successes_append]
    rcases ho'.opened c hc with hold | hsentinel | ⟨m, hm, heq⟩
    · rcases ho.opened c hold with hold | hsentinel | ⟨m, hm, heq⟩
      · exact .inl hold
      · exact .inr (.inl hsentinel)
      · exact .inr (.inr ⟨m, List.mem_append_left _ hm, heq⟩)
    · rw [ho.mode] at hsentinel
      exact .inr (.inl hsentinel)
    · exact .inr (.inr ⟨m, List.mem_append_right _ hm, heq⟩)
  answered := by
    rw [successes_append, List.map_append]
    exact ho.answered.append ho'.answered

/-- The buffered requests are answered at most once each. -/
theorem opens_servePending {xs : List (Sigma fun _ : RequestId => PendingChannel)}
    {h : Handled api} (hh : s.servePending xs = .ok h) : Opens s (xs.map (·.1)) h := by
  induction xs generalizing s h with
  | nil =>
      obtain rfl := Except.ok.inj hh
      exact .nothing rfl (fun _ hc => hc) rfl
  | cons x xs ih =>
      rw [servePending] at hh
      cases hjoin : s.handleDownstreamChannelRequestInAggregatedMode x.1
          x.2.downstreamExtranonceLen with
      | error e => simp [hjoin] at hh
      | ok h₁ =>
          cases hrest : h₁.manager.servePending xs with
          | error e => simp [hjoin, hrest] at hh
          | ok h₂ =>
              simp only [hjoin, hrest, Except.ok.injEq] at hh
              obtain rfl := hh
              have hfirst : Opens s [x.1] h₁ := (opens_join hjoin).weaken (by
                split
                · exact List.Sublist.refl _
                · exact List.nil_sublist _)
              exact hfirst.append (ih hrest)

/-- The two halves of a success: its channel is the one it names. -/
theorem openAggregated_map {m : UpstreamOpenSuccess} {pending : PendingChannel}
    {s' : ChannelManager api} {success : OpenExtendedMiningChannelSuccess}
    (h : s.openAggregated m pending = .ok (s', success)) :
    s'.mode = s.mode ∧ s'.pendingDownstreamChannels = s.pendingDownstreamChannels ∧
      success.requestId = m.requestId ∧ ∀ c ∈ s'.extendedChannels,
        c ∈ s.extendedChannels ∨ c = aggregatedChannelId ∨ success.channelId = c := by
  unfold openAggregated at h
  split at h
  · cases h
  · split at h
    · cases h
    · dsimp only at h
      split at h
      · cases h
      · obtain ⟨rfl, rfl⟩ := Prod.mk.inj (Except.ok.inj h)
        refine ⟨by simp, by simp, rfl, fun c hc => ?_⟩
        rw [mem_insertChannel, mem_insertChannel] at hc
        rcases hc with rfl | rfl | hold
        · exact .inr (.inr rfl)
        · exact .inr (.inl rfl)
        · exact .inl hold

theorem openNonAggregated_map {m : UpstreamOpenSuccess} {pending : PendingChannel}
    {s' : ChannelManager api} {success : OpenExtendedMiningChannelSuccess}
    (h : s.openNonAggregated m pending = .ok (s', success)) :
    s'.mode = s.mode ∧ success.requestId = m.requestId ∧ ∀ c ∈ s'.extendedChannels,
      c ∈ s.extendedChannels ∨ success.channelId = c := by
  unfold openNonAggregated at h
  split at h
  · cases h
  · split at h
    · cases h
    · obtain ⟨rfl, rfl⟩ := Prod.mk.inj (Except.ok.inj h)
      refine ⟨by simp, rfl, fun c hc => ?_⟩
      rw [mem_insertChannel] at hc
      rcases hc with rfl | hold
      · exact .inr rfl
      · exact .inl hold

theorem opens_openSuccess {hash : UInt32 → Nat} {m : UpstreamOpenSuccess} {h : Handled api}
    (hh : s.handleOpenExtendedMiningChannelSuccess hash m = .ok h) :
    Opens s (s.servedByFrame hash (.openExtendedMiningChannelSuccess m)) h := by
  unfold handleOpenExtendedMiningChannelSuccess at hh
  split at hh
  · obtain rfl := Except.ok.inj hh
    exact (Opens.nothing (s := s) rfl (fun _ hc => hc) rfl).weaken (List.nil_sublist _)
  · rename_i pending hpending
    have hmem : m.requestId ∈ s.pendingDownstreamChannels :=
      AList.lookup_isSome.mp (by rw [hpending]; rfl)
    simp only [servedByFrame, if_pos hmem]
    dsimp only at hh
    split at hh
    · cases hh
    · rename_i group _
      split at hh
      · rename_i hmode
        simp only [hmode]
        split at hh
        · cases hh
        · rename_i s' success hopen
          obtain rfl := Except.ok.inj hh
          obtain ⟨hmode', hrequest, hmap⟩ := openNonAggregated_map hopen
          refine ⟨hmode', fun c hc => ?_, ?_⟩
          · rcases hmap c hc with hold | heq
            · exact .inl hold
            · exact .inr (.inr ⟨success, List.mem_cons_self, heq⟩)
          · rw [← hrequest]
            exact List.Sublist.refl _
      · rename_i hmode
        simp only [hmode]
        split at hh
        · cases hh
        · rename_i s' success hopen
          split at hh
          · cases hh
          · rename_i h' hserve
            obtain rfl := Except.ok.inj hh
            obtain ⟨hmode', hpending', hrequest, hmap⟩ := openAggregated_map hopen
            rw [hpending'] at hserve
            have hfirst : Opens s [m.requestId]
                { manager := { s' with pendingDownstreamChannels := ∅ }
                  toSv1Server := [.openExtendedMiningChannelSuccess success] } := by
              refine ⟨hmode', fun c hc => ?_, ?_⟩
              · rcases hmap c hc with hold | rfl | heq
                · exact .inl hold
                · exact .inr (.inl ⟨hmode, rfl⟩)
                · exact .inr (.inr ⟨success, List.mem_cons_self, heq⟩)
              · rw [← hrequest]
                exact List.Sublist.refl _
            exact hfirst.append (opens_servePending hserve)

theorem foldl_removeChannel_map (cs : List ChannelId) (s : ChannelManager api) :
    (cs.foldl removeChannel s).mode = s.mode ∧
      ∀ c ∈ (cs.foldl removeChannel s).extendedChannels, c ∈ s.extendedChannels := by
  induction cs generalizing s with
  | nil => exact ⟨rfl, fun _ hc => hc⟩
  | cons c cs ih =>
      obtain ⟨hmode, hmap⟩ := ih (s.removeChannel c)
      refine ⟨hmode.trans (removeChannel_mode s c), fun c' hc' => ?_⟩
      exact ((mem_removeChannel s).mp (hmap c' hc')).2

theorem opens_closeChannel {c : ChannelId} {h : Handled api}
    (hh : s.handleCloseChannel c = .ok h) : Opens s [] h := by
  unfold handleCloseChannel at hh
  split at hh
  · cases hh
  · split at hh
    · rename_i group _
      obtain rfl := Except.ok.inj hh
      obtain ⟨hmode, hmap⟩ := foldl_removeChannel_map (api.members group)
        { s with groupChannels := s.groupChannels.erase c }
      exact .nothing hmode hmap rfl
    · split at hh
      · obtain rfl := Except.ok.inj hh
        exact .nothing rfl (fun _ hc => hc) rfl
      · obtain rfl := Except.ok.inj hh
        refine .nothing (by simp) (fun c' hc' => ?_) rfl
        simp only [extendedChannels_removeFromGroups, mem_removeChannel] at hc'
        exact hc'.2

theorem opens_newExtendedMiningJob {hash : UInt32 → Nat} {m : NewExtendedMiningJob}
    {h : Handled api} (hh : s.handleNewExtendedMiningJob hash m = .ok h) : Opens s [] h := by
  unfold handleNewExtendedMiningJob at hh
  split at hh
  · cases hh
  · split at hh
    · split at hh
      · cases hh
      · obtain rfl := Except.ok.inj hh
        exact .nothing rfl (fun _ hc => hc) rfl
      · split at hh
        · cases hh
        · rename_i hall
          obtain rfl := Except.ok.inj hh
          obtain ⟨hmode, hmap⟩ := updateAll_map hall
          exact .nothing hmode (fun c hc => (hmap c).mp hc) (successes_jobMessages _)
    · split at hh
      · dsimp only at hh
        split at hh
        · cases hh
        · rename_i hvisit
          obtain rfl := Except.ok.inj hh
          obtain ⟨hmode, hmap⟩ := visitMembers_map hvisit
          exact .nothing hmode (fun c hc => (hmap c).mp hc) (successes_jobMessages _)
      · split at hh
        · obtain rfl := Except.ok.inj hh
          exact .nothing rfl (fun _ hc => hc) rfl
        · split at hh
          · cases hh
          · rename_i hvisit
            obtain rfl := Except.ok.inj hh
            obtain ⟨hmode, hmap⟩ := visitMembers_map hvisit
            exact .nothing hmode (fun c hc => (hmap c).mp hc) (successes_jobMessages _)

theorem opens_setNewPrevHash {hash : UInt32 → Nat} {m : SetNewPrevHash} {h : Handled api}
    (hh : s.handleSetNewPrevHash hash m = .ok h) : Opens s [] h := by
  unfold handleSetNewPrevHash at hh
  split at hh
  · split at hh
    · cases hh
    · obtain rfl := Except.ok.inj hh
      exact .nothing rfl (fun _ hc => hc) rfl
    · split at hh
      · cases hh
      · rename_i hall
        split at hh
        · cases hh
        · obtain rfl := Except.ok.inj hh
          obtain ⟨hmode, hmap⟩ := updateAll_map hall
          exact .nothing hmode (fun c hc => (hmap c).mp hc) (successes_prevHashMessages _)
  · split at hh
    · split at hh
      · cases hh
      · dsimp only at hh
        split at hh
        · cases hh
        · rename_i hvisit
          obtain rfl := Except.ok.inj hh
          obtain ⟨hmode, hmap⟩ := visitMembers_map hvisit
          exact .nothing hmode (fun c hc => (hmap c).mp hc) (successes_prevHashMessages _)
    · split at hh
      · obtain rfl := Except.ok.inj hh
        exact .nothing rfl (fun _ hc => hc) rfl
      · split at hh
        · cases hh
        · rename_i hvisit
          obtain rfl := Except.ok.inj hh
          obtain ⟨hmode, hmap⟩ := visitMembers_map hvisit
          exact .nothing hmode (fun c hc => (hmap c).mp hc) (successes_prevHashMessages _)

theorem opens_setTarget {hash : UInt32 → Nat} {m : SetTarget} {h : Handled api}
    (hh : s.handleSetTarget hash m = .ok h) : Opens s [] h := by
  unfold handleSetTarget at hh
  split at hh
  · split at hh
    · cases hh
    · obtain rfl := Except.ok.inj hh
      exact .nothing rfl (fun _ hc => hc) rfl
    · split at hh
      · cases hh
      · rename_i hall
        obtain rfl := Except.ok.inj hh
        obtain ⟨hmode, hmap⟩ := updateAll_map hall
        exact .nothing hmode (fun c hc => (hmap c).mp hc) rfl
  · split at hh
    · split at hh
      · cases hh
      · rename_i hvisit
        obtain rfl := Except.ok.inj hh
        obtain ⟨hmode, hmap⟩ := visitMembers_map hvisit
        exact .nothing hmode (fun c hc => (hmap c).mp hc) (successes_map_target _)
    · split at hh
      · obtain rfl := Except.ok.inj hh
        exact .nothing rfl (fun _ hc => hc) rfl
      · split at hh
        · cases hh
        · rename_i hvisit
          obtain rfl := Except.ok.inj hh
          obtain ⟨hmode, hmap⟩ := visitMembers_map hvisit
          exact .nothing hmode (fun c hc => (hmap c).mp hc) (successes_map_target _)

theorem opens_setGroupChannel {m : SetGroupChannel} {h : Handled api}
    (hh : s.handleSetGroupChannel m = .ok h) : Opens s [] h := by
  unfold handleSetGroupChannel at hh
  dsimp only at hh
  split at hh
  · cases hh
  · obtain rfl := Except.ok.inj hh
    exact .nothing rfl (fun _ hc => hc) rfl

/-- Every frame of the upstream. -/
theorem opens_upstreamFrame {hash : UInt32 → Nat} {m : UpstreamMessage} {h : Handled api}
    (hh : s.handleUpstreamFrame hash m = .ok h) : Opens s (s.servedByFrame hash m) h := by
  cases m with
  | openExtendedMiningChannelSuccess m => exact opens_openSuccess hh
  | openMiningChannelError => cases hh
  | closeChannel c => exact opens_closeChannel hh
  | newExtendedMiningJob m => exact opens_newExtendedMiningJob hh
  | setNewPrevHash m => exact opens_setNewPrevHash hh
  | setTarget m => exact opens_setTarget hh
  | setGroupChannel m => exact opens_setGroupChannel hh

end Upstream

end ChannelManager

end GridPoolSv2.Translator
