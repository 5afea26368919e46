import GridPoolSv2.Translator.ChannelMap

/-!
# Translator.TipMessages: what the messages say about the chain tips

The `Sv1Server` learns the chain tip of a channel from the `SetNewPrevHash` messages in its queue
and pairs every job message with the last one of the channel. `Announces` says of a handler of the
channel manager that this works out: if the `Sv1Server` is going to know the chain tips of the
channels before the handler, it is going to know them afterwards, and every job message comes at a
point of the queue where the prev-hash of its channel is the chain tip of the channel.

* In aggregated mode all messages are about the sentinel, so only the sentinel is `Addressed`.
* `Quiet` handlers move no channel to a chain tip. All but one handler are quiet, and
  `handleSetNewPrevHash` is the one that is not.

Proof shape: a message is looked at together with a ghost, the `Snapshot` of its channel at the end
of the handler that queued it. `Paired` and `afterMessages` go through the queue from left to right
and split over appended queues, so handlers compose. For the quiet handlers `Keeps` is shown of the
map of channels and `Current` of each message, and `Quiet.announces` does the rest. The new
prev-hash visits the members of a group one by one: `Walked` says what the visited and the other
channels are like on the way, and a channel that is visited twice is ruled out because a prev-hash
leaves it no future job (`ClearsFutureJobs`).
-/

namespace GridPoolSv2.Translator

open Function (update)
open Visit

/-! ### The messages in the queue -/

/-- The `prevhashes` of the `Sv1Server`. -/
abbrev PrevHashes := ChannelId → Option SetNewPrevHash

/-- The prev-hashes after a message. -/
def afterMessage (ph : PrevHashes) : Sv1Message → PrevHashes
  | .setNewPrevHash m => update ph m.channelId (some m)
  | _ => ph

/-- The prev-hashes after the messages of a queue. -/
def afterMessages (ph : PrevHashes) (ms : List Sv1Message) : PrevHashes :=
  ms.foldl afterMessage ph

/-- The channel a message is about. -/
def Sv1Message.channelId : Sv1Message → ChannelId
  | .openExtendedMiningChannelSuccess m => m.channelId
  | .newExtendedMiningJob m => m.channelId
  | .setNewPrevHash m => m.channelId
  | .setTarget m => m.channelId

/-- **Ghost.** What an extended channel knows of jobs; a new channel knows nothing. -/
structure Snapshot where
  activeJob : Option NewExtendedMiningJob := none
  futureJobs : List NewExtendedMiningJob := []
  chainTip : Option ChainTip := none
  deriving Repr, DecidableEq

/-- The job is the active one, under the channel id of the message. -/
def Snapshot.Runs (snap : Snapshot) (job : NewExtendedMiningJob) : Prop :=
  snap.activeJob.map ({ · with channelId := job.channelId }) = some job

/-- The prev-hash of a channel is this chain tip. -/
def Knows (ph : PrevHashes) (c : ChannelId) (tip : ChainTip) : Prop :=
  (ph c).map (·.chainTip) = some tip

/-- A job message is about the active job, and the prev-hash is the chain tip it is active under. -/
def Tied (ph : PrevHashes) : Sv1Message × Snapshot → Prop
  | (.newExtendedMiningJob job, snap) =>
      snap.Runs job ∧ ∀ tip, snap.chainTip = some tip → Knows ph job.channelId tip
  | _ => True

/-- Every message of a queue is tied to the prev-hashes it is going to meet. -/
def Paired (ph : PrevHashes) : List (Sv1Message × Snapshot) → Prop
  | [] => True
  | x :: xs => Tied ph x ∧ Paired (afterMessage ph x.1) xs

@[simp] theorem afterMessages_nil (ph : PrevHashes) : afterMessages ph [] = ph := rfl

@[simp] theorem afterMessages_append (ph : PrevHashes) (ms ns : List Sv1Message) :
    afterMessages ph (ms ++ ns) = afterMessages (afterMessages ph ms) ns :=
  List.foldl_append

theorem paired_append {ph : PrevHashes} {xs ys : List (Sv1Message × Snapshot)} :
    Paired ph (xs ++ ys) ↔ Paired ph xs ∧ Paired (afterMessages ph (xs.map (·.1))) ys := by
  induction xs generalizing ph with
  | nil => simp [Paired]
  | cons x xs ih =>
      simp only [List.cons_append, Paired, ih, and_assoc, List.map_cons]
      exact Iff.rfl

theorem afterMessages_of_noPrevHash {ph : PrevHashes} {ms : List Sv1Message}
    (hms : ∀ m ∈ ms, ∀ p, m ≠ .setNewPrevHash p) : afterMessages ph ms = ph := by
  induction ms generalizing ph with
  | nil => rfl
  | cons m ms ih =>
      have hm : afterMessage ph m = ph := by
        cases m with
        | setNewPrevHash p => exact absurd rfl (hms _ List.mem_cons_self p)
        | _ => rfl
      change afterMessages (afterMessage ph m) ms = ph
      rw [hm]
      exact ih fun n hn => hms n (List.mem_cons_of_mem _ hn)

/-- Without a prev-hash among them, messages meet the prev-hashes there are. -/
theorem paired_of_noPrevHash {ph : PrevHashes} {xs : List (Sv1Message × Snapshot)}
    (hms : ∀ m ∈ xs.map (·.1), ∀ p, m ≠ .setNewPrevHash p) (hxs : ∀ x ∈ xs, Tied ph x) :
    Paired ph xs := by
  induction xs with
  | nil => trivial
  | cons x xs ih =>
      have hx : afterMessages ph [x.1] = ph := afterMessages_of_noPrevHash fun m hm p => by
        obtain rfl := List.mem_singleton.mp hm
        exact hms _ List.mem_cons_self p
      refine ⟨hxs x List.mem_cons_self, ?_⟩
      change Paired (afterMessages ph [x.1]) xs
      rw [hx]
      exact ih (fun m hm => hms m (List.mem_cons_of_mem _ hm))
        fun y hy => hxs y (List.mem_cons_of_mem _ hy)

/-- A `SetNewPrevHash` activates one future job; the other future jobs are useless then. -/
def ChannelsSv2.ClearsFutureJobs (api : ChannelsSv2) : Prop :=
  ∀ {ch m ch'}, api.onSetNewPrevHash ch m = some ch' → api.futureJobs ch' = []

theorem referenceChannels_clears : referenceChannels.ClearsFutureJobs := by
  intro ch m ch' h
  obtain ⟨job, -, rfl⟩ := Option.map_eq_some_iff.mp h
  rfl

namespace ChannelManager

variable {api : ChannelsSv2} {s : ChannelManager api}

/-- What a channel knows now; one that is not there is like a new one. -/
def snapshot (s : ChannelManager api) (c : ChannelId) : Snapshot :=
  match s.extendedChannels.lookup c with
  | none => {}
  | some ch => ⟨api.activeJob ch, api.futureJobs ch, api.chainTip ch⟩

/-- The messages a handler sends, with the channels it leaves behind. -/
def queuedBy (s : ChannelManager api) (ms : List Sv1Message) : List (Sv1Message × Snapshot) :=
  ms.map fun m => (m, s.snapshot m.channelId)

@[simp] theorem map_queuedBy (ms : List Sv1Message) : (s.queuedBy ms).map (·.1) = ms := by
  simp [queuedBy, Function.comp_def]

theorem queuedBy_append (ms ns : List Sv1Message) :
    s.queuedBy (ms ++ ns) = s.queuedBy ms ++ s.queuedBy ns :=
  List.map_append

theorem snapshot_of_some {c : ChannelId} {ch : api.Channel}
    (hc : s.extendedChannels.lookup c = some ch) :
    s.snapshot c = ⟨api.activeJob ch, api.futureJobs ch, api.chainTip ch⟩ := by
  simp [snapshot, hc]

theorem snapshot_of_none {c : ChannelId} (hc : s.extendedChannels.lookup c = none) :
    s.snapshot c = {} := by
  simp [snapshot, hc]

theorem snapshot_congr {s' : ChannelManager api} {c : ChannelId}
    (hc : s'.extendedChannels.lookup c = s.extendedChannels.lookup c) :
    s'.snapshot c = s.snapshot c := by
  rw [snapshot, snapshot, hc]

/-- The channels the messages are about. -/
def Addressed (mode : TproxyMode) (c : ChannelId) : Prop :=
  mode = .aggregated → c = aggregatedChannelId

/-- The `Sv1Server` knows the chain tips, and a future job is stored under the id of its channel. -/
structure Told (s : ChannelManager api) (ph : PrevHashes) : Prop where
  tips : ∀ c tip, Addressed s.mode c → (s.snapshot c).chainTip = some tip → Knows ph c tip
  named : s.mode = .nonAggregated → ∀ c, ∀ j ∈ (s.snapshot c).futureJobs, j.channelId = c

/-- A handler keeps what the `Sv1Server` is going to know in step with the channels. -/
structure Announces (s : ChannelManager api) (h : Handled api) : Prop where
  mode : h.manager.mode = s.mode
  told : ∀ ph, Told s ph → Told h.manager (afterMessages ph h.toSv1Server)
  paired : ∀ ph, Told s ph → Paired ph (h.manager.queuedBy h.toSv1Server)

/-! ### Quiet handlers -/

/-- No channel moves to a chain tip: each has the one it had, or none. -/
structure Keeps (s s' : ChannelManager api) : Prop where
  mode : s'.mode = s.mode
  tips : ∀ c tip, Addressed s.mode c → (s'.snapshot c).chainTip = some tip →
    (s.snapshot c).chainTip = some tip
  named : s.mode = .nonAggregated → ∀ c, ∀ j ∈ (s'.snapshot c).futureJobs,
    j.channelId = c ∨ j ∈ (s.snapshot c).futureJobs

/-- The message announces no chain tip, and its job is the active one. -/
def Current (s : ChannelManager api) : Sv1Message → Prop
  | .newExtendedMiningJob job =>
      (s.snapshot job.channelId).Runs job ∧ Addressed s.mode job.channelId
  | .setNewPrevHash _ => False
  | _ => True

/-- A handler that moves no channel to a chain tip. -/
structure Quiet (s : ChannelManager api) (h : Handled api) : Prop where
  keeps : Keeps s h.manager
  current : ∀ m ∈ h.toSv1Server, h.manager.Current m

theorem Current.noPrevHash {m : Sv1Message} (hm : s.Current m) (p : SetNewPrevHash) :
    m ≠ .setNewPrevHash p := by
  rintro rfl
  exact hm

theorem Keeps.told {s' : ChannelManager api} (hk : Keeps s s') {ph : PrevHashes}
    (ht : Told s ph) : Told s' ph where
  tips := by
    intro c tip hc htip
    rw [hk.mode] at hc
    exact ht.tips c tip hc (hk.tips c tip hc htip)
  named := by
    intro hmode c j hj
    rw [hk.mode] at hmode
    rcases hk.named hmode c j hj with hnew | hold
    · exact hnew
    · exact ht.named hmode c j hold

/-- **Quiet handlers announce.** -/
theorem Quiet.announces {h : Handled api} (hq : Quiet s h) : Announces s h where
  mode := hq.keeps.mode
  told := by
    intro ph ht
    rw [afterMessages_of_noPrevHash fun m hm => (hq.current m hm).noPrevHash]
    exact hq.keeps.told ht
  paired := by
    intro ph ht
    have ht' := hq.keeps.told ht
    refine paired_of_noPrevHash (fun m hm => ?_) fun x hx => ?_
    · rw [map_queuedBy] at hm
      exact (hq.current m hm).noPrevHash
    · obtain ⟨m, hm, rfl⟩ := List.mem_map.mp hx
      have hcurrent := hq.current m hm
      cases m with
      | newExtendedMiningJob job =>
          exact ⟨hcurrent.1, fun tip htip => ht'.tips _ tip hcurrent.2 htip⟩
      | _ => trivial

/-- Channels that are as they were, or that know nothing. -/
theorem Keeps.of_snapshot {s' : ChannelManager api} (hmode : s'.mode = s.mode)
    (hsame : ∀ c, Addressed s.mode c → s'.snapshot c = s.snapshot c ∨ s'.snapshot c = {}) :
    Keeps s s' where
  mode := hmode
  tips := by
    intro c tip hc htip
    rcases hsame c hc with heq | heq
    · rwa [heq] at htip
    · rw [heq] at htip
      cases htip
  named := by
    intro hmode' c j hj
    have hc : Addressed s.mode c := fun ha => by rw [ha] at hmode'; cases hmode'
    rcases hsame c hc with heq | heq
    · rw [heq] at hj
      exact .inr hj
    · rw [heq] at hj
      cases hj

theorem Keeps.of_map {s' : ChannelManager api} (hmode : s'.mode = s.mode)
    (hmap : s'.extendedChannels = s.extendedChannels) : Keeps s s' :=
  .of_snapshot hmode fun c _ => .inl (snapshot_congr (by rw [hmap]))

theorem Keeps.refl (s : ChannelManager api) : Keeps s s := .of_map rfl rfl

theorem Keeps.trans {s' s'' : ChannelManager api} (hk : Keeps s s') (hk' : Keeps s' s'') :
    Keeps s s'' where
  mode := hk'.mode.trans hk.mode
  tips := by
    intro c tip hc htip
    exact hk.tips c tip hc (hk'.tips c tip (hk.mode ▸ hc) htip)
  named := by
    intro hmode c j hj
    rcases hk'.named (hk.mode.trans hmode) c j hj with hnew | hold
    · exact .inl hnew
    · exact hk.named hmode c j hold

theorem Keeps.of_eq {s₁ s' : ChannelManager api} (hk : Keeps s₁ s') (hmode : s₁.mode = s.mode)
    (hmap : s₁.extendedChannels = s.extendedChannels) : Keeps s s' :=
  (Keeps.of_map hmode hmap).trans hk

/-- A quiet handler that sends nothing. -/
theorem Keeps.quiet {s' : ChannelManager api} {ms : List ClientMessage} (hk : Keeps s s') :
    Quiet s { manager := s', toUpstream := ms } where
  keeps := hk
  current := fun m hm => by cases hm

theorem quiet_of_map {s' : ChannelManager api} {ms : List ClientMessage} (hmode : s'.mode = s.mode)
    (hmap : s'.extendedChannels = s.extendedChannels) :
    Quiet s { manager := s', toUpstream := ms } :=
  (Keeps.of_map hmode hmap).quiet

/-! ### Channels that come, go and change in place -/

theorem keeps_removeChannel (s : ChannelManager api) (c : ChannelId) :
    Keeps s (s.removeChannel c) := by
  refine .of_snapshot (removeChannel_mode s c) fun c' _ => ?_
  by_cases heq : c' = c
  · right
    apply snapshot_of_none
    rw [extendedChannels_removeChannel, heq, AList.lookup_erase]
  · left
    apply snapshot_congr
    rw [extendedChannels_removeChannel, AList.lookup_erase_ne heq]

theorem lookup_insertChannel (s : ChannelManager api) (c : ChannelId) (ch : api.Channel) :
    (s.insertChannel c ch).extendedChannels.lookup c = some ch :=
  AList.lookup_insert _

theorem lookup_insertChannel_ne (s : ChannelManager api) {c c' : ChannelId} (ch : api.Channel)
    (hne : c' ≠ c) :
    (s.insertChannel c ch).extendedChannels.lookup c' = s.extendedChannels.lookup c' := by
  rw [insertChannel, AList.lookup_insert_ne hne, extendedChannels_removeChannel,
    AList.lookup_erase_ne hne]

theorem lookup_setChannel (s : ChannelManager api) (c : ChannelId) (ch : api.Channel) :
    (s.setChannel c ch).extendedChannels.lookup c = some ch :=
  AList.lookup_insert _

theorem lookup_setChannel_ne (s : ChannelManager api) {c c' : ChannelId} (ch : api.Channel)
    (hne : c' ≠ c) :
    (s.setChannel c ch).extendedChannels.lookup c' = s.extendedChannels.lookup c' :=
  AList.lookup_insert_ne hne

theorem snapshot_new (hapi : api.Lawful) {c c' : ChannelId} {p : ExtranoncePrefix} {t : Nat}
    {n : UInt16} (hc : s.extendedChannels.lookup c = some (api.newChannel c' p t n)) :
    s.snapshot c = {} := by
  have hnew := hapi.newChannel (c := c') (p := p) (t := t) (n := n)
  rw [snapshot_of_some hc, hnew.activeJob, hnew.futureJobs, hnew.chainTip]

/-- A channel is opened, in place of the one that had its id. -/
theorem snapshot_insertNew (hapi : api.Lawful) (s : ChannelManager api) (c c' : ChannelId)
    (p : ExtranoncePrefix) (t : Nat) (n : UInt16) (c'' : ChannelId) :
    (s.insertChannel c (api.newChannel c' p t n)).snapshot c'' = s.snapshot c'' ∨
      (s.insertChannel c (api.newChannel c' p t n)).snapshot c'' = {} := by
  by_cases heq : c'' = c
  · subst heq
    exact .inr (snapshot_new hapi (lookup_insertChannel s c'' _))
  · exact .inl (snapshot_congr (lookup_insertChannel_ne s _ heq))

theorem keeps_insertNew (hapi : api.Lawful) (s : ChannelManager api) (c c' : ChannelId)
    (p : ExtranoncePrefix) (t : Nat) (n : UInt16) :
    Keeps s (s.insertChannel c (api.newChannel c' p t n)) :=
  .of_snapshot (insertChannel_mode s c _) fun c'' _ => snapshot_insertNew hapi s c c' p t n c''

theorem keeps_setChannel {c : ChannelId} {ch ch' : api.Channel}
    (hc : s.extendedChannels.lookup c = some ch) (hsame : api.SameJobs ch ch') :
    Keeps s (s.setChannel c ch') := by
  refine .of_snapshot rfl fun c' _ => .inl ?_
  by_cases heq : c' = c
  · subst heq
    rw [snapshot_of_some (lookup_setChannel s c' ch'), snapshot_of_some hc, hsame.activeJob,
      hsame.futureJobs, hsame.chainTip]
  · exact snapshot_congr (lookup_setChannel_ne s ch' heq)

/-- A walk that changes each channel as `R` allows. -/
theorem visitMembers_entry {α : Type} {R : ChannelId → api.Channel → api.Channel → Prop}
    {f : ChannelId → api.Channel → Except Fatal (api.Channel × α)} {cs : List ChannelId}
    {s' : ChannelManager api} {xs : List α} (h : visitMembers f s cs = .ok (s', xs))
    (hrefl : ∀ c ch, R c ch ch)
    (htrans : ∀ c ch ch' ch'', R c ch ch' → R c ch' ch'' → R c ch ch'')
    (hf : ∀ c ch ch' x, f c ch = .ok (ch', x) → R c ch ch') {c : ChannelId} {ch' : api.Channel}
    (hc : s'.extendedChannels.lookup c = some ch') :
    ∃ ch, s.extendedChannels.lookup c = some ch ∧ R c ch ch' := by
  induction cs generalizing s xs with
  | nil =>
      obtain ⟨rfl, rfl⟩ := Prod.mk.inj (Except.ok.inj h)
      exact ⟨ch', hc, hrefl c ch'⟩
  | cons c₁ cs ih =>
      rw [visitMembers] at h
      cases hc₁ : s.extendedChannels.lookup c₁ with
      | none => simp [hc₁] at h
      | some ch₁ =>
          cases hf₁ : f c₁ ch₁ with
          | error e => simp [hc₁, hf₁] at h
          | ok r =>
              obtain ⟨ch₂, x⟩ := r
              cases hrest : visitMembers f (s.setChannel c₁ ch₂) cs with
              | error e => simp [hc₁, hf₁, hrest] at h
              | ok r =>
                  obtain ⟨s'', xs'⟩ := r
                  simp only [hc₁, hf₁, hrest, Except.ok.injEq, Prod.mk.injEq] at h
                  obtain ⟨rfl, rfl⟩ := h
                  obtain ⟨ch, hch, hR⟩ := ih hrest
                  by_cases heq : c = c₁
                  · subst heq
                    obtain rfl := Option.some.inj ((lookup_setChannel s c ch₂).symm.trans hch)
                    exact ⟨ch₁, hc₁, htrans c _ _ _ (hf c ch₁ ch₂ x hf₁) hR⟩
                  · rw [lookup_setChannel_ne s ch₂ heq] at hch
                    exact ⟨ch, hch, hR⟩

/-- What the visits leave is true of the channels in the end, if a second visit of a channel keeps
it true; the channels that are not visited stay. -/
theorem visitMembers_left {α : Type} {I : ChannelId → api.Channel → Prop}
    {P : ChannelId → api.Channel → α → Prop}
    {f : ChannelId → api.Channel → Except Fatal (api.Channel × α)} {cs : List ChannelId}
    {s' : ChannelManager api} {xs : List α} (h : visitMembers f s cs = .ok (s', xs))
    (hf : ∀ c ch ch' x, I c ch → f c ch = .ok (ch', x) → I c ch' ∧ P c ch' x)
    (hagain : ∀ c ch ch' x y, P c ch x → f c ch = .ok (ch', y) → P c ch' x)
    (hI : ∀ c ch, s.extendedChannels.lookup c = some ch → I c ch) :
    (∀ x ∈ xs, ∃ c ∈ cs, ∃ ch, s'.extendedChannels.lookup c = some ch ∧ P c ch x) ∧
      (∀ c ∈ cs, ∃ x ∈ xs, ∃ ch, s'.extendedChannels.lookup c = some ch ∧ P c ch x) ∧
      ∀ c ∉ cs, s'.extendedChannels.lookup c = s.extendedChannels.lookup c := by
  induction cs generalizing s xs with
  | nil =>
      obtain ⟨rfl, rfl⟩ := Prod.mk.inj (Except.ok.inj h)
      exact ⟨fun _ hx => (List.not_mem_nil hx).elim, fun _ hc => (List.not_mem_nil hc).elim,
        fun _ _ => rfl⟩
  | cons c₁ cs ih =>
      rw [visitMembers] at h
      cases hc₁ : s.extendedChannels.lookup c₁ with
      | none => simp [hc₁] at h
      | some ch₁ =>
          cases hf₁ : f c₁ ch₁ with
          | error e => simp [hc₁, hf₁] at h
          | ok r =>
              obtain ⟨ch₂, x⟩ := r
              cases hrest : visitMembers f (s.setChannel c₁ ch₂) cs with
              | error e => simp [hc₁, hf₁, hrest] at h
              | ok r =>
                  obtain ⟨s'', xs'⟩ := r
                  simp only [hc₁, hf₁, hrest, Except.ok.injEq, Prod.mk.injEq] at h
                  obtain ⟨rfl, rfl⟩ := h
                  obtain ⟨hI₂, hP₂⟩ := hf c₁ ch₁ ch₂ x (hI c₁ ch₁ hc₁) hf₁
                  obtain ⟨hleft, hvisited, hstay⟩ := ih hrest (by
                    intro c ch hch
                    by_cases heq : c = c₁
                    · subst heq
                      obtain rfl := Option.some.inj ((lookup_setChannel s c ch₂).symm.trans hch)
                      exact hI₂
                    · rw [lookup_setChannel_ne s ch₂ heq] at hch
                      exact hI c ch hch)
                  -- the later visits keep what this one left
                  have hhere : ∃ ch, s''.extendedChannels.lookup c₁ = some ch ∧ P c₁ ch x := by
                    have hmem : c₁ ∈ s''.extendedChannels :=
                      ((visitMembers_map hrest).2 c₁).mpr (AList.lookup_isSome.mp (by
                        rw [lookup_setChannel]; rfl))
                    obtain ⟨ch', hch'⟩ := Option.isSome_iff_exists.mp (AList.lookup_isSome.mpr hmem)
                    obtain ⟨ch, hch, hkept⟩ := visitMembers_entry
                      (R := fun c ch ch' => ∀ x, P c ch x → P c ch' x) hrest
                      (fun _ _ _ hP => hP) (fun _ _ _ _ h₁ h₂ x hP => h₂ x (h₁ x hP))
                      (fun c ch ch' y hy x hP => hagain c ch ch' x y hP hy) hch'
                    obtain rfl := Option.some.inj ((lookup_setChannel s c₁ ch₂).symm.trans hch)
                    exact ⟨ch', hch', hkept x hP₂⟩
                  refine ⟨fun y hy => ?_, fun c hc => ?_, fun c hc => ?_⟩
                  · rcases List.mem_cons.mp hy with rfl | hy
                    · exact ⟨c₁, List.mem_cons_self, hhere⟩
                    · obtain ⟨c, hc, hthere⟩ := hleft y hy
                      exact ⟨c, List.mem_cons_of_mem _ hc, hthere⟩
                  · rcases List.mem_cons.mp hc with rfl | hc
                    · exact ⟨x, List.mem_cons_self, hhere⟩
                    · obtain ⟨y, hy, hthere⟩ := hvisited c hc
                      exact ⟨y, List.mem_cons_of_mem _ hy, hthere⟩
                  · have hne : c ≠ c₁ := fun heq => hc (heq ▸ List.mem_cons_self)
                    rw [hstay c fun hmem => hc (List.mem_cons_of_mem _ hmem),
                      lookup_setChannel_ne s ch₂ hne]

/-- An update of all channels has updated each. -/
theorem updateAll_lookup {f : api.Channel → Option api.Channel} {s' : ChannelManager api}
    (h : s.updateAll f = .ok s') :
    s'.mode = s.mode ∧ ∀ c ch', s'.extendedChannels.lookup c = some ch' →
      ∃ ch, s.extendedChannels.lookup c = some ch ∧ f ch = some ch' := by
  refine ⟨(updateAll_map h).1, fun c ch' hch' => ?_⟩
  have hmem : c ∈ s.extendedChannels := ((updateAll_map h).2 c).mp
    (AList.lookup_isSome.mp (by rw [hch']; rfl))
  obtain ⟨ch, hch⟩ := Option.isSome_iff_exists.mp (AList.lookup_isSome.mpr hmem)
  unfold updateAll at h
  dsimp only at h
  split at h
  · cases h
  · rename_i herror
    obtain rfl := Except.ok.inj h
    obtain ⟨hvalue, herr, -⟩ := visit_ok herror hch
    rw [hvalue] at hch'
    refine ⟨ch, hch, ?_⟩
    cases hf : f ch with
    | none => simp [hf] at herr
    | some ch₂ => simpa [hf] using hch'

/-! ### The messages of the `Sv1Server` -/

section Client

variable (hapi : api.Lawful)

include hapi

theorem keeps_validateShare {c : ChannelId} {ch : api.Channel}
    (hc : s.extendedChannels.lookup c = some ch) (m : SubmitSharesExtended) :
    Keeps s (s.setChannel c (api.validateShare ch m).1) :=
  keeps_setChannel hc hapi.validateShare

omit hapi in
theorem Keeps.forwardShare {s' : ChannelManager api} (hk : Keeps s s') (m : SubmitSharesExtended)
    (tlv : Option Bytes) : Quiet s (s'.forwardShare m tlv) where
  keeps := hk.trans (.of_map rfl rfl)
  current := fun x hx => by cases hx

theorem quiet_submitAggregated {aggregated : api.Channel} {m : SubmitSharesExtended}
    {tlv : Option Bytes} {h : Handled api}
    (haggregated : s.extendedChannels.lookup aggregatedChannelId = some aggregated)
    (hh : s.submitAggregated aggregated m tlv = .ok h) : Quiet s h := by
  unfold submitAggregated at hh
  split at hh
  · cases hh
  · obtain rfl := Except.ok.inj hh
    split
    · exact (keeps_validateShare hapi haggregated _).forwardShare _ _
    · exact (keeps_validateShare hapi haggregated _).quiet

theorem quiet_submitToChannel {m : SubmitSharesExtended} {tlv : Option Bytes} {h : Handled api}
    (hh : s.submitToChannel m tlv = .ok h) : Quiet s h := by
  unfold submitToChannel at hh
  split at hh
  · obtain rfl := Except.ok.inj hh
    exact (Keeps.refl s).quiet
  · rename_i ch hch
    dsimp only at hh
    split at hh
    · split at hh
      · cases hh
      · obtain rfl := Except.ok.inj hh
        exact (keeps_validateShare hapi hch m).forwardShare _ _
    · obtain rfl := Except.ok.inj hh
      exact (keeps_validateShare hapi hch m).quiet

theorem quiet_submitShares {m : SubmitSharesExtended} {tlv : Option Bytes} {h : Handled api}
    (hh : s.handleSubmitSharesExtended m tlv = .ok h) : Quiet s h := by
  unfold handleSubmitSharesExtended at hh
  split at hh
  · rename_i haggregated
    exact quiet_submitAggregated hapi haggregated hh
  · exact quiet_submitToChannel hapi hh

omit hapi in
theorem quiet_updateChannel (s : ChannelManager api) (m : UpdateChannel) :
    Quiet s (s.handleUpdateChannel m) := by
  unfold handleUpdateChannel
  split
  · exact (Keeps.refl s).quiet
  · split <;> exact (Keeps.refl s).quiet

omit hapi in
theorem keeps_close (s : ChannelManager api) (c : ChannelId) :
    Keeps s ((s.removeChannel c).removeFromGroups c) :=
  (keeps_removeChannel s c).trans (.of_map rfl rfl)

omit hapi in
theorem quiet_downstreamCloseChannel (s : ChannelManager api) (c : ChannelId) :
    Quiet s (s.handleDownstreamCloseChannel c) := by
  unfold handleDownstreamCloseChannel
  split
  · exact (keeps_close s c).quiet
  · split
    · exact (Keeps.refl s).quiet
    · exact (keeps_close s c).quiet

/-- A channel that inherits from itself before it knows anything stays as it is. -/
theorem inheritJobs_new (c c' : ChannelId) (p : ExtranoncePrefix) (t : Nat) (n : UInt16) :
    inheritJobs (api.newChannel c p t n) (api.newChannel c p t n) c' = api.newChannel c p t n := by
  have hnew := hapi.newChannel (c := c) (p := p) (t := t) (n := n)
  simp [inheritJobs, hnew.activeJob, hnew.futureJobs, hnew.chainTip]

/-- The channel of a new miner is not the sentinel, or the sentinel is a new channel. -/
theorem join_sentinel {c : ChannelId} {p : ExtranoncePrefix} {t : Nat} {n : UInt16}
    {aggregated : api.Channel} {s' : ChannelManager api}
    (hsentinel : (s.insertChannel c (api.newChannel c p t n)).extendedChannels.lookup
      aggregatedChannelId = some aggregated)
    (hs' : s' = (s.insertChannel c (api.newChannel c p t n)).setChannel c
      (inheritJobs aggregated (api.newChannel c p t n) c)) :
    (s'.snapshot aggregatedChannelId).activeJob = api.activeJob aggregated ∧
      (s'.snapshot aggregatedChannelId = s.snapshot aggregatedChannelId ∨
        s'.snapshot aggregatedChannelId = {}) := by
  subst hs'
  by_cases heq : aggregatedChannelId = c
  · subst heq
    rw [lookup_insertChannel] at hsentinel
    obtain rfl := Option.some.inj hsentinel
    rw [inheritJobs_new hapi, snapshot_new hapi (lookup_setChannel _ _ _)]
    exact ⟨hapi.newChannel.activeJob.symm, .inr rfl⟩
  · have hlookup := lookup_setChannel_ne (s.insertChannel c (api.newChannel c p t n))
      (inheritJobs aggregated (api.newChannel c p t n) c) heq
    rw [snapshot_of_some (hlookup.trans hsentinel)]
    rw [lookup_insertChannel_ne s _ heq] at hsentinel
    rw [snapshot_of_some hsentinel]
    exact ⟨rfl, .inl rfl⟩

/-- A miner joins the aggregated channel. -/
theorem quiet_join {requestId : RequestId} {n : Nat} {h : Handled api}
    (hmode : s.mode = .aggregated)
    (hh : s.handleDownstreamChannelRequestInAggregatedMode requestId n = .ok h) :
    Quiet s h ∧ (h.manager.snapshot aggregatedChannelId = s.snapshot aggregatedChannelId ∨
      h.manager.snapshot aggregatedChannelId = {}) := by
  -- in this mode the sentinel is all that counts
  have hkeeps : ∀ {s' : ChannelManager api}, s'.mode = s.mode →
      (s'.snapshot aggregatedChannelId = s.snapshot aggregatedChannelId ∨
        s'.snapshot aggregatedChannelId = {}) → Keeps s s' := by
    intro s' hmode' hsentinel
    refine .of_snapshot hmode' fun c hc => ?_
    rw [hc hmode]
    exact hsentinel
  unfold handleDownstreamChannelRequestInAggregatedMode at hh
  split at hh
  · cases hh
  · split at hh
    · obtain rfl := Except.ok.inj hh
      exact ⟨(Keeps.refl s).quiet, .inl rfl⟩
    · split at hh
      · obtain rfl := Except.ok.inj hh
        exact ⟨(Keeps.refl s).quiet, .inl rfl⟩
      · dsimp only at hh
        split at hh
        · split at hh
          · cases hh
          · split at hh
            · rename_i aggregated ch hsentinel hch
              obtain rfl := Except.ok.inj hh
              rw [lookup_insertChannel] at hch
              obtain rfl := Option.some.inj hch
              obtain ⟨hactive, hsame⟩ := join_sentinel hapi hsentinel rfl
              refine ⟨⟨hkeeps (by simp) hsame, fun m hm => ?_⟩, hsame⟩
              rcases List.mem_cons.mp hm with rfl | hm
              · trivial
              · obtain ⟨job, hjob, rfl⟩ := List.mem_map.mp hm
                refine ⟨?_, fun _ => rfl⟩
                rw [Snapshot.Runs, hactive, Option.mem_toList.mp hjob]
                rfl
            · obtain rfl := Except.ok.inj hh
              refine ⟨⟨hkeeps (by simp) ?_, fun m hm => ?_⟩, ?_⟩
              · exact snapshot_insertNew hapi _ _ _ _ _ _ _
              · obtain rfl := List.mem_singleton.mp hm
                trivial
              · exact snapshot_insertNew hapi _ _ _ _ _ _ _
        · obtain rfl := Except.ok.inj hh
          exact ⟨quiet_of_map rfl rfl, .inl rfl⟩

theorem quiet_openExtendedMiningChannel {m : OpenExtendedMiningChannel} {h : Handled api}
    (hh : s.handleOpenExtendedMiningChannel m = .ok h) : Quiet s h := by
  unfold handleOpenExtendedMiningChannel at hh
  dsimp only at hh
  split at hh
  · obtain rfl := Except.ok.inj hh
    exact quiet_of_map rfl rfl
  · rename_i hmode
    split at hh
    · exact (quiet_join hapi hmode hh).1
    · obtain rfl := Except.ok.inj hh
      exact quiet_of_map rfl rfl
    · split at hh
      · obtain rfl := Except.ok.inj hh
        exact quiet_of_map rfl rfl
      · cases hh

/-- Every message of the `Sv1Server`. -/
theorem announces_downstreamMessage {m : ClientMessage} {h : Handled api}
    (hh : s.handleDownstreamMessage m = .ok h) : Announces s h := by
  refine Quiet.announces ?_
  cases m with
  | openExtendedMiningChannel m => exact quiet_openExtendedMiningChannel hapi hh
  | submitSharesExtended m tlv => exact quiet_submitShares hapi hh
  | updateChannel m =>
      obtain rfl := Except.ok.inj hh
      exact quiet_updateChannel s m
  | closeChannel c =>
      obtain rfl := Except.ok.inj hh
      exact quiet_downstreamCloseChannel s c

end Client

/-! ### The frames of the upstream -/

section Upstream

/-- The sentinel has no active job. -/
def Idle (s : ChannelManager api) : Prop :=
  (s.snapshot aggregatedChannelId).activeJob = none

theorem idle_of_snapshot (h : s.snapshot aggregatedChannelId = {}) : s.Idle := by
  rw [Idle, h]

/-- While the sentinel is idle, no job is queued. -/
theorem Current.of_idle {m : Sv1Message} (hmode : s.mode = .aggregated) (hidle : s.Idle)
    (hm : s.Current m) (s' : ChannelManager api) : s'.Current m := by
  cases m with
  | newExtendedMiningJob job =>
      obtain ⟨hruns, hc⟩ := hm
      rw [hc hmode, Snapshot.Runs, hidle] at hruns
      cases hruns
  | setNewPrevHash p => exact hm
  | _ => trivial

variable (hapi : api.Lawful)

include hapi

/-- The buffered requests are served from an idle sentinel. -/
theorem quiet_servePending {xs : List (Sigma fun _ : RequestId => PendingChannel)} {h : Handled api}
    (hmode : s.mode = .aggregated) (hidle : s.Idle) (hh : s.servePending xs = .ok h) :
    Quiet s h ∧ h.manager.Idle := by
  induction xs generalizing s h with
  | nil =>
      obtain rfl := Except.ok.inj hh
      exact ⟨(Keeps.refl s).quiet, hidle⟩
  | cons x xs ih =>
      rw [servePending] at hh
      cases hjoin : s.handleDownstreamChannelRequestInAggregatedMode x.1
          x.2.downstreamExtranonceLen with
      | error e => simp [hjoin] at hh
      | ok h₁ =>
          cases hrest : h₁.manager.servePending xs with
          | error e => simp [hjoin, hrest] at hh
          | ok h₂ =>
              simp only [hjoin, hrest, Except.ok.injEq] at hh
              obtain rfl := hh
              obtain ⟨hq₁, hsentinel⟩ := quiet_join hapi hmode hjoin
              have hidle₁ : h₁.manager.Idle := by
                rcases hsentinel with heq | heq
                · rwa [Idle, heq]
                · exact idle_of_snapshot heq
              have hmode₁ := hq₁.keeps.mode.trans hmode
              obtain ⟨hq₂, hidle₂⟩ := ih hmode₁ hidle₁ hrest
              refine ⟨⟨hq₁.keeps.trans hq₂.keeps, fun m hm => ?_⟩, hidle₂⟩
              rcases List.mem_append.mp hm with hm | hm
              · exact (hq₁.current m hm).of_idle hmode₁ hidle₁ _
              · exact hq₂.current m hm

/-- The upstream channel is opened, and the first channel of a miner beside it. -/
theorem keeps_openAggregated {m : UpstreamOpenSuccess} {pending : PendingChannel}
    {s' : ChannelManager api} {success : OpenExtendedMiningChannelSuccess}
    (h : s.openAggregated m pending = .ok (s', success)) : Keeps s s' ∧ s'.Idle := by
  unfold openAggregated at h
  split at h
  · cases h
  · split at h
    · cases h
    · dsimp only at h
      split at h
      · cases h
      · obtain ⟨rfl, -⟩ := Prod.mk.inj (Except.ok.inj h)
        refine ⟨?_, ?_⟩
        · exact ((keeps_insertNew hapi s _ _ _ _ _).trans
            (keeps_insertNew hapi _ _ _ _ _ _)).trans (.of_map rfl rfl)
        · have hne : aggregatedChannelId ≠ 1 := by decide
          refine idle_of_snapshot ?_
          apply snapshot_new hapi
          exact (lookup_insertChannel_ne _ _ hne).trans (lookup_insertChannel s _ _)

theorem keeps_openNonAggregated {m : UpstreamOpenSuccess} {pending : PendingChannel}
    {s' : ChannelManager api} {success : OpenExtendedMiningChannelSuccess}
    (h : s.openNonAggregated m pending = .ok (s', success)) : Keeps s s' := by
  unfold openNonAggregated at h
  split at h
  · cases h
  · split at h
    · cases h
    · obtain ⟨rfl, -⟩ := Prod.mk.inj (Except.ok.inj h)
      exact keeps_insertNew hapi s _ _ _ _ _

theorem quiet_openSuccess {hash : UInt32 → Nat} {m : UpstreamOpenSuccess} {h : Handled api}
    (hh : s.handleOpenExtendedMiningChannelSuccess hash m = .ok h) : Quiet s h := by
  unfold handleOpenExtendedMiningChannelSuccess at hh
  split at hh
  · obtain rfl := Except.ok.inj hh
    exact (Keeps.refl s).quiet
  · dsimp only at hh
    split at hh
    · cases hh
    · split at hh
      · split at hh
        · cases hh
        · rename_i s' success hopen
          obtain rfl := Except.ok.inj hh
          refine ⟨(keeps_openNonAggregated hapi hopen).of_eq rfl rfl, ?_⟩
          intro x hx
          obtain rfl := List.mem_singleton.mp hx
          trivial
      · rename_i hmode
        split at hh
        · cases hh
        · rename_i s' success hopen
          split at hh
          · cases hh
          · rename_i h' hserve
            obtain rfl := Except.ok.inj hh
            obtain ⟨hkeeps, hidle⟩ := keeps_openAggregated hapi hopen
            have hmode' : s'.mode = .aggregated := hkeeps.mode.trans hmode
            obtain ⟨hq, -⟩ := quiet_servePending hapi
              (s := { s' with pendingDownstreamChannels := ∅ }) hmode' hidle hserve
            refine ⟨?_, fun x hx => ?_⟩
            · have hopened : Keeps s s' := hkeeps.of_eq rfl rfl
              exact hopened.trans (hq.keeps.of_eq rfl rfl)
            · rcases List.mem_cons.mp hx with rfl | hx
              · trivial
              · exact hq.current x hx

omit hapi in
theorem keeps_foldl_removeChannel (cs : List ChannelId) (s : ChannelManager api) :
    Keeps s (cs.foldl removeChannel s) := by
  induction cs generalizing s with
  | nil => exact .refl s
  | cons c cs ih => exact (keeps_removeChannel s c).trans (ih _)

omit hapi in
theorem quiet_closeChannel {c : ChannelId} {h : Handled api}
    (hh : s.handleCloseChannel c = .ok h) : Quiet s h := by
  unfold handleCloseChannel at hh
  split at hh
  · cases hh
  · split at hh
    · rename_i group _
      obtain rfl := Except.ok.inj hh
      have hkeeps := keeps_foldl_removeChannel (api.members group)
        { s with groupChannels := s.groupChannels.erase c }
      exact Keeps.quiet (hkeeps.of_eq rfl rfl)
    · split at hh
      · obtain rfl := Except.ok.inj hh
        exact (Keeps.refl s).quiet
      · obtain rfl := Except.ok.inj hh
        exact (keeps_close s c).quiet

omit hapi in
theorem quiet_setGroupChannel {m : SetGroupChannel} {h : Handled api}
    (hh : s.handleSetGroupChannel m = .ok h) : Quiet s h := by
  unfold handleSetGroupChannel at hh
  dsimp only at hh
  split at hh
  · cases hh
  · obtain rfl := Except.ok.inj hh
    exact quiet_of_map rfl rfl

/-- A channel keeps its chain tip, and its future jobs stay under its id. -/
structure KeepsTip (mode : TproxyMode) (c : ChannelId) (ch ch' : api.Channel) : Prop where
  chainTip : api.chainTip ch' = api.chainTip ch
  futureJobs : ∀ j ∈ api.futureJobs ch',
    j ∈ api.futureJobs ch ∨ (mode = .nonAggregated → j.channelId = c)

omit hapi in
theorem keepsTip_refl (mode : TproxyMode) (c : ChannelId) (ch : api.Channel) :
    KeepsTip mode c ch ch :=
  ⟨rfl, fun _ hj => .inl hj⟩

omit hapi in
theorem keepsTip_trans (mode : TproxyMode) (c : ChannelId) (ch ch' ch'' : api.Channel)
    (h : KeepsTip mode c ch ch') (h' : KeepsTip mode c ch' ch'') : KeepsTip mode c ch ch'' where
  chainTip := h'.chainTip.trans h.chainTip
  futureJobs := by
    intro j hj
    rcases h'.futureJobs j hj with hold | hnew
    · exact h.futureJobs j hold
    · exact .inr hnew

omit hapi in
theorem Keeps.of_entries {s' : ChannelManager api} (hmode : s'.mode = s.mode)
    (h : ∀ c ch', s'.extendedChannels.lookup c = some ch' →
      ∃ ch, s.extendedChannels.lookup c = some ch ∧ KeepsTip s.mode c ch ch') : Keeps s s' where
  mode := hmode
  tips := by
    intro c tip _ htip
    cases hc : s'.extendedChannels.lookup c with
    | none =>
        rw [snapshot_of_none hc] at htip
        cases htip
    | some ch' =>
        obtain ⟨ch, hch, hkeeps⟩ := h c ch' hc
        rw [snapshot_of_some hc] at htip
        rw [snapshot_of_some hch, ← htip]
        exact hkeeps.chainTip.symm
  named := by
    intro hnon c j hj
    cases hc : s'.extendedChannels.lookup c with
    | none =>
        rw [snapshot_of_none hc] at hj
        cases hj
    | some ch' =>
        obtain ⟨ch, hch, hkeeps⟩ := h c ch' hc
        rw [snapshot_of_some hc] at hj
        rw [snapshot_of_some hch]
        rcases hkeeps.futureJobs j hj with hold | hnew
        · exact .inr hold
        · exact .inl (hnew hnon)

/-- A new target changes nothing else. -/
theorem keepsTip_setTarget (mode : TproxyMode) (c : ChannelId) (ch : api.Channel) (t : Nat) :
    KeepsTip mode c ch (api.setTarget ch t) := by
  have hsame : api.SameJobs ch (api.setTarget ch t) := hapi.setTarget
  exact ⟨hsame.chainTip, fun j hj => .inl (hsame.futureJobs ▸ hj)⟩

theorem keeps_visitTarget {m : SetTarget} {cs : List ChannelId} {s' : ChannelManager api}
    {xs : List SetTarget} (h : visitMembers (takeTarget m) s cs = .ok (s', xs)) : Keeps s s' := by
  refine .of_entries (visitMembers_map h).1 fun c ch' hch' => ?_
  refine visitMembers_entry h (keepsTip_refl s.mode) (keepsTip_trans s.mode) ?_ hch'
  intro c ch ch' x hx
  obtain ⟨rfl, -⟩ := Prod.mk.inj (Except.ok.inj hx)
  exact keepsTip_setTarget hapi s.mode c ch m.maximumTarget

theorem quiet_setTarget {hash : UInt32 → Nat} {m : SetTarget} {h : Handled api}
    (hh : s.handleSetTarget hash m = .ok h) : Quiet s h := by
  have htargets : ∀ {s' : ChannelManager api} (xs : List SetTarget), Keeps s s' →
      Quiet s { manager := s', toSv1Server := xs.map .setTarget } := by
    intro s' xs hkeeps
    refine ⟨hkeeps, fun x hx => ?_⟩
    obtain ⟨t, -, rfl⟩ := List.mem_map.mp hx
    trivial
  unfold handleSetTarget at hh
  split at hh
  · split at hh
    · cases hh
    · obtain rfl := Except.ok.inj hh
      exact (Keeps.refl s).quiet
    · split at hh
      · cases hh
      · rename_i hall
        obtain rfl := Except.ok.inj hh
        obtain ⟨hmode, hentries⟩ := updateAll_lookup hall
        refine htargets [_] (.of_entries hmode fun c ch' hch' => ?_)
        obtain ⟨ch, hch, heq⟩ := hentries c ch' hch'
        obtain rfl := Option.some.inj heq
        exact ⟨ch, hch, keepsTip_setTarget hapi s.mode c ch m.maximumTarget⟩
  · split at hh
    · split at hh
      · cases hh
      · rename_i hvisit
        obtain rfl := Except.ok.inj hh
        exact htargets _ (keeps_visitTarget hapi hvisit)
    · split at hh
      · obtain rfl := Except.ok.inj hh
        exact (Keeps.refl s).quiet
      · split at hh
        · cases hh
        · rename_i hvisit
          obtain rfl := Except.ok.inj hh
          exact htargets _ (keeps_visitTarget hapi hvisit)

omit hapi in
theorem aggregatedAddressed_some {hash : UInt32 → Nat} {c : ChannelId} {a : api.Channel}
    (h : s.aggregatedAddressed hash c = .ok (some a)) :
    aggregatedChannelId ∈ s.extendedChannels := by
  unfold aggregatedAddressed at h
  split at h
  · cases h
  · rename_i ch hch
    exact AList.lookup_isSome.mp (by rw [hch]; rfl)

omit hapi in
/-- After an update of all channels the sentinel is one that was updated. -/
theorem sentinel_updateAll {f : api.Channel → Option api.Channel} {hash : UInt32 → Nat}
    {c : ChannelId} {a : api.Channel} {s' : ChannelManager api}
    (ha : s.aggregatedAddressed hash c = .ok (some a)) (h : s.updateAll f = .ok s') :
    ∃ ch ch', f ch = some ch' ∧ s'.extendedChannels.lookup aggregatedChannelId = some ch' := by
  have hmem := ((updateAll_map h).2 aggregatedChannelId).mpr (aggregatedAddressed_some ha)
  obtain ⟨ch', hch'⟩ := Option.isSome_iff_exists.mp (AList.lookup_isSome.mpr hmem)
  obtain ⟨ch, -, hf⟩ := (updateAll_lookup h).2 _ ch' hch'
  exact ⟨ch, ch', hf, hch'⟩

/-- A channel that takes a job keeps its chain tip. -/
theorem keepsTip_job {mode : TproxyMode} {c : ChannelId} {ch ch' : api.Channel}
    {m : NewExtendedMiningJob} (h : api.onNewExtendedMiningJob ch m = some ch')
    (hc : mode = .nonAggregated → m.channelId = c) : KeepsTip mode c ch ch' := by
  obtain ⟨-, htip, -, hfuture⟩ := hapi.onNewExtendedMiningJob h
  refine ⟨htip, fun j hj => ?_⟩
  rcases hfuture j hj with rfl | hold
  · exact .inr hc
  · exact .inl hold

omit hapi in
theorem exists_of_mem_jobMessages {jobs : List NewExtendedMiningJob} {x : Sv1Message}
    (hx : x ∈ jobMessages jobs) :
    ∃ job ∈ jobs, job.isFuture = false ∧ x = .newExtendedMiningJob job := by
  obtain ⟨job, hjob, rfl⟩ := List.mem_map.mp hx
  obtain ⟨hjob, hnow⟩ := List.mem_filter.mp hjob
  exact ⟨job, hjob, by simpa using hnow, rfl⟩

/-- A walk over the channels that take a job. -/
theorem quiet_visitJob {m : NewExtendedMiningJob} {cs : List ChannelId} {s' : ChannelManager api}
    {jobs : List NewExtendedMiningJob} (hmode : s.mode = .nonAggregated)
    (h : visitMembers (takeJob m) s cs = .ok (s', jobs)) :
    Quiet s { manager := s', toSv1Server := jobMessages jobs } := by
  have htakes : ∀ c ch ch' x, takeJob m c ch = .ok (ch', x) →
      api.onNewExtendedMiningJob ch x = some ch' ∧ x = { m with channelId := c } := by
    intro c ch ch' x hx
    unfold takeJob at hx
    dsimp only at hx
    split at hx
    · cases hx
    · rename_i heq
      obtain ⟨rfl, rfl⟩ := Prod.mk.inj (Except.ok.inj hx)
      exact ⟨heq, rfl⟩
  have hactive : ∀ c ch ch' x, takeJob m c ch = .ok (ch', x) →
      x = { m with channelId := c } ∧ (m.isFuture = false → api.activeJob ch' = some x) := by
    intro c ch ch' x hx
    obtain ⟨heq, rfl⟩ := htakes c ch ch' x hx
    refine ⟨rfl, fun hnow => ?_⟩
    obtain ⟨-, -, hjob, -⟩ := hapi.onNewExtendedMiningJob heq
    rw [hjob]
    exact if_neg (Bool.eq_false_iff.mp hnow)
  refine ⟨.of_entries (visitMembers_map h).1 fun c ch' hch' => ?_, fun x hx => ?_⟩
  · refine visitMembers_entry h (keepsTip_refl s.mode) (keepsTip_trans s.mode) ?_ hch'
    intro c ch ch' x hx
    obtain ⟨heq, rfl⟩ := htakes c ch ch' x hx
    exact keepsTip_job hapi heq fun _ => rfl
  · obtain ⟨job, hjob, hnow, rfl⟩ := exists_of_mem_jobMessages hx
    obtain ⟨hleft, -, -⟩ := visitMembers_left
      (P := fun c ch x => x = { m with channelId := c } ∧
        (m.isFuture = false → api.activeJob ch = some x)) h
      (I := fun _ _ => True) (fun c ch ch' x _ hx => ⟨trivial, hactive c ch ch' x hx⟩)
      (fun c ch ch' x y hP hy => by
        obtain ⟨rfl, hy⟩ := hactive c ch ch' y hy
        exact ⟨hP.1, hP.1 ▸ hy⟩)
      (fun _ _ _ => trivial)
    obtain ⟨c, -, ch, hch, rfl, hrun⟩ := hleft job hjob
    refine ⟨?_, fun ha => ?_⟩
    · rw [Snapshot.Runs, snapshot_of_some hch, hrun hnow]
      rfl
    · rw [show s'.mode = s.mode from (visitMembers_map h).1, hmode] at ha
      cases ha

/-- `handle_new_extended_mining_job`: the job that is passed on is the active one. -/
theorem quiet_newExtendedMiningJob {hash : UInt32 → Nat} {m : NewExtendedMiningJob}
    {h : Handled api} (hh : s.handleNewExtendedMiningJob hash m = .ok h) : Quiet s h := by
  unfold handleNewExtendedMiningJob at hh
  split at hh
  · cases hh
  · split at hh
    · rename_i hmode
      split at hh
      · cases hh
      · obtain rfl := Except.ok.inj hh
        exact (Keeps.refl s).quiet
      · rename_i a haddressed
        split at hh
        · cases hh
        · rename_i s' hall
          obtain rfl := Except.ok.inj hh
          obtain ⟨hmode', hentries⟩ := updateAll_lookup hall
          refine ⟨.of_entries hmode' fun c ch' hch' => ?_, fun x hx => ?_⟩
          · obtain ⟨ch, hch, heq⟩ := hentries c ch' hch'
            refine ⟨ch, hch, keepsTip_job hapi heq fun hnon => ?_⟩
            rw [hmode] at hnon
            cases hnon
          · obtain ⟨job, hjob, hnow, rfl⟩ := exists_of_mem_jobMessages hx
            obtain rfl := List.mem_singleton.mp hjob
            obtain ⟨ch, ch', heq, hch'⟩ := sentinel_updateAll haddressed hall
            obtain ⟨-, -, hactive, -⟩ := hapi.onNewExtendedMiningJob heq
            rw [if_neg (Bool.eq_false_iff.mp (show m.isFuture = false from hnow))] at hactive
            refine ⟨?_, fun _ => rfl⟩
            rw [Snapshot.Runs, snapshot_of_some hch', hactive]
            rfl
    · rename_i hmode
      split at hh
      · dsimp only at hh
        split at hh
        · cases hh
        · rename_i hvisit
          obtain rfl := Except.ok.inj hh
          obtain ⟨hkeeps, hcurrent⟩ := quiet_visitJob hapi (by exact hmode) hvisit
          exact ⟨hkeeps.of_eq rfl rfl, hcurrent⟩
      · split at hh
        · obtain rfl := Except.ok.inj hh
          exact (Keeps.refl s).quiet
        · split at hh
          · cases hh
          · rename_i hvisit
            obtain rfl := Except.ok.inj hh
            exact quiet_visitJob hapi hmode hvisit

omit hapi in
theorem Announces.of_eq {s₁ : ChannelManager api} {h : Handled api} (ha : Announces s₁ h)
    (hmode : s₁.mode = s.mode) (hmap : s₁.extendedChannels = s.extendedChannels) :
    Announces s h where
  mode := ha.mode.trans hmode
  told := fun ph ht => ha.told ph ((Keeps.of_map hmode hmap).told ht)
  paired := fun ph ht => ha.paired ph ((Keeps.of_map hmode hmap).told ht)

/-- What the visit of a channel by a `SetNewPrevHash` leaves. -/
structure MovedTo (m : SetNewPrevHash) (c : ChannelId) (ch : api.Channel)
    (x : SetNewPrevHash × NewExtendedMiningJob) : Prop where
  prevHash : x.1 = { m with channelId := c }
  job : x.2.channelId = c
  activeJob : api.activeJob ch = some x.2
  chainTip : api.chainTip ch = some m.chainTip
  futureJobs : api.futureJobs ch = []

theorem movedTo_takePrevHash (hclears : api.ClearsFutureJobs) {m : SetNewPrevHash} {c : ChannelId}
    {ch ch' : api.Channel} {x : SetNewPrevHash × NewExtendedMiningJob}
    (hnamed : ∀ j ∈ api.futureJobs ch, j.channelId = c) (h : takePrevHash m c ch = .ok (ch', x)) :
    MovedTo m c ch' x := by
  unfold takePrevHash at h
  split at h
  · cases h
  · rename_i ch₁ hset
    split at h
    · cases h
    · rename_i job hjob
      obtain ⟨rfl, rfl⟩ := Prod.mk.inj (Except.ok.inj h)
      obtain ⟨-, htip, ⟨j, hj, -, hactive⟩, -⟩ := hapi.onSetNewPrevHash hset
      rw [hjob] at hactive
      obtain rfl := Option.some.inj hactive
      exact ⟨rfl, hnamed j hj, hjob, htip, hclears hset⟩

omit hapi in
/-- The prev-hash of a channel that one of these messages is about. -/
theorem knows_prevHashes {ph : PrevHashes} {ps : List SetNewPrevHash} {c : ChannelId}
    {tip : ChainTip} (htip : ∀ p ∈ ps, p.chainTip = tip)
    (hc : Knows ph c tip ∨ ∃ p ∈ ps, p.channelId = c) :
    Knows (afterMessages ph (ps.map .setNewPrevHash)) c tip := by
  induction ps generalizing ph with
  | nil =>
      rcases hc with hknows | ⟨p, hp, -⟩
      · exact hknows
      · cases hp
  | cons p ps ih =>
      refine @ih (update ph p.channelId (some p))
        (fun q hq => htip q (List.mem_cons_of_mem _ hq)) ?_
      by_cases heq : c = p.channelId
      · left
        rw [Knows, heq, Function.update_self]
        exact congrArg some (htip p List.mem_cons_self)
      · rcases hc with hknows | ⟨q, hq, hqc⟩
        · left
          rwa [Knows, Function.update_of_ne heq]
        · right
          rcases List.mem_cons.mp hq with rfl | hq
          · exact absurd hqc.symm heq
          · exact ⟨q, hq, hqc⟩

omit hapi in
theorem prevHashes_of_ne {ph : PrevHashes} {ps : List SetNewPrevHash} {c : ChannelId}
    (hc : ∀ p ∈ ps, p.channelId ≠ c) : afterMessages ph (ps.map .setNewPrevHash) c = ph c := by
  induction ps generalizing ph with
  | nil => rfl
  | cons p ps ih =>
      refine (@ih (update ph p.channelId (some p))
        fun q hq => hc q (List.mem_cons_of_mem _ hq)).trans ?_
      exact Function.update_of_ne (hc p List.mem_cons_self).symm _ _

omit hapi in
/-- The prev-hashes after the messages of a walk; the jobs do not matter. -/
theorem afterMessages_prevHashMessages (ph : PrevHashes)
    (xs : List (SetNewPrevHash × NewExtendedMiningJob)) :
    afterMessages ph (prevHashMessages xs) =
      afterMessages ph ((xs.map (·.1)).map .setNewPrevHash) := by
  rw [prevHashMessages, afterMessages_append, List.map_map]
  refine afterMessages_of_noPrevHash fun x hx p => ?_
  obtain ⟨y, -, rfl⟩ := List.mem_map.mp hx
  exact Sv1Message.noConfusion

omit hapi in
theorem paired_prevHashes (s : ChannelManager api) (ph : PrevHashes) (ps : List SetNewPrevHash) :
    Paired ph (s.queuedBy (ps.map .setNewPrevHash)) := by
  induction ps generalizing ph with
  | nil => trivial
  | cons p ps ih => exact ⟨trivial, ih _⟩

omit hapi in
/-- A walk over `cs` that moves the channels to a chain tip. -/
structure Walked (m : SetNewPrevHash) (s s' : ChannelManager api) (cs : List ChannelId)
    (xs : List (SetNewPrevHash × NewExtendedMiningJob)) : Prop where
  moved : ∀ x ∈ xs, ∃ c ∈ cs, ∃ ch, s'.extendedChannels.lookup c = some ch ∧ MovedTo m c ch x
  visited : ∀ c ∈ cs, ∃ x ∈ xs, ∃ ch, s'.extendedChannels.lookup c = some ch ∧ MovedTo m c ch x
  stayed : ∀ c ∉ cs, s'.extendedChannels.lookup c = s.extendedChannels.lookup c

variable {m : SetNewPrevHash} {cs : List ChannelId} {s' : ChannelManager api}
  {xs : List (SetNewPrevHash × NewExtendedMiningJob)}

theorem walked_takePrevHash (hclears : api.ClearsFutureJobs)
    (hnamed : ∀ c, ∀ j ∈ (s.snapshot c).futureJobs, j.channelId = c)
    (h : visitMembers (takePrevHash m) s cs = .ok (s', xs)) : Walked m s s' cs xs := by
  obtain ⟨hmoved, hvisited, hstayed⟩ := visitMembers_left (P := MovedTo m)
    (I := fun c ch => ∀ j ∈ api.futureJobs ch, j.channelId = c) h
    (by
      intro c ch ch' x hnamed hx
      have hmoved := movedTo_takePrevHash hapi hclears hnamed hx
      refine ⟨fun j hj => ?_, hmoved⟩
      rw [hmoved.futureJobs] at hj
      cases hj)
    (by
      -- a channel without a future job cannot be visited again
      intro c ch ch' x y hmoved hy
      unfold takePrevHash at hy
      split at hy
      · cases hy
      · rename_i hset
        obtain ⟨-, -, ⟨j, hj, -⟩, -⟩ := hapi.onSetNewPrevHash hset
        rw [hmoved.futureJobs] at hj
        cases hj)
    (by
      intro c ch hch j hj
      refine hnamed c j ?_
      rwa [snapshot_of_some hch])
  exact ⟨hmoved, hvisited, hstayed⟩

omit hapi

theorem Walked.knows (hw : Walked m s s' cs xs) (ph : PrevHashes) {c : ChannelId} (hc : c ∈ cs) :
    Knows (afterMessages ph (prevHashMessages xs)) c m.chainTip := by
  rw [afterMessages_prevHashMessages]
  refine knows_prevHashes (fun p hp => ?_) (.inr ?_)
  · obtain ⟨x, hx, rfl⟩ := List.mem_map.mp hp
    obtain ⟨c', -, ch, -, hmoved⟩ := hw.moved x hx
    rw [hmoved.prevHash]
    rfl
  · obtain ⟨x, hx, ch, -, hmoved⟩ := hw.visited c hc
    exact ⟨x.1, List.mem_map_of_mem hx, by rw [hmoved.prevHash]⟩

/-- The prev-hash of a channel the walk does not visit. -/
theorem Walked.unchanged (hw : Walked m s s' cs xs) (ph : PrevHashes) {c : ChannelId}
    (hc : c ∉ cs) : afterMessages ph (prevHashMessages xs) c = ph c := by
  rw [afterMessages_prevHashMessages]
  refine prevHashes_of_ne fun p hp heq => ?_
  obtain ⟨x, hx, rfl⟩ := List.mem_map.mp hp
  obtain ⟨c', hc', ch, -, hmoved⟩ := hw.moved x hx
  rw [hmoved.prevHash] at heq
  exact hc (heq ▸ hc')

theorem Walked.told (hw : Walked m s s' cs xs) (hmode : s.mode = .nonAggregated) {ph : PrevHashes}
    (ht : Told s ph) : Told s' (afterMessages ph (prevHashMessages xs)) where
  tips := by
    intro c tip _ htip
    by_cases hc : c ∈ cs
    · obtain ⟨x, -, ch, hch, hmoved⟩ := hw.visited c hc
      rw [snapshot_of_some hch, hmoved.chainTip] at htip
      obtain rfl := Option.some.inj htip
      exact hw.knows ph hc
    · rw [snapshot_congr (hw.stayed c hc)] at htip
      rw [Knows, hw.unchanged ph hc]
      exact ht.tips c tip (fun ha => by rw [ha] at hmode; cases hmode) htip
  named := by
    intro _ c j hj
    by_cases hc : c ∈ cs
    · obtain ⟨x, -, ch, hch, hmoved⟩ := hw.visited c hc
      rw [snapshot_of_some hch, hmoved.futureJobs] at hj
      cases hj
    · rw [snapshot_congr (hw.stayed c hc)] at hj
      exact ht.named hmode c j hj

theorem Walked.paired (hw : Walked m s s' cs xs) (ph : PrevHashes) :
    Paired ph (s'.queuedBy (prevHashMessages xs)) := by
  have hknows : ∀ c ∈ cs, Knows (afterMessages ph (xs.map fun x => .setNewPrevHash x.1)) c
      m.chainTip := by
    intro c hc
    have hthere := hw.knows ph hc
    rw [afterMessages_prevHashMessages, List.map_map] at hthere
    exact hthere
  rw [prevHashMessages, queuedBy_append, paired_append, map_queuedBy]
  refine ⟨?_, paired_of_noPrevHash (fun y hy p => ?_) fun y hy => ?_⟩
  · have hprevs := paired_prevHashes s' ph (xs.map (·.1))
    rwa [List.map_map] at hprevs
  · rw [map_queuedBy] at hy
    obtain ⟨x, -, rfl⟩ := List.mem_map.mp hy
    exact Sv1Message.noConfusion
  · obtain ⟨z, hz, rfl⟩ := List.mem_map.mp hy
    obtain ⟨x, hx, rfl⟩ := List.mem_map.mp hz
    obtain ⟨c, hc, ch, hch, hmoved⟩ := hw.moved x hx
    have hsnap : s'.snapshot x.2.channelId = ⟨some x.2, api.futureJobs ch, some m.chainTip⟩ := by
      rw [hmoved.job, snapshot_of_some hch, hmoved.activeJob, hmoved.chainTip]
    refine ⟨?_, fun tip htip => ?_⟩
    · change Snapshot.Runs (s'.snapshot x.2.channelId) x.2
      rw [hsnap]
      rfl
    · change (s'.snapshot x.2.channelId).chainTip = some tip at htip
      rw [hsnap] at htip
      obtain rfl := Option.some.inj htip
      rw [hmoved.job]
      exact hknows c hc

include hapi

theorem announces_visitPrevHash (hclears : api.ClearsFutureJobs) (hmode : s.mode = .nonAggregated)
    (h : visitMembers (takePrevHash m) s cs = .ok (s', xs)) :
    Announces s { manager := s', toSv1Server := prevHashMessages xs } where
  mode := (visitMembers_map h).1
  told := fun _ ht => (walked_takePrevHash hapi hclears (ht.named hmode) h).told hmode ht
  paired := fun ph ht => (walked_takePrevHash hapi hclears (ht.named hmode) h).paired ph

/-- `handle_set_new_prev_hash`: the prev-hashes come before the jobs they activate. -/
theorem announces_setNewPrevHash (hclears : api.ClearsFutureJobs) {hash : UInt32 → Nat}
    {m : SetNewPrevHash} {h : Handled api} (hh : s.handleSetNewPrevHash hash m = .ok h) :
    Announces s h := by
  unfold handleSetNewPrevHash at hh
  split at hh
  · rename_i hmode
    split at hh
    · cases hh
    · obtain rfl := Except.ok.inj hh
      exact (Keeps.refl s).quiet.announces
    · rename_i a haddressed
      split at hh
      · cases hh
      · rename_i s' hall
        split at hh
        · cases hh
        · rename_i job hjob
          obtain rfl := Except.ok.inj hh
          obtain ⟨hmode', -⟩ := updateAll_lookup hall
          obtain ⟨ch, ch', heq, hch'⟩ := sentinel_updateAll haddressed hall
          obtain ⟨-, htip, -, -⟩ := hapi.onSetNewPrevHash heq
          have hsnap : (s'.snapshot aggregatedChannelId).chainTip = some m.chainTip := by
            rw [snapshot_of_some hch', htip]
          have hactive : (s'.snapshot aggregatedChannelId).activeJob = some job := by
            rw [hch'] at hjob
            rw [snapshot_of_some hch']
            exact hjob
          have hknows : ∀ ph : PrevHashes, Knows (afterMessage ph
              (.setNewPrevHash { m with channelId := aggregatedChannelId }))
              aggregatedChannelId m.chainTip := by
            intro ph
            simp only [Knows, afterMessage, Function.update_self]
            rfl
          refine ⟨hmode', fun ph ht => ⟨?_, ?_⟩, fun ph ht => ⟨trivial, ⟨?_, ?_⟩, trivial⟩⟩
          · intro c tip hc htip'
            rw [hc (hmode'.trans hmode), hsnap] at htip'
            obtain rfl := Option.some.inj htip'
            rw [hc (hmode'.trans hmode)]
            exact hknows ph
          · intro hnon
            rw [hmode'.trans hmode] at hnon
            cases hnon
          · change Snapshot.Runs (s'.snapshot aggregatedChannelId) _
            rw [Snapshot.Runs, hactive]
            rfl
          · intro tip htip'
            change (s'.snapshot aggregatedChannelId).chainTip = some tip at htip'
            rw [hsnap] at htip'
            obtain rfl := Option.some.inj htip'
            exact hknows ph
  · rename_i hmode
    split at hh
    · split at hh
      · cases hh
      · dsimp only at hh
        split at hh
        · cases hh
        · rename_i hvisit
          obtain rfl := Except.ok.inj hh
          have hannounces := announces_visitPrevHash hapi hclears (by exact hmode) hvisit
          exact hannounces.of_eq rfl rfl
    · split at hh
      · obtain rfl := Except.ok.inj hh
        exact (Keeps.refl s).quiet.announces
      · split at hh
        · cases hh
        · rename_i hvisit
          obtain rfl := Except.ok.inj hh
          exact announces_visitPrevHash hapi hclears hmode hvisit

/-- Every frame of the upstream. -/
theorem announces_upstreamFrame (hclears : api.ClearsFutureJobs) {hash : UInt32 → Nat}
    {m : UpstreamMessage} {h : Handled api} (hh : s.handleUpstreamFrame hash m = .ok h) :
    Announces s h := by
  cases m with
  | openExtendedMiningChannelSuccess m => exact (quiet_openSuccess hapi hh).announces
  | openMiningChannelError => cases hh
  | closeChannel c => exact (quiet_closeChannel hh).announces
  | newExtendedMiningJob m => exact (quiet_newExtendedMiningJob hapi hh).announces
  | setNewPrevHash m => exact announces_setNewPrevHash hapi hclears hh
  | setTarget m => exact (quiet_setTarget hapi hh).announces
  | setGroupChannel m => exact (quiet_setGroupChannel hh).announces

end Upstream

end ChannelManager

end GridPoolSv2.Translator
