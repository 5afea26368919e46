import GridPoolSv2.JobDeclaratorClient.ExtranonceAgreement
import GridPoolSv2.JobDeclaratorClient.PendingOpens

/-!
# JobDeclaratorClient.ExtranonceSize: how long an extranonce is

The pool grants a prefix and a number of bytes behind it, and the two lengths together are the
full extranonce size. The client keeps it in two places: in the upstream channel, as the two
lengths, and in the extranonce allocator, as their sum. The sum is a `u16` of two lengths,
and the allocator gets its low byte.

* `Sizes` are the cells this is about. Most handlers leave them alone (`KeepsSizes`).
* `Roomy` holds in every state the client reaches: no prefix that is allocated is longer than
  the extranonce of the upstream channel, so that `handle_open_extended_mining_channel` can
  subtract its length.
* `Settled` and `Measured` are what a success message of the pool has to lead to: the channel is
  refused, or the allocator has room for exactly what the pool granted.
-/

namespace GridPoolSv2.JobDeclaratorClient

open Consensus (Bytes TxOut)
open Visit Handler Runs

namespace OpenExtendedMiningChannelSuccess

variable (m : OpenExtendedMiningChannelSuccess)

/-- The length of the extranonces of the granted channel. -/
def fullSize : Nat :=
  m.extranoncePrefix.length + m.extranonceSize

/-- `total_len`. -/
def totalLen : UInt16 :=
  UInt16.ofNat m.extranoncePrefix.length + UInt16.ofNat m.extranonceSize

theorem totalLen_toNat : m.totalLen.toNat = m.fullSize % 2 ^ 16 := by
  unfold totalLen fullSize
  rw [UInt16.toNat_add, UInt16.toNat_ofNat', UInt16.toNat_ofNat']
  exact (Nat.add_mod _ _ _).symm

theorem totalLen_toUInt8 : m.totalLen.toUInt8.toNat = m.fullSize % 2 ^ 16 % 2 ^ 8 := by
  rw [UInt16.toNat_toUInt8, totalLen_toNat]

/-- The sum does not overflow and the conversion loses nothing. -/
def Measured : Prop :=
  m.totalLen.toNat = m.fullSize ∧ m.totalLen.toUInt8.toNat = m.totalLen.toNat

/-- The low byte is the size exactly if that fits in a byte. -/
theorem measured_iff : m.Measured ↔ m.fullSize < 2 ^ 8 := by
  unfold Measured
  rw [totalLen_toUInt8, totalLen_toNat]
  omega

end OpenExtendedMiningChannelSuccess

namespace ChannelManager

variable {api : ChannelsSv2} {s : ChannelManager api}

/-- The extranonce size `handle_open_extended_mining_channel` subtracts from. -/
def fullExtranonceSize (s : ChannelManager api) : Nat :=
  match s.upstreamChannel with
  | some u => api.upstreamFullSize u
  | none => soloFullExtranonceSize

/-- The cells the sizes depend on. -/
structure Sizes where
  coinbaseOutputs : Bytes
  extranonceAllocator : ExtranonceAllocator
  fullExtranonceSize : Nat

def sizes (s : ChannelManager api) : Sizes :=
  ⟨s.coinbaseOutputs, s.extranonceAllocator, s.fullExtranonceSize⟩

/-! ### What leaves the sizes alone

All handlers but the ones of the next section. The rules of `Walk` give most of them at once. -/

/-- The sizes stay as they are. -/
abbrev KeepsSizes (w : Sizes) (o : Handled api) : Prop :=
  Passes (fun s => s.sizes = w) (fun _ => True) o

variable {w : Sizes}

/-- No loop over channels changes the sizes. -/
theorem carries_sizes (w : Sizes) :
    Carries (fun s : ChannelManager api => s.sizes = w) (fun _ _ => True) (fun _ => True)
      (fun _ => True) where
  channel _ _ := trivial
  setChannel h _ := h
  setGroup h := h
  nextChannelId h := h
  mapJob h := h
  mapJobs h := h
  vardiff h := h
  note _ _ := trivial
  error _ _ := trivial

theorem declarationFree_sizes (w : Sizes) :
    DeclarationFree (fun s : ChannelManager api => s.sizes = w) (fun _ => True) where
  of_outputs {s s'} h hbase houtputs := by
    have hallocator : s'.extranonceAllocator = s.extranonceAllocator :=
      congrArg (fun b : ShareBase api => b.base.extranonceAllocator) hbase
    have hupstream : s'.upstreamChannel = s.upstreamChannel :=
      congrArg ShareBase.upstreamChannel hbase
    simp only [← h, sizes, fullExtranonceSize, houtputs, hallocator, hupstream]
  note _ _ _ := trivial

/-- Opening a downstream channel keeps any property that is not about channels. -/
theorem opensChannel_any {P : ChannelManager api → Prop} : OpensChannel P fun _ _ => True where
  standard _ _ _ _ _ _ _ _ _ := trivial
  extended _ _ _ _ _ _ _ _ _ := trivial

/-- A step of the upstream channel that keeps its sizes. -/
theorem sizes_setUpstream {u u' : api.Upstream} (hu : s.upstreamChannel = some u)
    (hsame : api.SameUpstream u u') : sizes { s with upstreamChannel := some u' } = s.sizes := by
  simp only [sizes, fullExtranonceSize, hu, hsame.fullSize]

theorem sizes_applyPrevHash (hlaw : api.Lawful) (m : SetNewPrevHash) :
    (s.applyPrevHash m).sizes = s.sizes := by
  cases hu : s.upstreamChannel with
  | none => simp [applyPrevHash, sizes, fullExtranonceSize, hu]
  | some u =>
      have hsame : api.SameUpstream u (api.onChainTipUpdate u m.chainTip) := hlaw.onChainTipUpdate.1
      simp [applyPrevHash, sizes, fullExtranonceSize, hu, hsame.fullSize]

theorem handleNewTemplate_sizes (hlaw : api.Lawful) (t : NewTemplate) (h : s.sizes = w) :
    KeepsSizes w (s.handleNewTemplate t) := by
  unfold handleNewTemplate
  dsimp only
  split
  · exact .fail h trivial
  · refine Leaves.andThen (.say h fun _ _ => trivial) fun _ h => ?_
    refine Leaves.collect (.forEach (fun d _ s h => ?_) h) fun _ h =>
      (declarationFree_sizes w).allocateTokenIf _ h
    exact (carries_sizes w).newTemplateDownstream hlaw ⟨fun _ _ => trivial, fun _ _ _ _ => trivial⟩
      (fun s h => (declarationFree_sizes w).sendCustomJob (fun _ _ => trivial) h) h

theorem handleSetNewPrevHash_sizes (hlaw : api.Lawful) (m : SetNewPrevHash) (h : s.sizes = w) :
    KeepsSizes w (s.handleSetNewPrevHash m) := by
  unfold handleSetNewPrevHash
  split
  · exact .fail h trivial
  · refine Leaves.andThen (.say ?_ fun _ _ => trivial) fun _ h => ?_
    · exact (sizes_applyPrevHash hlaw m).trans h
    · have hd : DeclarationFree (fun s : ChannelManager api => s.sizes = w) _ :=
        declarationFree_sizes w
      refine Leaves.collect (.andThen (hd.sendCustomJob (fun _ _ => trivial) h) fun _ h =>
        ?_) fun _ h =>
        hd.allocateTokenIf _ h
      exact .forEach (fun d _ s h => (carries_sizes w).prevHashDownstream (fun _ _ => trivial) h) h

theorem relayShare_sizes (hlaw : api.Lawful) (h : s.sizes = w) {k : ChannelKind}
    {m : SetNewPrevHash} {o : Origin} {share : SubmitSharesExtended}
    {solution : api.Upstream → Bytes} {oversized : JDCError} :
    KeepsSizes w (s.relayShare k m o share solution oversized) := by
  unfold relayShare
  split
  · exact .keep h
  · rename_i u hu
    have h' := (sizes_setUpstream hu (hlaw.validateUpstream (u := u) (m := share))).trans h
    dsimp only
    split
    · exact .say h' fun _ _ => trivial
    · split
      · exact .fail h' trivial
      · exact .say h' fun _ _ => trivial
    · split
      · exact .fail h' trivial
      · exact .keep h'

theorem translateShare_sizes (hlaw : api.Lawful) (h : s.sizes = w) {k : ChannelKind}
    {d : DownstreamId} {m : SetNewPrevHash} {ch : api.Channel} {msg : SubmitSharesExtended}
    {res : ShareValidationResult} : KeepsSizes w (s.translateShare k d m ch msg res) := by
  unfold translateShare
  split
  · exact .keep h
  · dsimp only
    split
    · exact .fail h trivial
    · split
      · exact .fail h trivial
      · split
        · exact relayShare_sizes hlaw h
        · split
          · exact .keep h
          · exact .keep h

theorem handleSetCustomMiningJobSuccess_sizes (hlaw : api.Lawful) (h : s.sizes = w)
    {r : RequestId} {j : JobId} : KeepsSizes w (s.handleSetCustomMiningJobSuccess r j) := by
  unfold handleSetCustomMiningJobSuccess
  split
  · exact .fail h trivial
  · dsimp only
    split
    · exact .fail h trivial
    · rename_i u hu
      split
      · exact .fail h trivial
      · rename_i message _
        have h' := (sizes_setUpstream hu
          (hlaw.onSetCustomMiningJobSuccess (u := u) (m := message) (i := j))).trans h
        split
        · exact .fail h' trivial
        · exact .fail h' trivial
        · split
          · refine Leaves.collect (.forEach (fun entry _ s h => ?_) h') fun _ h => .keep h
            exact relayShare_sizes hlaw h
          · exact .keep h'

theorem handleSetCustomMiningJobError_sizes (h : s.sizes = w) {r : RequestId} {code : String} :
    KeepsSizes w (s.handleSetCustomMiningJobError r code) := by
  unfold handleSetCustomMiningJobError
  split
  · split
    · exact .keep h
    · exact .keep h
  · exact .fail h trivial

theorem reassignPrefix_sizes (h : s.sizes = w)
    {slots : DownstreamId → ChannelKind → ChannelId → Nat} {d : DownstreamId} {k : ChannelKind}
    {c : ChannelId} : KeepsSizes w (reassignPrefix slots d k c s) := by
  unfold reassignPrefix
  split
  · exact .keep h
  · dsimp only
    split
    · exact .keep h
    · split
      · exact .keep h
      · exact .say h fun _ _ => trivial

theorem handleDownstreamOpen_sizes (h : s.sizes = w) {r : PendingChannelRequest} {slot : Nat} :
    KeepsSizes w (s.handleDownstreamOpen r slot) := by
  unfold handleDownstreamOpen
  split
  · exact .say h fun _ _ => trivial
  · exact .keep h
  · exact (carries_sizes w).handleOpenMiningChannel opensChannel_any h
  · exact (carries_sizes w).handleOpenMiningChannel opensChannel_any h

theorem submitShares_sizes (hlaw : api.Lawful) (h : s.sizes = w) {k : ChannelKind}
    {d : DownstreamId} {msg : SubmitSharesExtended}
    {validate : api.Channel → api.Channel × Except ShareValidationError ShareValidationResult} :
    KeepsSizes w (s.submitShares k d msg validate) :=
  (carries_sizes w).submitShares (fun _ => trivial) (fun _ _ _ _ _ => trivial)
    (fun h => translateShare_sizes hlaw h) h

/-! ### What changes the sizes

The success message, a new prefix and the token's outputs. `established_sizes` says what the first
of them writes. -/

/-- Between two events: the stored outputs can be read, and no prefix that is allocated is longer
than the full size. -/
structure Roomy (s : ChannelManager api) : Prop where
  outputs : (deserializeOutputs s.coinbaseOutputs).isSome = true
  room : s.extranonceAllocator.totalLen ≤ s.fullExtranonceSize

theorem Roomy.of_sizes (h : Roomy s) {s' : ChannelManager api} (hs : s'.sizes = s.sizes) :
    Roomy s' := by
  obtain ⟨houtputs, hallocator, hfull⟩ := Sizes.mk.inj hs
  exact ⟨houtputs ▸ h.outputs, by rw [hallocator, hfull]; exact h.room⟩

theorem KeepsSizes.roomy {o : Handled api} (hkeeps : KeepsSizes s.sizes o) (h : Roomy s) :
    Roomy o.value :=
  h.of_sizes hkeeps.value

/-- The success handler gets as far as `total_len`. -/
def Measures (m : OpenExtendedMiningChannelSuccess) (s : ChannelManager api) : Prop :=
  localPrefixBytes + s.reservedDownstreamRollableExtranonceSize ≤ m.extranonceSize ∧
    s.pendingDownstreamRequests ≠ []

instance (m : OpenExtendedMiningChannelSuccess) (s : ChannelManager api) :
    Decidable (s.Measures m) :=
  inferInstanceAs (Decidable (_ ∧ _))

theorem upstreamCustomJob_coinbaseOutputs (u : api.Upstream)
    (token : Option AllocateMiningJobTokenSuccess) (outputs : List TxOut) (s : ChannelManager api) :
    (s.upstreamCustomJob u token outputs).1.coinbaseOutputs = s.coinbaseOutputs := by
  unfold upstreamCustomJob
  split <;> rfl

/-- The sizes once the channel is set up. -/
theorem established_sizes (hlaw : api.Lawful) {m : OpenExtendedMiningChannelSuccess}
    {o : Handled api} (h : s.established m = some o) :
    s.Measures m ∧ api.allocatorAccepts m.extranoncePrefix m.totalLen.toUInt8.toNat = true ∧
      o.value.sizes =
        ⟨s.coinbaseOutputs, ⟨m.extranoncePrefix, m.totalLen.toUInt8.toNat⟩, m.fullSize⟩ := by
  unfold established at h
  rw [m.totalLen_toUInt8]
  split at h
  · cases h
  · rename_i outputs hdec
    split at h
    · cases h
    · rename_i hlarge
      split at h
      · cases h
      · rename_i first hfirst
        dsimp only at h
        split at h
        · cases h
        · rename_i allocator hallocator
          obtain ⟨haccepts, rfl⟩ := fromUpstreamPrefix_ok hallocator
          refine ⟨⟨Nat.le_of_not_lt hlarge, fun hnone => by simp [hnone] at hfirst⟩, haccepts, ?_⟩
          obtain rfl := Option.some.inj h
          rw [Outcome.andThen_eq_of_ok (say_error _ _)]
          refine ((declarationFree_sizes _).allocateTokenIf (R := fun _ => True) _ ?_).value
          obtain ⟨-, hfull, -⟩ := upstreamOf_spec hlaw m first.message.nominalHashRate s
          simp only [Handler.say_value, sizes, resizeGroups, fullExtranonceSize,
            upstreamCustomJob_coinbaseOutputs, hfull]
          rfl

/-- A success message for which the channel is not set up. -/
theorem refused_of_not_established {m : OpenExtendedMiningChannelSuccess} (slots : Nat → Nat)
    (h : s.established m = none) (hdec : (deserializeOutputs s.coinbaseOutputs).isSome = true) :
    s.handleOpenExtendedMiningChannelSuccess m slots =
        .fail s (.fallback .extranonceSizeTooSmall) ∨
      s.handleOpenExtendedMiningChannelSuccess m slots = s.giveUpUpstream m.channelId := by
  obtain ⟨outputs, hdec⟩ := Option.isSome_iff_exists.mp hdec
  unfold established at h
  unfold handleOpenExtendedMiningChannelSuccess
  rw [hdec] at h ⊢
  dsimp only at h ⊢
  split
  · exact .inl rfl
  · rename_i hlarge
    rw [if_neg hlarge] at h
    cases hfirst : s.pendingDownstreamRequests.head? with
    | none => exact .inr rfl
    | some first =>
        rw [hfirst] at h
        dsimp only at h ⊢
        split
        · exact .inr rfl
        · rename_i allocator hallocator
          rw [hallocator] at h
          cases h

/-- The handler once the channel is set up: the queue is replayed, and the sizes stay. -/
theorem handler_of_established {m : OpenExtendedMiningChannelSuccess} (slots : Nat → Nat)
    {o : Handled api} (h : s.established m = some o) :
    KeepsSizes o.value.sizes (s.handleOpenExtendedMiningChannelSuccess m slots) := by
  rcases handleOpenExtendedMiningChannelSuccess_cases m slots s with
    ⟨hnone, -⟩ | ⟨o', ho', -, -, heq⟩
  · rw [hnone] at h
    cases h
  · obtain rfl := Option.some.inj (ho'.symm.trans h)
    rw [heq]
    refine Leaves.andThen ⟨rfl, fun _ _ => trivial, fun _ _ => trivial⟩ fun _ hsizes => ?_
    refine .forEach (fun r _ s' hs' => ?_) (by exact hsizes)
    exact (carries_sizes _).handleOpenMiningChannel opensChannel_any hs'

/-- A channel that is taken is roomy, and one that is refused ends the client's work with this
pool. -/
theorem handleOpenExtendedMiningChannelSuccess_roomy (hlaw : api.Lawful) (h : Roomy s)
    {m : OpenExtendedMiningChannelSuccess} {slots : Nat → Nat} :
    Roomy (s.handleOpenExtendedMiningChannelSuccess m slots).value := by
  cases hest : s.established m with
  | none =>
      rcases refused_of_not_established slots hest h.outputs with heq | heq
      · rw [heq]
        exact h
      · rw [heq]
        exact h.of_sizes rfl
  | some o =>
      obtain ⟨-, -, hsizes⟩ := established_sizes hlaw hest
      have hafter := (handler_of_established slots hest).value.trans hsizes
      obtain ⟨houtputs, hallocator, hfull⟩ := Sizes.mk.inj hafter
      refine ⟨houtputs ▸ h.outputs, ?_⟩
      -- the low byte of a sum is at most the sum
      rw [hallocator, hfull, m.totalLen_toUInt8]
      exact (Nat.mod_le _ _).trans (Nat.mod_le _ _)

/-- A prefix that is too long ends the loop. -/
theorem handleSetExtranoncePrefix_roomy (hlaw : api.Lawful) (h : Roomy s) {p : Bytes}
    {slots : DownstreamId → ChannelKind → ChannelId → Nat}
    (hgo : Client.goesOn (s.handleSetExtranoncePrefix p slots) = true) :
    Roomy (s.handleSetExtranoncePrefix p slots).value := by
  unfold handleSetExtranoncePrefix at hgo ⊢
  split
  · exact h
  · rename_i u hu
    simp only [hu] at hgo
    split
    · rename_i hlong
      rw [if_pos hlong] at hgo
      cases hgo
    · rename_i hshort
      rw [if_neg hshort] at hgo
      split
      · rename_i e he
        simp only [he] at hgo
        cases hgo
      · rename_i u' hu'
        simp only [hu'] at hgo
        dsimp only
        split
        · rename_i hlarge
          rw [if_pos hlarge] at hgo
          cases hgo
        · rename_i hfits
          rw [if_neg hfits] at hgo
          split
          · rename_i e he
            simp only [he] at hgo
            cases hgo
          · rename_i allocator hallocator
            obtain ⟨-, rfl⟩ := fromUpstreamPrefix_ok hallocator
            obtain ⟨hpre, -, -⟩ := hlaw.setUpstreamPrefix hu'
            -- the sum is formed anew, from the prefix that the upstream channel has now
            have hfull : api.upstreamFullSize u' = p.length + api.upstreamRollable u' := by
              rw [ChannelsSv2.upstreamFullSize, hpre]
            have hroomy : Roomy { s with
                upstreamChannel := some u'
                extranonceAllocator := ⟨p, p.length + api.upstreamRollable u'⟩ } :=
              ⟨h.outputs, hfull.ge⟩
            refine KeepsSizes.roomy (.forEach (fun d _ s' hs' => ?_) rfl) hroomy
            exact (Leaves.forEach (fun c _ s' hs' => reassignPrefix_sizes hs') hs').andThen
              fun _ hs' => .forEach (fun c _ s' hs' => reassignPrefix_sizes hs') hs'

theorem handleAllocateMiningJobTokenSuccess_roomy (h : Roomy s)
    {m : AllocateMiningJobTokenSuccess}
    (hgo : Client.goesOn (s.handleAllocateMiningJobTokenSuccess m) = true) :
    Roomy (s.handleAllocateMiningJobTokenSuccess m).value := by
  unfold handleAllocateMiningJobTokenSuccess at hgo ⊢
  dsimp only at hgo ⊢
  split
  · rename_i hchanged
    rw [if_pos hchanged] at hgo
    split
    · rename_i hbad
      simp only [hbad] at hgo
      cases hgo
    · rename_i outputs hdec
      exact ⟨Option.isSome_iff_exists.mpr ⟨outputs, hdec⟩, h.room⟩
  · rename_i hsame
    -- outputs are decoded only where they differ from the stored ones
    have heq : s.coinbaseOutputs = m.coinbaseOutputs := Decidable.not_not.mp hsame
    exact ⟨heq ▸ h.outputs, h.room⟩

/-- Every handler after which the loop goes on leaves room. -/
theorem handler_roomy (hlaw : api.Lawful) {e : Event} (h : Roomy s)
    (hgo : Client.goesOn (handler e s) = true) : Roomy (handler e s).value := by
  cases e with
  | activate mode => exact h.of_sizes rfl
  | requestInitialTokens => exact h.of_sizes rfl
  | connect r =>
      obtain ⟨i, ds, hvalue, -, -⟩ := s.connect_spec r
      show Roomy (s.connect r).value
      rw [hvalue]
      exact h.of_sizes rfl
  | disconnect d => exact h.of_sizes rfl
  | newTemplate t => exact (handleNewTemplate_sizes hlaw t rfl).roomy h
  | requestTxDataSuccess i txs excess =>
      exact KeepsSizes.roomy ((declarationFree_sizes _).handleRequestTxDataSuccess rfl) h
  | setNewPrevHash m => exact (handleSetNewPrevHash_sizes hlaw m rfl).roomy h
  | allocateMiningJobTokenSuccess m => exact handleAllocateMiningJobTokenSuccess_roomy h hgo
  | declareMiningJobSuccess r token =>
      exact KeepsSizes.roomy ((declarationFree_sizes _).handleDeclareMiningJobSuccess rfl) h
  | declareMiningJobError code =>
      simp only [handler, handleDeclareMiningJobError]
      split
      · exact h
      · exact h
  | openExtendedMiningChannelSuccess m slots =>
      exact handleOpenExtendedMiningChannelSuccess_roomy hlaw h
  | openStandardMiningChannelSuccess => exact h
  | openMiningChannelError => exact h
  | closeUpstreamChannel => cases hgo
  | setExtranoncePrefix p slots => exact handleSetExtranoncePrefix_roomy hlaw h hgo
  | setCustomMiningJobSuccess r j => exact (handleSetCustomMiningJobSuccess_sizes hlaw rfl).roomy h
  | setCustomMiningJobError r code => exact (handleSetCustomMiningJobError_sizes rfl).roomy h
  | openMiningChannel r slot => exact (handleDownstreamOpen_sizes rfl).roomy h
  | closeChannel d c =>
      obtain ⟨ds, vardiff, hvalue, -, -⟩ := s.handleCloseChannel_spec d c
      show Roomy (s.handleCloseChannel d c).value
      rw [hvalue]
      exact h.of_sizes rfl
  | submitSharesStandard d m => exact (submitShares_sizes hlaw rfl).roomy h
  | submitSharesExtended d m => exact (submitShares_sizes hlaw rfl).roomy h

/-! ### Prefixes that are allocated

`openings` are the states in which the handler of an open request computes its size. The subtraction
there does not wrap. -/

/-- Whatever prefix the allocator gives, the full size is no smaller: the subtraction of
`handle_open_extended_mining_channel` does not underflow. -/
def PrefixFits (s : ChannelManager api) : Prop :=
  ∀ slot n p, api.allocateExtended s.extranonceAllocator slot n = .ok p →
    p.length ≤ s.fullExtranonceSize

/-- A prefix to be allocated is no longer than the extranonce. -/
theorem Roomy.prefixFits (hlaw : api.Lawful) (h : Roomy s) : PrefixFits s := by
  intro slot n p hp
  have hlength := (hlaw.allocateExtended hp).2
  exact (Nat.le_of_add_right_le hlength).trans h.room

/-- The states in which an event hands an open request to the mining handler. -/
def openings (s : ChannelManager api) : Event → List (ChannelManager api)
  | .openMiningChannel _ _ =>
      match s.upstreamState with
      | .noChannel | .pending => []
      | .connected | .soloMining => [s]
  | .openExtendedMiningChannelSuccess m slots =>
      match s.established m with
      | none => []
      | some o => (turns (replay slots) s.pendingDownstreamRequests.zipIdx
          { o.value with pendingDownstreamRequests := [] }).map (·.2)
  | _ => []

theorem openings_roomy (hlaw : api.Lawful) (h : Roomy s) {e : Event} {s' : ChannelManager api}
    (hs' : s' ∈ s.openings e) : Roomy s' := by
  unfold openings at hs'
  split at hs'
  · split at hs'
    · cases hs'
    · cases hs'
    · obtain rfl := List.mem_singleton.mp hs'
      exact h
    · obtain rfl := List.mem_singleton.mp hs'
      exact h
  · rename_i m slots
    split at hs'
    · cases hs'
    · rename_i o hest
      obtain ⟨turn, hturn, rfl⟩ := List.mem_map.mp hs'
      -- every turn begins with the sizes of the new channel, and so does the last one end
      have hturns : turn.2.sizes = o.value.sizes := by
        refine of_mem_turns (P := fun s' => s'.sizes = o.value.sizes) (fun r s' hs' => ?_) rfl hturn
        exact ((carries_sizes _).handleOpenMiningChannel opensChannel_any hs').value
      have hafter := (handler_of_established slots hest).value
      exact (handleOpenExtendedMiningChannelSuccess_roomy hlaw h).of_sizes
        (hturns.trans hafter.symm)
  · cases hs'

/-! ### What becomes of a success message

`Installs` is the state of a client that has taken the channel, `Settled` adds the other two
outcomes. -/

/-- The upstream channel and the allocator have the size the pool granted. -/
structure Installs (m : OpenExtendedMiningChannelSuccess) (o : Handled api) : Prop where
  allocator : o.value.extranonceAllocator = ⟨m.extranoncePrefix, m.fullSize⟩
  upstream : o.value.fullExtranonceSize = m.fullSize
  short : m.fullSize ≤ maxExtranonceLen

/-- The client falls back, closes the channel, or uses it as it was granted. -/
def Settled (m : OpenExtendedMiningChannelSuccess) (o : Handled api) : Prop :=
  (∃ kind, o.error = some (.fallback kind)) ∨
    (∃ reason, .closeUpstreamChannel m.channelId reason ∈ o.notes) ∨ Installs m o

/-- A message whose size is measured right is settled. -/
theorem settled_of_measured (hlaw : api.Lawful)
    (hlimit : ∀ p n, api.allocatorAccepts p n = true → n ≤ maxExtranonceLen) (h : Roomy s)
    {m : OpenExtendedMiningChannelSuccess} {slots : Nat → Nat}
    (hmeasured : s.Measures m → m.Measured) :
    Settled m (s.handleOpenExtendedMiningChannelSuccess m slots) := by
  cases hest : s.established m with
  | none =>
      rcases refused_of_not_established slots hest h.outputs with heq | heq
      · exact .inl ⟨_, by rw [heq]; rfl⟩
      · exact .inr (.inl ⟨_, by rw [heq]; exact List.mem_singleton_self _⟩)
  | some o =>
      obtain ⟨hmeasures, haccepts, hsizes⟩ := established_sizes hlaw hest
      obtain ⟨hsum, hbyte⟩ := hmeasured hmeasures
      obtain ⟨-, hallocator, hfull⟩ :=
        Sizes.mk.inj ((handler_of_established slots hest).value.trans hsizes)
      rw [hbyte, hsum] at haccepts hallocator
      exact .inr (.inr ⟨hallocator, hfull, hlimit _ _ haccepts⟩)

end ChannelManager

namespace Client

variable {api : ChannelsSv2}

/-! ### Runs -/

/-- There is room as long as the loop goes on. -/
def Roomy (w : Client api) : Prop :=
  w.running = true → w.manager.Roomy

/-- Every event keeps the invariant, as long as the client goes on. -/
theorem step_roomy (hlaw : api.Lawful) {w : Client api} (h : w.Roomy) (e : Event) :
    (w.step e).Roomy := by
  intro hrun
  cases hw : w.running with
  | false =>
      rw [step_stopped hw] at hrun
      exact absurd hrun (by simp [hw])
  | true =>
      simp only [step, hw, if_true] at hrun ⊢
      have hhandled : (ChannelManager.handle e w.manager).value.Roomy := by
        unfold ChannelManager.handle at hrun ⊢
        split
        · exact h hw
        · rename_i hread
          rw [if_neg hread] at hrun
          exact ChannelManager.handler_roomy hlaw (h hw) hrun
      unfold managerAfter
      split
      · exact hhandled.of_sizes rfl
      · exact hhandled

theorem start_roomy {outputs : Bytes} (houtputs : (deserializeOutputs outputs).isSome = true)
    (reserved : Nat) : (start outputs reserved : Client api).Roomy :=
  fun _ => ⟨houtputs, le_rfl⟩

/-- The states in which an event of the loop hands an open request to the mining handler. -/
def openings (w : Client api) (e : Event) : List (ChannelManager api) :=
  if w.handles e then w.manager.openings e else []

/-- No open request of a run makes the subtraction wrap. -/
theorem openings_fit (hlaw : api.Lawful) {w : Client api} (h : w.Roomy) (e : Event) :
    ∀ s ∈ w.openings e, s.PrefixFits := by
  intro s hs
  unfold openings at hs
  split at hs
  · rename_i hhandles
    have hrun : w.running = true := by
      simp only [handles, Bool.and_eq_true] at hhandles
      exact hhandles.1
    exact (ChannelManager.openings_roomy hlaw (h hrun) hs).prefixFits hlaw
  · cases hs

/-- **The size of the upstream channel.** A success message is settled, its size is measured right,
and no open request after it subtracts too much, exactly when a size that is measured fits into a
byte. -/
theorem success_settled_iff (hlaw : api.Lawful)
    (hlimit : ∀ p n, api.allocatorAccepts p n = true → n ≤ maxExtranonceLen) {outputs : Bytes}
    (houtputs : (deserializeOutputs outputs).isSome = true) (reserved : Nat) (es : List Event)
    (m : OpenExtendedMiningChannelSuccess) (slots : Nat → Nat)
    (hhandles : (exec step (start outputs reserved : Client api) es).handles
      (.openExtendedMiningChannelSuccess m slots) = true) :
    let w : Client api := exec step (start outputs reserved) es
    (ChannelManager.Settled m (w.manager.handleOpenExtendedMiningChannelSuccess m slots) ∧
        (w.manager.Measures m → m.Measured) ∧
        ∀ later, Along step (fun w e => ∀ s ∈ w.openings e, s.PrefixFits) w
          (.openExtendedMiningChannelSuccess m slots :: later)) ↔
      (w.manager.Measures m → m.fullSize < 2 ^ 8) := by
  intro w
  have hstep : ∀ (w : Client api) e, w.Roomy → (w.step e).Roomy := fun _ e h =>
    step_roomy hlaw h e
  have hroomy : w.Roomy := exec_invariant hstep (start_roomy houtputs reserved) es
  have hrun : w.running = true := by
    have hboth : w.handles (.openExtendedMiningChannelSuccess m slots) = true := hhandles
    simp only [handles, Bool.and_eq_true] at hboth
    exact hboth.1
  constructor
  · intro hall hmeasures
    exact m.measured_iff.mp (hall.2.1 hmeasures)
  · intro hsmall
    have hmeasured : w.manager.Measures m → m.Measured := fun hmeasures =>
      m.measured_iff.mpr (hsmall hmeasures)
    refine ⟨ChannelManager.settled_of_measured hlaw hlimit (hroomy hrun) hmeasured, hmeasured,
      fun later => ?_⟩
    exact along_iff_splits.mpr fun pre e post _ =>
      openings_fit hlaw (exec_invariant hstep hroomy pre) e

/-! ### A granted size of 280 -/

/-- A coinbase-only client that waits for its channel. -/
def waitingForChannel : List Event :=
  coinbaseOnlyRun.take 8

/-- The instance of the test refuses what the source's allocator refuses. -/
theorem reference_allocator_limit (p : Bytes) (n : Nat)
    (h : reference.allocatorAccepts p n = true) : n ≤ maxExtranonceLen := by
  simp only [reference, Bool.and_eq_true, decide_eq_true_eq] at h
  exact h.2

theorem success_settled_iff_waiting :
    let m : OpenExtendedMiningChannelSuccess := ⟨5, [], [1, 2], 8⟩
    let w : Client reference := exec step (start sampleOutputs 4) waitingForChannel
    (ChannelManager.Settled m (w.manager.handleOpenExtendedMiningChannelSuccess m fun _ => 0) ∧
        (w.manager.Measures m → m.Measured) ∧
        ∀ later, Along step (fun w e => ∀ s ∈ w.openings e, s.PrefixFits) w
          (.openExtendedMiningChannelSuccess m (fun _ => 0) :: later)) ↔
      (w.manager.Measures m → m.fullSize < 2 ^ 8) :=
  success_settled_iff reference_lawful reference_allocator_limit (by decide) 4 waitingForChannel _
    (fun _ => 0) (by decide +kernel)

/-- A prefix of 8 bytes and 280 bytes behind it: the low byte of 288 is 32. -/
def oversized : OpenExtendedMiningChannelSuccess :=
  ⟨5, [], [1, 2, 3, 4, 5, 6, 7, 8], 280⟩

/-- The allocator gets 32 bytes for a channel of 288. -/
theorem oversized_channel_installed :
    let w : Client reference := exec step (start sampleOutputs 4) waitingForChannel
    let o := w.manager.handleOpenExtendedMiningChannelSuccess oversized fun _ => 0
    w.handles (.openExtendedMiningChannelSuccess oversized fun _ => 0) = true ∧
      ¬ ChannelManager.Settled oversized o ∧ o.value.extranonceAllocator.totalLen = 32 ∧
        o.value.fullExtranonceSize = 288 := by
  intro w o
  have herror : o.error = none := by decide +kernel
  have hopen : o.notes.all (fun | .closeUpstreamChannel _ _ => false | _ => true) = true := by
    decide +kernel
  have htotal : o.value.extranonceAllocator.totalLen = 32 := by decide +kernel
  refine ⟨by decide +kernel, ?_, htotal, by decide +kernel⟩
  intro hsettled
  rcases hsettled with ⟨kind, hkind⟩ | ⟨reason, hreason⟩ | hinstalls
  · rw [herror] at hkind
    cases hkind
  · cases List.all_eq_true.mp hopen _ hreason
  · have h288 : o.value.extranonceAllocator.totalLen = 288 := by rw [hinstalls.allocator]; rfl
    rw [htotal] at h288
    cases h288

end Client

end GridPoolSv2.JobDeclaratorClient
