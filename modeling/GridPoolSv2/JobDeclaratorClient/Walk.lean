import GridPoolSv2.JobDeclaratorClient.Shares

/-!
# JobDeclaratorClient.Walk: what the loops over channels keep

Two results about the client speak of every downstream channel and of a few fields of the
manager. Their proofs go through the same loops, so the loops are walked through here
once, for any condition `P` on the manager that comes down to a condition `φ` on each
channel (`Carries`). What is left to show for `φ` are the channel methods themselves:
`on_new_template`, `on_group_channel_job` and `on_set_new_prev_hash`, and a new channel.

The walk lets every error through except the two panics of the share handlers, which no
loop reaches.

The rest is about conditions that do not see the channels at all. They are on the `Core` of the
manager, the cells that only the handlers of templates, tokens and jobs write (`Blind`), perhaps
with the cells of the upstream channel (`Framed`). The opposite are the conditions that do not see
the cells of declarations (`DeclarationFree`) and tokens (`TokenFree`), nor those of shares
(`ShareFree`).

A result picks the weakest of these conditions that its own fits, and proves what is left: the
handlers that write the cells it reads. Each condition has one lemma for each loop or handler
it passes through, under the handler's name.

`Leaves P Q R` and `Passes P Q` are the judgements, from `Lib.Handler`: the handler ends in a
state with `P`, every note it says has `Q`, and an error has `R`.
-/

namespace GridPoolSv2.JobDeclaratorClient

open Consensus (Bytes TxOut)
open Visit Handler

/-- The panics of the translation of a share. -/
def JDCError.IsTranslationPanic (e : JDCError) : Prop :=
  e.kind = .panic .sliceOutOfRange ∨ e.kind = .panic .unreachableCode

instance (e : JDCError) : Decidable e.IsTranslationPanic :=
  inferInstanceAs (Decidable (_ ∨ _))

namespace ChannelManager

variable {api : ChannelsSv2}

/-- `P` comes down to `φ` for each channel, does not see what else the loops change, and puts no
condition on messages to downstreams and on other errors than the panics of a translation. -/
structure Carries (P : ChannelManager api → Prop) (φ : ChannelKind → api.Channel → Prop)
    (Q : Note → Prop) (R : JDCError → Prop) : Prop where
  channel : ∀ {s d k c ch}, P s → s.channel? d k c = some ch → φ k ch
  setChannel : ∀ {s d k c ch}, P s → φ k ch → P (s.setChannel d k c ch)
  setGroup : ∀ {s d g}, P s → P (s.setGroup d g)
  nextChannelId : ∀ {s d}, P s → P (s.nextChannelId d)
  mapJob : ∀ {s d c j t}, P s → P (s.mapJob d c j t)
  mapJobs : ∀ {s d cs j t}, P s → P (s.mapJobs d cs j t)
  vardiff : ∀ {s key b}, P s → P { s with vardiff := Function.update s.vardiff key b }
  note : ∀ d m, Q (.downstream d m)
  error : ∀ e : JDCError, ¬ e.IsTranslationPanic → R e

section Walk

variable {P : ChannelManager api → Prop} {φ : ChannelKind → api.Channel → Prop}
  {Q : Note → Prop} {R : JDCError → Prop} {s : ChannelManager api}

theorem Carries.say (hc : Carries P φ Q R) (h : P s) (d : DownstreamId) (ms : List Mining) :
    Leaves P Q R (Handler.say (ms.map (.downstream d)) s) := by
  refine .say h fun n hn => ?_
  obtain ⟨m, -, rfl⟩ := List.mem_map.mp hn
  exact hc.note d m

/-- An error that is not a panic of the share handlers. -/
theorem Carries.fail (hc : Carries P φ Q R) (h : P s) {e : JDCError}
    (he : ¬ e.IsTranslationPanic) : Leaves P Q R (.fail s e) :=
  .fail h (hc.error e he)

/-! ### Templates

The loop bodies of `handle_new_template`. What is asked of `φ` is that it survives a job with the
outputs of the template. -/

/-- `φ` survives the methods `handle_new_template` calls. -/
structure TakesTemplate (φ : ChannelKind → api.Channel → Prop) (t : NewTemplate)
    (outputs : List TxOut) : Prop where
  onNewTemplate : ∀ {k ch ch'}, φ k ch → api.channel.onNewTemplate ch t outputs = .ok ch' → φ k ch'
  onGroupChannelJob : ∀ {k ch ch' g}, φ k ch → g.template = t →
    g.coinbaseOutputs = outputs ++ t.coinbaseTxOutputs → api.onGroupChannelJob ch g = .ok ch' →
      φ k ch'

variable {t : NewTemplate} {outputs : List TxOut} {g : Job}

/-- A standard channel takes the template itself, or the job of its group. -/
theorem Carries.newTemplateStandard (hc : Carries P φ Q R) (ht : TakesTemplate φ t outputs)
    (hg : g.template = t ∧ g.coinbaseOutputs = outputs ++ t.coinbaseTxOutputs) (h : P s)
    {r : Bool} {d : DownstreamId} {c : ChannelId} :
    Leaves P Q R (newTemplateStandard t outputs g r d c s) := by
  unfold ChannelManager.newTemplateStandard
  split
  · exact .keep h
  · rename_i ch hch
    have hφ := hc.channel h hch
    split
    · split
      · exact hc.fail h (of_decide_eq_false rfl)
      · rename_i ch' hch'
        have h' := hc.setChannel (d := d) (c := c) h (ht.onNewTemplate hφ hch')
        dsimp only
        split
        · exact hc.fail h' (of_decide_eq_false rfl)
        · exact hc.say (hc.mapJob h') d [_]
    · dsimp only
      split
      · exact hc.fail (hc.mapJob h) (of_decide_eq_false rfl)
      · rename_i ch' hch'
        exact .keep (hc.setChannel (hc.mapJob h) (ht.onGroupChannelJob hφ hg.1 hg.2 hch'))

/-- An extended channel takes the job of its group. -/
theorem Carries.newTemplateExtended (hc : Carries P φ Q R) (ht : TakesTemplate φ t outputs)
    (hg : g.template = t ∧ g.coinbaseOutputs = outputs ++ t.coinbaseTxOutputs) (h : P s)
    {d : DownstreamId} {c : ChannelId} : Leaves P Q R (newTemplateExtended t g d c s) := by
  unfold ChannelManager.newTemplateExtended
  split
  · exact .keep h
  · rename_i ch hch
    dsimp only
    split
    · exact hc.fail (hc.mapJob h) (of_decide_eq_false rfl)
    · rename_i ch' hch'
      exact .keep (hc.setChannel (hc.mapJob h)
        (ht.onGroupChannelJob (hc.channel h hch) hg.1 hg.2 hch'))

theorem Carries.newTemplateDownstream (hc : Carries P φ Q R) (hlaw : api.Lawful)
    (ht : TakesTemplate φ t outputs) {token : Option AllocateMiningJobTokenSuccess}
    (hcustom : ∀ s, P s → Leaves P Q R (s.sendCustomJob token s.lastNewPrevHash (some t) outputs))
    (h : P s) {d : DownstreamId} :
    Leaves P Q R (newTemplateDownstream t outputs token d s) := by
  unfold ChannelManager.newTemplateDownstream
  split
  · exact .keep h
  · split
    · exact hc.fail h (of_decide_eq_false rfl)
    · rename_i group hgroup
      dsimp only
      split
      · exact hc.fail (hc.setGroup h) (of_decide_eq_false rfl)
      · rename_i job hjob
        have hg := hlaw.groupJob hgroup hjob
        refine (hcustom _ (hc.setGroup h)).andThen fun _ h => ?_
        refine Leaves.andThen (.say h ?_) fun _ h => ?_
        · split
          · simpa using hc.note _ _
          · simp
        · refine (Leaves.forEach (fun c _ s h => hc.newTemplateStandard ht hg h) h).andThen
            fun _ h => ?_
          exact .forEach (fun c _ s h => hc.newTemplateExtended ht hg h) h

/-! ### Previous hashes -/

theorem Carries.prevHashChannel (hc : Carries P φ Q R) {m : SetNewPrevHash}
    (hm : ∀ {k ch ch'}, φ k ch → api.channel.onSetNewPrevHash ch m = .ok ch' → φ k ch')
    (h : P s) {r : Bool} {d : DownstreamId} {k : ChannelKind} {c : ChannelId} :
    Leaves P Q R (prevHashChannel m r d k c s) := by
  unfold ChannelManager.prevHashChannel
  split
  · exact .keep h
  · rename_i ch hch
    split
    · exact hc.fail h (of_decide_eq_false rfl)
    · rename_i ch' hch'
      have h' := hc.setChannel (d := d) (c := c) h (hm (hc.channel h hch) hch')
      dsimp only
      split
      · exact .keep h'
      · split
        · split
          · exact hc.fail h' (of_decide_eq_false rfl)
          · exact hc.say (hc.mapJob h') d [_]
        · exact .keep h'

/-- The group and the channels of one downstream take it. -/
theorem Carries.prevHashDownstream (hc : Carries P φ Q R) {m : SetNewPrevHash}
    (hm : ∀ {k ch ch'}, φ k ch → api.channel.onSetNewPrevHash ch m = .ok ch' → φ k ch')
    (h : P s) {d : DownstreamId} : Leaves P Q R (prevHashDownstream m d s) := by
  unfold ChannelManager.prevHashDownstream
  split
  · exact .keep h
  · split
    · exact hc.fail h (of_decide_eq_false rfl)
    · dsimp only
      split
      · exact hc.fail (hc.setGroup h) (of_decide_eq_false rfl)
      · refine Leaves.andThen ?_ fun _ h => ?_
        · split
          · exact hc.say (hc.mapJobs (hc.mapJobs (hc.setGroup h))) d [_]
          · exact .keep (hc.setGroup h)
        · refine (Leaves.forEach (fun c _ s h => hc.prevHashChannel hm h) h).andThen fun _ h => ?_
          exact .forEach (fun c _ s h => hc.prevHashChannel hm h) h

/-! ### Opening a channel

The channel is made, gets its first job, and is inserted. Only the inserted channel has to satisfy
`φ`. -/

/-- A new channel gets its first job and its first previous hash. -/
theorem Carries.activateChannel (hc : Carries P φ Q R) (h : P s) {d : DownstreamId}
    {k : ChannelKind} {c : ChannelId} {requestId : Nat} {ch : api.Channel} {m : SetNewPrevHash}
    {joins : Bool} {size : Nat}
    (hφ : ∀ {ch' ch''}, api.channel.onNewTemplate ch t outputs = .ok ch' →
      api.channel.onSetNewPrevHash ch' m = .ok ch'' → φ k ch'') :
    Leaves P Q R (s.activateChannel d k c requestId ch t m outputs joins size) := by
  unfold ChannelManager.activateChannel
  split
  · exact hc.fail h (of_decide_eq_false rfl)
  · rename_i ch' hch'
    split
    · exact hc.fail h (of_decide_eq_false rfl)
    · split
      · exact hc.fail h (of_decide_eq_false rfl)
      · rename_i ch'' hch''
        split
        · exact hc.fail h (of_decide_eq_false rfl)
        · rename_i ds hds
          have h' := hφ hch' hch''
          dsimp only
          split
          · split
            · exact hc.fail (hc.mapJob (hc.setChannel (hc.vardiff h) h'))
                (of_decide_eq_false rfl)
            · exact hc.say (hc.setGroup (hc.mapJob (hc.setChannel (hc.vardiff h) h'))) d [_, _, _]
          · exact hc.say (hc.mapJob (hc.setChannel (hc.vardiff h) h')) d [_, _, _]

/-- What has to hold of a channel that an open handler builds. -/
structure OpensChannel (P : ChannelManager api → Prop) (φ : ChannelKind → api.Channel → Prop) :
    Prop where
  standard : ∀ {s : ChannelManager api} {slot p c msg ch t m o outputs ch' ch''}, P s →
    s.lastFutureTemplate = some t → s.lastNewPrevHash = some m →
    api.allocateStandard s.extranonceAllocator slot = .ok p → api.newStandard c msg p = .ok ch →
    deserializeOutputs s.coinbaseOutputs = some o →
    withReward t.coinbaseTxValueRemaining o = some outputs →
    api.channel.onNewTemplate ch t outputs = .ok ch' →
    api.channel.onSetNewPrevHash ch' m = .ok ch'' → φ .standard ch''
  extended : ∀ {s : ChannelManager api} {slot p c msg n ch t m o outputs ch' ch''}, P s →
    s.lastFutureTemplate = some t → s.lastNewPrevHash = some m →
    api.allocateExtended s.extranonceAllocator slot msg.minExtranonceSize = .ok p →
    api.newExtended c msg p n = .ok ch →
    deserializeOutputs s.coinbaseOutputs = some o →
    withReward t.coinbaseTxValueRemaining o = some outputs →
    api.channel.onNewTemplate ch t outputs = .ok ch' →
    api.channel.onSetNewPrevHash ch' m = .ok ch'' → φ .extended ch''

/-- The outputs of a coinbase are the stored ones with the reward of the template. -/
theorem rewardOutputs_eq_ok {stored : Bytes} (h : rewardOutputs stored t = .ok outputs) :
    ∃ o, deserializeOutputs stored = some o ∧
      withReward t.coinbaseTxValueRemaining o = some outputs := by
  unfold rewardOutputs at h
  split at h
  · cases h
  · rename_i o ho
    split at h
    · cases h
    · rename_i o' ho'
      exact ⟨o, ho, by rw [ho', Except.ok.inj h]⟩

theorem rewardOutputs_eq_error {stored : Bytes} {e : JDCError}
    (h : rewardOutputs stored t = .error e) : ¬ e.IsTranslationPanic := by
  unfold rewardOutputs at h
  split at h
  · obtain rfl := Except.error.inj h
    exact of_decide_eq_false rfl
  · split at h
    · obtain rfl := Except.error.inj h
      exact of_decide_eq_false rfl
    · cases h

theorem Carries.handleOpenMiningChannel (hc : Carries P φ Q R) (ho : OpensChannel P φ) (h : P s)
    {r : PendingChannelRequest} {slot : Nat} :
    Leaves P Q R (s.handleOpenMiningChannel r slot) := by
  unfold ChannelManager.handleOpenMiningChannel
  split
  · unfold handleOpenStandardMiningChannel
    split
    · exact hc.fail h (of_decide_eq_false rfl)
    · rename_i o hdec
      split
      · exact hc.fail h (of_decide_eq_false rfl)
      · rename_i t ht
        split
        · exact hc.fail h (of_decide_eq_false rfl)
        · rename_i m hm
          split
          · exact hc.fail h (of_decide_eq_false rfl)
          · rename_i outputs houtputs
            split
            · exact hc.fail h (of_decide_eq_false rfl)
            · have h' := hc.nextChannelId (d := r.downstreamId) h
              dsimp only
              split
              · exact hc.fail h' (of_decide_eq_false rfl)
              · rename_i p hp
                split
                · exact hc.say h' _ [_]
                · exact hc.fail h' (of_decide_eq_false rfl)
                · rename_i ch hch
                  exact hc.activateChannel h'
                    fun hch' hch'' => ho.standard h ht hm hp hch hdec houtputs hch' hch''
  · unfold handleOpenExtendedMiningChannel
    split
    · exact hc.fail h (of_decide_eq_false rfl)
    · rename_i t ht
      split
      · exact hc.fail h (of_decide_eq_false rfl)
      · rename_i m hm
        split
        · exact hc.fail h (of_decide_eq_false rfl)
        · split
          · exact hc.say h _ [_]
          · have h' := hc.nextChannelId (d := r.downstreamId) h
            dsimp only
            split
            · exact hc.say h' _ [_]
            · rename_i p hp
              split
              · exact hc.say h' _ [_]
              · exact hc.fail h' (of_decide_eq_false rfl)
              · rename_i ch hch
                split
                · exact hc.fail h' (rewardOutputs_eq_error ‹_›)
                · rename_i outputs houtputs
                  obtain ⟨o, hdec, ho'⟩ := rewardOutputs_eq_ok houtputs
                  exact hc.activateChannel h'
                    fun hch' hch'' => ho.extended h ht hm hp hch hdec ho' hch' hch''

/-! ### Prefixes and shares of a channel -/

/-- `φ` survives a new prefix, and `P` does not see the upstream channel and the allocator. -/
theorem Carries.handleSetExtranoncePrefix (hc : Carries P φ Q R)
    (hφ : ∀ {k ch p ch'}, φ k ch → api.setExtranoncePrefix ch p = .ok ch' → φ k ch')
    (hupstream : ∀ {s u}, P s → P { s with upstreamChannel := some u })
    (hallocator : ∀ {s a}, P s → P { s with extranonceAllocator := a }) (h : P s) {p : Bytes}
    {slots : DownstreamId → ChannelKind → ChannelId → Nat} :
    Leaves P Q R (s.handleSetExtranoncePrefix p slots) := by
  have hreassign : ∀ {d k c} {s : ChannelManager api}, P s →
      Leaves P Q R (reassignPrefix slots d k c s) := by
    intro d k c s h
    unfold reassignPrefix
    split
    · exact .keep h
    · rename_i ch hch
      dsimp only
      split
      · exact .keep h
      · split
        · exact .keep h
        · rename_i ch' hch'
          exact hc.say (hc.setChannel h (hφ (hc.channel h hch) hch')) d [_]
  unfold ChannelManager.handleSetExtranoncePrefix
  split
  · exact .keep h
  · split
    · exact hc.fail h (of_decide_eq_false rfl)
    · split
      · exact hc.fail h (of_decide_eq_false rfl)
      · dsimp only
        split
        · exact hc.fail (hupstream h) (of_decide_eq_false rfl)
        · split
          · exact hc.fail (hupstream h) (of_decide_eq_false rfl)
          · refine .forEach (fun d _ s h => ?_) (hallocator (hupstream h))
            exact (Leaves.forEach (fun c _ s h => hreassign h) h).andThen fun _ h =>
              .forEach (fun c _ s h => hreassign h) h

/-- `φ` survives the check of a share, and `P` its way to the pool. -/
theorem Carries.submitShares (hc : Carries P φ Q fun _ => True) {k : ChannelKind} {d : DownstreamId}
    {msg : SubmitSharesExtended}
    {validate : api.Channel → api.Channel × Except ShareValidationError ShareValidationResult}
    (hφ : ∀ {ch}, φ k ch → φ k (validate ch).1)
    (hsolution : ∀ i v t n b, Q (.submitSolution i v t n b))
    (htranslate : ∀ {s m ch res}, P s →
      Leaves P Q (fun _ => True) (s.translateShare k d m ch msg res)) (h : P s) :
    Leaves P Q (fun _ => True) (s.submitShares k d msg validate) := by
  unfold ChannelManager.submitShares
  split
  · exact .fail h trivial
  · split
    · exact .fail h trivial
    · split
      · exact hc.say h d [_]
      · rename_i ch hch
        have h' := hc.setChannel (d := d) (c := msg.channelId) h (hφ (hc.channel h hch))
        dsimp only
        refine checkVardiff_leaves ?_ (fun _ _ => hc.note _ _) fun _ _ _ => trivial
        split
        · split
          · exact .fail h' trivial
          · exact hc.say h' d [_]
        · exact (acknowledgeShare_leaves h' (fun _ _ => hc.note _ _) hsolution trivial).andThen
            fun _ h => htranslate h

end Walk

/-! ### What the handlers of downstreams leave alone

`Framed` conditions are read off the `frame`: the core, the state of the upstream channel and the
requests that wait for it. None of these handlers writes one of these cells. -/

end ChannelManager

/-- An error that ends the loop. -/
def JDCError.IsFatal (e : JDCError) : Prop :=
  e.action = .fallback ∨ e.action = .shutdown

/-- The cells that only the handlers of templates, tokens and jobs write. -/
structure Core where
  mode : JDMode
  coinbaseOutputs : Bytes
  allocateTokens : List AllocateMiningJobTokenSuccess
  requestIdFactory : RequestId
  lastFutureTemplate : Option NewTemplate
  lastNewPrevHash : Option SetNewPrevHash
  templateStore : TemplateId → Option NewTemplate
  lastDeclareJobStore : List (RequestId × DeclaredJob)
  hasUpstream : Bool
  hasFactory : Bool

/-- The messages about downstream channels and shares. -/
def Note.aboutChannels : Note → Bool
  | .downstream _ _ | .submitSharesExtended _ _ | .pushSolution _ _ | .submitSolution _ _ _ _ _ =>
      true
  | _ => false

namespace ChannelManager

variable {api : ChannelsSv2}

def core (s : ChannelManager api) : Core where
  mode := s.mode
  coinbaseOutputs := s.coinbaseOutputs
  allocateTokens := s.allocateTokens
  requestIdFactory := s.requestIdFactory
  lastFutureTemplate := s.lastFutureTemplate
  lastNewPrevHash := s.lastNewPrevHash
  templateStore := s.templateStore
  lastDeclareJobStore := s.lastDeclareJobStore
  hasUpstream := s.upstreamChannel.isSome
  hasFactory := s.jobFactory.isSome

/-- The core, and the two cells that only open requests and the upstream channel write. -/
structure Frame where
  core : Core
  upstreamState : UpstreamState
  pendingDownstreamRequests : List PendingChannelRequest

def frame (s : ChannelManager api) : Frame :=
  ⟨s.core, s.upstreamState, s.pendingDownstreamRequests⟩

/-- The upstream channel itself is not in the frame, only whether there is one. -/
theorem frame_setUpstream {s : ChannelManager api} {u u' : api.Upstream}
    (h : s.upstreamChannel = some u) :
    frame { s with upstreamChannel := some u' } = s.frame := by
  simp [frame, core, h]

/-- `P` is about these cells only, and `Q` allows messages about channels and shares. -/
structure Framed (P : ChannelManager api → Prop) (Q : Note → Prop) : Prop where
  of_frame : ∀ {s s'}, P s → s'.frame = s.frame → P s'
  note : ∀ n, n.aboutChannels = true → Q n

/-- `P` is about the core only, and `Q` allows the request for an upstream channel too. -/
structure Blind (P : ChannelManager api → Prop) (Q : Note → Prop) : Prop extends Framed P Q where
  of_core : ∀ {s s'}, P s → s'.core = s.core → P s'
  request : ∀ r, Q (.openExtendedMiningChannel r)
  of_frame h hframe := of_core h (congrArg Frame.core hframe)

section Framed

variable {P : ChannelManager api → Prop} {Q : Note → Prop} {R : JDCError → Prop}
  {s : ChannelManager api}

theorem Framed.say (hb : Framed P Q) (h : P s) {s' : ChannelManager api} {notes : List Note}
    (hs : s'.frame = s.frame) (hn : notes.all Note.aboutChannels = true) :
    Leaves P Q R (Handler.say notes s') :=
  .say (hb.of_frame h hs) fun n hmem => hb.note n (List.all_eq_true.mp hn n hmem)

theorem Framed.newTemplateStandard (hb : Framed P Q) (hR : ∀ e : JDCError, e.IsFatal → R e)
    (h : P s) {t : NewTemplate} {outputs : List TxOut} {g : Job} {r : Bool} {d : DownstreamId}
    {c : ChannelId} : Leaves P Q R (newTemplateStandard t outputs g r d c s) := by
  unfold ChannelManager.newTemplateStandard
  split
  · exact .keep h
  · split
    · split
      · exact .fail h (hR _ (.inr rfl))
      · dsimp only
        split
        · exact .fail (hb.of_frame h rfl) (hR _ (.inr rfl))
        · exact hb.say h (by rfl) (by rfl)
    · dsimp only
      split
      · exact .fail (hb.of_frame h rfl) (hR _ (.inr rfl))
      · exact .keep (hb.of_frame h rfl)

theorem Framed.newTemplateExtended (hb : Framed P Q) (hR : ∀ e : JDCError, e.IsFatal → R e)
    (h : P s) {t : NewTemplate} {g : Job} {d : DownstreamId} {c : ChannelId} :
    Leaves P Q R (newTemplateExtended t g d c s) := by
  unfold ChannelManager.newTemplateExtended
  split
  · exact .keep h
  · dsimp only
    split
    · exact .fail (hb.of_frame h rfl) (hR _ (.inr rfl))
    · exact .keep (hb.of_frame h rfl)

/-- The body of the downstream loop, up to the custom job. -/
theorem Framed.newTemplateDownstream (hb : Framed P Q) (hR : ∀ e : JDCError, e.IsFatal → R e)
    {t : NewTemplate} {outputs : List TxOut} {token : Option AllocateMiningJobTokenSuccess}
    (hcustom : ∀ s, P s → Leaves P Q R (s.sendCustomJob token s.lastNewPrevHash (some t) outputs))
    (h : P s) {d : DownstreamId} : Leaves P Q R (newTemplateDownstream t outputs token d s) := by
  unfold ChannelManager.newTemplateDownstream
  split
  · exact .keep h
  · split
    · exact .fail h (hR _ (.inr rfl))
    · dsimp only
      split
      · exact .fail (hb.of_frame h rfl) (hR _ (.inr rfl))
      · refine Leaves.andThen (hcustom (s.setGroup d _) (hb.of_frame h rfl)) fun _ h => ?_
        refine Leaves.andThen (hb.say h (by rfl) ?_) fun _ h => ?_
        · split <;> rfl
        · refine (Leaves.forEach (fun c _ s h => hb.newTemplateStandard hR h) h).andThen
            fun _ h => ?_
          exact .forEach (fun c _ s h => hb.newTemplateExtended hR h) h

theorem Framed.prevHashChannel (hb : Framed P Q) (hR : ∀ e : JDCError, e.IsFatal → R e) (h : P s)
    {m : SetNewPrevHash} {r : Bool} {d : DownstreamId} {k : ChannelKind} {c : ChannelId} :
    Leaves P Q R (prevHashChannel m r d k c s) := by
  unfold ChannelManager.prevHashChannel
  split
  · exact .keep h
  · split
    · exact .fail h (hR _ (.inl rfl))
    · dsimp only
      split
      · exact .keep (hb.of_frame h rfl)
      · split
        · split
          · exact .fail (hb.of_frame h rfl) (hR _ (.inr rfl))
          · exact hb.say h (by rfl) (by rfl)
        · exact .keep (hb.of_frame h rfl)

theorem Framed.prevHashDownstream (hb : Framed P Q) (hR : ∀ e : JDCError, e.IsFatal → R e) (h : P s)
    {m : SetNewPrevHash} {d : DownstreamId} : Leaves P Q R (prevHashDownstream m d s) := by
  unfold ChannelManager.prevHashDownstream
  split
  · exact .keep h
  · split
    · exact .fail h (hR _ (.inl rfl))
    · dsimp only
      split
      · exact .fail (hb.of_frame h rfl) (hR _ (.inr rfl))
      · refine Leaves.andThen ?_ fun _ h => ?_
        · split
          · exact hb.say h (by rfl) (by rfl)
          · exact .keep (hb.of_frame h rfl)
        · refine (Leaves.forEach (fun c _ s h => hb.prevHashChannel hR h) h).andThen fun _ h => ?_
          exact .forEach (fun c _ s h => hb.prevHashChannel hR h) h

/-- The errors of the handlers below are of every kind. -/
abbrev Passes (P : ChannelManager api → Prop) (Q : Note → Prop) (o : Handled api) : Prop :=
  Leaves P Q (fun _ => True) o

theorem Framed.activateChannel (hb : Framed P Q) (h : P s) {d : DownstreamId} {k : ChannelKind}
    {c : ChannelId} {requestId : Nat} {ch : api.Channel} {t : NewTemplate} {m : SetNewPrevHash}
    {outputs : List TxOut} {joins : Bool} {size : Nat} :
    Passes P Q (s.activateChannel d k c requestId ch t m outputs joins size) := by
  unfold ChannelManager.activateChannel
  split
  · exact .fail h trivial
  · split
    · exact .fail h trivial
    · split
      · exact .fail h trivial
      · split
        · exact .fail h trivial
        · dsimp only
          split
          · split
            · exact .fail (hb.of_frame h rfl) trivial
            · exact hb.say h (by rfl) (by rfl)
          · exact hb.say h (by rfl) (by rfl)

theorem Framed.handleOpenMiningChannel (hb : Framed P Q) (h : P s) {r : PendingChannelRequest}
    {slot : Nat} : Passes P Q (s.handleOpenMiningChannel r slot) := by
  unfold ChannelManager.handleOpenMiningChannel
  split
  · unfold handleOpenStandardMiningChannel
    split
    · exact .fail h trivial
    · split
      · exact .fail h trivial
      · split
        · exact .fail h trivial
        · split
          · exact .fail h trivial
          · split
            · exact .fail h trivial
            · have h' : P (s.nextChannelId r.downstreamId) := hb.of_frame h rfl
              dsimp only
              split
              · exact .fail h' trivial
              · split
                · exact hb.say h' (by rfl) (by rfl)
                · exact .fail h' trivial
                · exact hb.activateChannel h'
  · unfold handleOpenExtendedMiningChannel
    split
    · exact .fail h trivial
    · split
      · exact .fail h trivial
      · split
        · exact .fail h trivial
        · split
          · exact hb.say h (by rfl) (by rfl)
          · have h' : P (s.nextChannelId r.downstreamId) := hb.of_frame h rfl
            dsimp only
            split
            · exact hb.say h' (by rfl) (by rfl)
            · split
              · exact hb.say h' (by rfl) (by rfl)
              · exact .fail h' trivial
              · split
                · exact .fail h' trivial
                · exact hb.activateChannel h'

/-- A request of a miner: it is queued until there is an upstream channel, or handled. -/
theorem Blind.handleDownstreamOpen (hb : Blind P Q) (h : P s) {r : PendingChannelRequest}
    {slot : Nat} : Passes P Q (s.handleDownstreamOpen r slot) := by
  unfold ChannelManager.handleDownstreamOpen
  split
  · exact .say (hb.of_core h rfl) (by simpa using hb.request _)
  · exact .keep (hb.of_core h rfl)
  · exact hb.handleOpenMiningChannel h
  · exact hb.handleOpenMiningChannel h

theorem Framed.connect (hb : Framed P Q) (h : P s) {r : Bool} : Passes P Q (s.connect r) := by
  unfold ChannelManager.connect
  split
  · dsimp only
    split
    · exact .fail (hb.of_frame h rfl) trivial
    · split
      · exact .fail (hb.of_frame h rfl) trivial
      · split
        · exact .keep (hb.of_frame h rfl)
        · split
          · exact .fail (hb.of_frame h rfl) trivial
          · split
            · exact .fail (hb.of_frame h rfl) trivial
            · exact .keep (hb.of_frame h rfl)
  · exact .keep h

theorem Framed.handleCloseChannel (hb : Framed P Q) (h : P s) {d : DownstreamId} {c : ChannelId} :
    Passes P Q (s.handleCloseChannel d c) := by
  unfold ChannelManager.handleCloseChannel
  split
  · exact .fail h trivial
  · exact .keep (hb.of_frame h rfl)

theorem Framed.reassignPrefix (hb : Framed P Q) (h : P s)
    {slots : DownstreamId → ChannelKind → ChannelId → Nat} {d : DownstreamId} {k : ChannelKind}
    {c : ChannelId} : Passes P Q (reassignPrefix slots d k c s) := by
  unfold ChannelManager.reassignPrefix
  split
  · exact .keep h
  · dsimp only
    split
    · exact .keep h
    · split
      · exact .keep h
      · exact hb.say h (by rfl) (by rfl)

theorem Framed.handleSetExtranoncePrefix (hb : Framed P Q) (h : P s) {p : Bytes}
    {slots : DownstreamId → ChannelKind → ChannelId → Nat} :
    Passes P Q (s.handleSetExtranoncePrefix p slots) := by
  unfold ChannelManager.handleSetExtranoncePrefix
  split
  · exact .keep h
  · rename_i u hu
    split
    · exact .fail h trivial
    · split
      · exact .fail h trivial
      · rename_i u' hu'
        have h' : P { s with upstreamChannel := some u' } := hb.of_frame h (frame_setUpstream hu)
        dsimp only
        split
        · exact .fail h' trivial
        · split
          · exact .fail h' trivial
          · refine .forEach (fun d _ s h => ?_) (hb.of_frame h' rfl)
            exact (Leaves.forEach (fun c _ s h => hb.reassignPrefix h) h).andThen fun _ h =>
              .forEach (fun c _ s h => hb.reassignPrefix h) h

/-! ### Shares

A share is checked by its channel. It is passed on at once, or kept until the pool has answered the
custom job of its template. -/

/-- The share is passed on to the pool, with a solution if it is a block. -/
theorem Framed.relayShare (hb : Framed P Q) (h : P s) {k : ChannelKind} {m : SetNewPrevHash}
    {origin : Origin} {share : SubmitSharesExtended} {solution : api.Upstream → Bytes}
    {oversized : JDCError} : Passes P Q (s.relayShare k m origin share solution oversized) := by
  unfold ChannelManager.relayShare
  split
  · exact .keep h
  · rename_i u hu
    dsimp only
    have h' : P { s with upstreamChannel := some (api.validateUpstream u share).1 } :=
      hb.of_frame h (frame_setUpstream hu)
    split
    · exact hb.say h' (by rfl) (by rfl)
    · split
      · exact .fail (hb.of_frame h' rfl) trivial
      · exact hb.say h' (by rfl) (by rfl)
    · split
      · exact .fail h' trivial
      · exact .keep h'

/-- The share is put under the job id of the pool. -/
theorem Framed.translateShare (hb : Framed P Q) (h : P s) {k : ChannelKind} {d : DownstreamId}
    {m : SetNewPrevHash} {ch : api.Channel} {msg : SubmitSharesExtended}
    {res : ShareValidationResult} : Passes P Q (s.translateShare k d m ch msg res) := by
  unfold ChannelManager.translateShare
  split
  · exact .keep h
  · dsimp only
    split
    · exact .fail h trivial
    · split
      · exact .fail h trivial
      · split
        · exact hb.relayShare h
        · split
          · exact .keep h
          · exact .keep (hb.of_frame h rfl)

theorem Framed.submitShares (hb : Framed P Q) (h : P s) {k : ChannelKind} {d : DownstreamId}
    {msg : SubmitSharesExtended}
    {validate : api.Channel → api.Channel × Except ShareValidationError ShareValidationResult} :
    Passes P Q (s.submitShares k d msg validate) := by
  unfold ChannelManager.submitShares
  split
  · exact .fail h trivial
  · split
    · exact .fail h trivial
    · split
      · exact hb.say h (by rfl) (by rfl)
      · dsimp only
        refine checkVardiff_leaves ?_ (fun d m => hb.note _ rfl) fun _ _ _ => trivial
        split
        · split
          · exact .fail (hb.of_frame h rfl) trivial
          · exact hb.say h (by rfl) (by rfl)
        · refine Leaves.andThen (acknowledgeShare_leaves ?_ (fun d m => hb.note _ rfl)
            (fun _ _ _ _ _ => hb.note _ rfl) trivial) fun _ h => hb.translateShare h
          exact hb.of_frame h rfl

end Framed

/-! ### Tokens and declarations

The conditions that do not look at the cells of declarations, and those that do not look at the
tokens either. -/

end ChannelManager

/-- A request for an upstream channel. -/
def Note.upstreamOpen? : Note → Option OpenMiningChannel
  | .openExtendedMiningChannel request => some request
  | _ => none

/-- The cells that the handlers of tokens, declarations and shares leave alone. -/
structure Base (api : ChannelsSv2) where
  mode : JDMode
  upstreamState : UpstreamState
  downstream : AList fun _ : DownstreamId => Downstream api
  downstreamIdFactory : DownstreamId
  extranonceAllocator : ExtranonceAllocator
  lastFutureTemplate : Option NewTemplate
  lastNewPrevHash : Option SetNewPrevHash
  jobTemplateId : DownstreamId × ChannelId × JobId → Option TemplateId
  pendingDownstreamRequests : List PendingChannelRequest
  vardiff : DownstreamId × ChannelId → Bool

/-- The cells that the handlers of tokens and declarations leave alone. -/
structure ShareBase (api : ChannelsSv2) where
  base : Base api
  upstreamChannel : Option api.Upstream
  sequenceNumberFactory : UInt32
  templateIdToUpstreamJobId : TemplateId → Option JobId
  cachedShares : TemplateId → Option (List SharesOrderedByDiff)

namespace ChannelManager

variable {api : ChannelsSv2}

def base (s : ChannelManager api) : Base api where
  mode := s.mode
  upstreamState := s.upstreamState
  downstream := s.downstream
  downstreamIdFactory := s.downstreamIdFactory
  extranonceAllocator := s.extranonceAllocator
  lastFutureTemplate := s.lastFutureTemplate
  lastNewPrevHash := s.lastNewPrevHash
  jobTemplateId := s.jobTemplateId
  pendingDownstreamRequests := s.pendingDownstreamRequests
  vardiff := s.vardiff

def shareBase (s : ChannelManager api) : ShareBase api :=
  ⟨s.base, s.upstreamChannel, s.sequenceNumberFactory, s.templateIdToUpstreamJobId, s.cachedShares⟩

/-- `P` does not see the cells of declarations, and `Q` allows messages about them. It may see the
outputs, which a new token changes. -/
structure DeclarationFree (P : ChannelManager api → Prop) (Q : Note → Prop) : Prop where
  of_outputs : ∀ {s s'}, P s → s'.shareBase = s.shareBase →
    s'.coinbaseOutputs = s.coinbaseOutputs → P s'
  note : ∀ n, n.upstreamOpen? = none → n.aboutChannels = false → Q n

/-- `P` does not see the cells of tokens and declarations, and `Q` allows messages about them. -/
structure TokenFree (P : ChannelManager api → Prop) (Q : Note → Prop) : Prop where
  of_shareBase : ∀ {s s'}, P s → s'.shareBase = s.shareBase → P s'
  note : ∀ n, n.upstreamOpen? = none → n.aboutChannels = false → Q n

/-- `P` does not see the cells of shares either, and `Q` allows messages about them. -/
structure ShareFree (P : ChannelManager api → Prop) (Q : Note → Prop) : Prop
    extends TokenFree P Q where
  of_base : ∀ {s s'}, P s → s'.base = s.base → P s'
  shareNote : ∀ n, n.upstreamOpen? = none → Q n
  of_shareBase h hbase := of_base h (congrArg ShareBase.base hbase)
  note n hn _ := shareNote n hn

section DeclarationFree

variable {P : ChannelManager api → Prop} {Q : Note → Prop} {s : ChannelManager api}

theorem DeclarationFree.say (hb : DeclarationFree P Q) (h : P s) {s' : ChannelManager api}
    {notes : List Note} (hs : s'.shareBase = s.shareBase)
    (houtputs : s'.coinbaseOutputs = s.coinbaseOutputs)
    (hn : ∀ n ∈ notes, n.upstreamOpen? = none ∧ n.aboutChannels = false) :
    Passes P Q (Handler.say notes s') :=
  .say (hb.of_outputs h hs houtputs) fun n hmem => hb.note n (hn n hmem).1 (hn n hmem).2

theorem DeclarationFree.keep (hb : DeclarationFree P Q) (h : P s) {s' : ChannelManager api}
    (hs : s'.shareBase = s.shareBase) (houtputs : s'.coinbaseOutputs = s.coinbaseOutputs) :
    Passes P Q (.keep s') :=
  .keep (hb.of_outputs h hs houtputs)

theorem DeclarationFree.fail (hb : DeclarationFree P Q) (h : P s) {s' : ChannelManager api}
    {e : JDCError} (hs : s'.shareBase = s.shareBase)
    (houtputs : s'.coinbaseOutputs = s.coinbaseOutputs) : Passes P Q (.fail s' e) :=
  .fail (hb.of_outputs h hs houtputs) trivial

theorem DeclarationFree.allocateTokenIf (hb : DeclarationFree P Q) {R : JDCError → Prop}
    (taken : Bool) (h : P s) : Leaves P Q R (s.allocateTokenIf taken) := by
  unfold ChannelManager.allocateTokenIf
  split
  · exact .say (hb.of_outputs h rfl rfl) (by simpa using hb.note _ rfl rfl)
  · exact .keep h

theorem DeclarationFree.sendCustomJob (hb : DeclarationFree P Q) {R : JDCError → Prop}
    (hR : ∀ e : JDCError, e.IsFatal → R e) (h : P s)
    {token : Option AllocateMiningJobTokenSuccess} {m : Option SetNewPrevHash}
    {t : Option NewTemplate} {outputs : List TxOut} :
    Leaves P Q R (s.sendCustomJob token m t outputs) := by
  unfold ChannelManager.sendCustomJob
  split
  · split
    · exact .fail h (hR _ (.inr rfl))
    · dsimp only
      split
      · exact .keep (hb.of_outputs h rfl rfl)
      · exact .say (hb.of_outputs h rfl rfl) (by simpa using hb.note _ rfl rfl)
  · exact .keep h

theorem DeclarationFree.declareJob (hb : DeclarationFree P Q) (h : P s) {requestId : RequestId}
    {prevHash : Option SetNewPrevHash} {token : AllocateMiningJobTokenSuccess} {t : NewTemplate}
    {outputs : List TxOut} {txs : List Bytes} {excess : Bytes} :
    Passes P Q (s.declareJob requestId prevHash token t outputs txs excess) := by
  unfold ChannelManager.declareJob
  split
  · exact .fail h trivial
  · split
    · exact .fail h trivial
    · split
      · dsimp only
        split
        · exact hb.keep h rfl rfl
        · split
          · exact hb.fail h rfl rfl
          · split
            · exact hb.keep h rfl rfl
            · exact hb.say h rfl rfl (by simp [Note.upstreamOpen?, Note.aboutChannels])
      · exact .keep h

theorem DeclarationFree.handleRequestTxDataSuccess (hb : DeclarationFree P Q) (h : P s)
    {i : TemplateId} {txs : List Bytes} {excess : Bytes} :
    Passes P Q (s.handleRequestTxDataSuccess i txs excess) := by
  unfold ChannelManager.handleRequestTxDataSuccess
  split
  · exact .fail h trivial
  · refine Leaves.andThen (hb.say h rfl rfl (by simp [Note.upstreamOpen?, Note.aboutChannels]))
      fun _ h => ?_
    split
    · exact .keep h
    · split
      · exact .fail h trivial
      · split
        · exact .fail h trivial
        · exact hb.declareJob h

theorem DeclarationFree.handleDeclareMiningJobSuccess (hb : DeclarationFree P Q) (h : P s)
    {r : RequestId} {token : Bytes} : Passes P Q (s.handleDeclareMiningJobSuccess r token) := by
  unfold ChannelManager.handleDeclareMiningJobSuccess
  split
  · exact .fail h trivial
  · split
    · exact .fail h trivial
    · split
      · exact .fail h trivial
      · split
        · dsimp only
          split
          · exact hb.fail h rfl rfl
          · exact hb.say h rfl rfl (by simp [Note.upstreamOpen?, Note.aboutChannels])
        · exact .fail h trivial

end DeclarationFree

section TokenFree

variable {P : ChannelManager api → Prop} {Q : Note → Prop} {s : ChannelManager api}

/-- A condition that does not see the outputs either. -/
theorem TokenFree.declarationFree (hb : TokenFree P Q) : DeclarationFree P Q :=
  ⟨fun h hs _ => hb.of_shareBase h hs, hb.note⟩

theorem TokenFree.handleAllocateMiningJobTokenSuccess (hb : TokenFree P Q) (h : P s)
    {m : AllocateMiningJobTokenSuccess} : Passes P Q (s.handleAllocateMiningJobTokenSuccess m) := by
  unfold ChannelManager.handleAllocateMiningJobTokenSuccess
  dsimp only
  split
  · split
    · exact .fail (hb.of_shareBase h rfl) trivial
    · refine .say (hb.of_shareBase h rfl) ?_
      simpa using hb.note _ rfl rfl
  · exact .keep (hb.of_shareBase h rfl)

end TokenFree

section ShareFree

variable {P : ChannelManager api → Prop} {Q : Note → Prop} {s : ChannelManager api}

theorem ShareFree.sayShares (hb : ShareFree P Q) (h : P s) {s' : ChannelManager api}
    {notes : List Note} (hs : s'.base = s.base) (hn : ∀ n ∈ notes, n.upstreamOpen? = none) :
    Passes P Q (Handler.say notes s') :=
  .say (hb.of_base h hs) fun n hmem => hb.shareNote n (hn n hmem)

theorem ShareFree.keepShares (hb : ShareFree P Q) (h : P s) {s' : ChannelManager api}
    (hs : s'.base = s.base) : Passes P Q (.keep s') :=
  .keep (hb.of_base h hs)

theorem ShareFree.failShares (hb : ShareFree P Q) (h : P s) {s' : ChannelManager api} {e : JDCError}
    (hs : s'.base = s.base) : Passes P Q (.fail s' e) :=
  .fail (hb.of_base h hs) trivial

theorem ShareFree.relayShare (hb : ShareFree P Q) (h : P s) {k : ChannelKind} {m : SetNewPrevHash}
    {origin : Origin} {share : SubmitSharesExtended} {solution : api.Upstream → Bytes}
    {oversized : JDCError} : Passes P Q (s.relayShare k m origin share solution oversized) := by
  unfold ChannelManager.relayShare
  split
  · exact .keep h
  · dsimp only
    split
    · exact hb.sayShares h rfl (by simp [Note.upstreamOpen?])
    · split
      · exact hb.failShares h rfl
      · exact hb.sayShares h rfl (by simp [Note.upstreamOpen?])
    · split
      · exact hb.failShares h rfl
      · exact hb.keepShares h rfl

theorem ShareFree.handleSetCustomMiningJobSuccess (hb : ShareFree P Q) (h : P s) {r : RequestId}
    {j : JobId} : Passes P Q (s.handleSetCustomMiningJobSuccess r j) := by
  unfold ChannelManager.handleSetCustomMiningJobSuccess
  split
  · exact .fail h trivial
  · dsimp only
    split
    · exact hb.failShares h rfl
    · split
      · exact hb.failShares h rfl
      · split
        · exact hb.failShares h rfl
        · exact hb.failShares h rfl
        · split
          · refine Leaves.collect (.forEach (fun entry _ s h => ?_) (hb.of_base h rfl)) fun _ h =>
              .keep h
            exact hb.relayShare h
          · exact hb.keepShares h rfl

theorem ShareFree.handleSetCustomMiningJobError (hb : ShareFree P Q) (h : P s) {r : RequestId}
    {code : String} : Passes P Q (s.handleSetCustomMiningJobError r code) := by
  unfold ChannelManager.handleSetCustomMiningJobError
  split
  · split
    · exact .keep h
    · exact hb.keepShares h rfl
  · exact .fail h trivial

end ShareFree

end ChannelManager

end GridPoolSv2.JobDeclaratorClient
