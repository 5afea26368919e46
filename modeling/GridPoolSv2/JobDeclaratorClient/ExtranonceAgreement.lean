import GridPoolSv2.JobDeclaratorClient.RewardOutputs

/-!
# JobDeclaratorClient.ExtranonceAgreement: shares after a change of the prefix

A downstream channel's extranonce prefix is the upstream prefix with a local part. The
pool knows the upstream prefix, so a share goes to it without that many bytes. The client
takes both prefixes as they are when the share arrives, while jobs keep the prefix they
were built with and the pool keeps the one the job was declared under.

`SetExtranoncePrefix` and a new upstream channel start a new **epoch**. `Numbered` records,
as ghost data, in which epochs the client worked with a template: built a job for it,
declared it, or handled a share or an answer for it. With respect to such a ledger `W`

* `Fits W ep n`: a channel has a chain tip and a prefix of the current epoch, and so have
  its jobs, if they are of this epoch;
* `Describes W t x o`: the upstream prefix of an epoch of `t`, followed by `x`, is the
  extranonce of the downstream share `o`;
* `NoteMatches W`: the same for the messages to the pool and to the job declarator server.

When a template has one epoch only, all of its prefixes are that epoch's.

Proof shape: `Sound` for the handlers that keep the prefix is proved with the rules of `Walk`,
at the invariant `Steady`. The two handlers that start an epoch are followed by hand.
`handler_stepped` puts them together for one event, `inv_step` for the client with its ledger,
and `shares_agree` is the induction on the run.
-/

namespace GridPoolSv2.JobDeclaratorClient

open Consensus (Bytes TxOut)
open Visit Handler

/-- The time of one upstream prefix. -/
structure Epoch where
  number : Nat
  upstreamPrefix : Bytes
  deriving Repr, DecidableEq

/-- The epochs in which the client worked with a template. -/
abbrev Ledger := List (TemplateId × Epoch)

/-- `extranonce` is what the pool has to be told, under a prefix of the template's epochs. -/
def Describes (W : Ledger) (t : TemplateId) (extranonce : Bytes) (o : Origin) : Prop :=
  ∃ e, (t, e) ∈ W ∧ e.upstreamPrefix ++ extranonce = o.full

/-- A ledger that grows describes what it did before. -/
theorem Describes.mono {W W' : Ledger} {t : TemplateId} {x : Bytes} {o : Origin}
    (h : Describes W t x o) (hW : ∀ c ∈ W, c ∈ W') : Describes W' t x o := by
  obtain ⟨e, he, hx⟩ := h
  exact ⟨e, hW _ he, hx⟩

/-- What a message to the pool or to the job declarator server has to match. -/
def NoteMatches (W : Ledger) : Note → Prop
  | .setCustomMiningJob t p _ | .declareMiningJob t p _ =>
      ∃ e, (t.templateId, e) ∈ W ∧ e.upstreamPrefix = p
  | .submitSharesExtended o m => Describes W o.job.template.templateId m.extranonce o
  | .pushSolution o m => m.extranonce = o.full
  | _ => True

theorem NoteMatches.mono {W W' : Ledger} {n : Note} (h : NoteMatches W n)
    (hW : ∀ c ∈ W, c ∈ W') : NoteMatches W' n := by
  cases n with
  | setCustomMiningJob t p m =>
      obtain ⟨e, he, hp⟩ := h
      exact ⟨e, hW _ he, hp⟩
  | declareMiningJob t p m =>
      obtain ⟨e, he, hp⟩ := h
      exact ⟨e, hW _ he, hp⟩
  | submitSharesExtended o m => exact Describes.mono h hW
  | pushSolution o m => exact h
  | _ => trivial

/-- The condition on a channel. -/
structure Fits {api : ChannelsSv2} (W : Ledger) (ep : Epoch) (n : Nat) (k : ChannelKind)
    (ch : api.Channel) : Prop where
  chainTip : api.hasChainTip ch = true
  upstreamPrefix : ep.upstreamPrefix <+: api.extranoncePrefix ch
  standard : k = .standard → (api.extranoncePrefix ch).length = n
  jobs : ∀ j ∈ api.jobs ch, ∃ e, (j.template.templateId, e) ∈ W ∧
    (e = ep → j.extranoncePrefix = api.extranoncePrefix ch)

theorem Fits.mono {api : ChannelsSv2} {W W' : Ledger} {ep : Epoch} {n : Nat} {k : ChannelKind}
    {ch : api.Channel} (h : Fits W ep n k ch) (hW : ∀ c ∈ W, c ∈ W') : Fits W' ep n k ch where
  chainTip := h.chainTip
  upstreamPrefix := h.upstreamPrefix
  standard := h.standard
  jobs j hj := by
    obtain ⟨e, he, hp⟩ := h.jobs j hj
    exact ⟨e, hW _ he, hp⟩

/-- A step that keeps the shape of a channel, and adds jobs of this epoch only. -/
theorem Fits.sameShape {api : ChannelsSv2} {W : Ledger} {ep : Epoch} {n : Nat} {k : ChannelKind}
    {ch ch' : api.Channel} (h : Fits W ep n k ch) (hshape : api.SameShape ch ch')
    (hjobs : ∀ j ∈ api.jobs ch', j ∈ api.jobs ch ∨
      (j.template.templateId, ep) ∈ W ∧ j.extranoncePrefix = api.extranoncePrefix ch) :
    Fits W ep n k ch' where
  chainTip := hshape.chainTip h.chainTip
  upstreamPrefix := hshape.extranoncePrefix.symm ▸ h.upstreamPrefix
  standard hk := hshape.extranoncePrefix.symm ▸ h.standard hk
  jobs j hj := by
    rw [hshape.extranoncePrefix]
    rcases hjobs j hj with hj | ⟨hW, hp⟩
    · exact h.jobs j hj
    · exact ⟨ep, hW, fun _ => hp⟩

/-- Validation of a share does not change the sizes. -/
theorem ChannelsSv2.SameUpstream.fullSize {api : ChannelsSv2} {u u' : api.Upstream}
    (h : api.SameUpstream u u') : api.upstreamFullSize u' = api.upstreamFullSize u := by
  rw [upstreamFullSize, h.upstreamPrefix, h.rollable, upstreamFullSize]

namespace ChannelManager

variable {api : ChannelsSv2} {W : Ledger} {ep : Epoch} {s : ChannelManager api}

/-- The waiting shares describe their downstream shares, for the template they wait for and for the
template of their job. -/
def CacheMatches (W : Ledger) (s : ChannelManager api) : Prop :=
  ∀ t shares, s.cachedShares t = some shares → ∀ x ∈ shares,
    Describes W t x.share.extranonce x.origin ∧
      Describes W x.origin.job.template.templateId x.share.extranonce x.origin

/-- What holds between two events in epoch `ep`. -/
structure Aligned (W : Ledger) (ep : Epoch) (s : ChannelManager api) : Prop where
  channels : ∀ d k c ch, s.channel? d k c = some ch → Fits W ep s.extranonceAllocator.totalLen k ch
  allocator : s.extranonceAllocator.upstreamPrefix = ep.upstreamPrefix
  upstreamPrefix : s.upstreamPrefix = ep.upstreamPrefix
  upstream : ∀ u ∈ s.upstreamChannel, api.upstreamFullSize u = s.extranonceAllocator.totalLen ∧
    (s.lastNewPrevHash.isSome → api.upstreamHasChainTip u = true)
  cached : s.CacheMatches W

theorem Aligned.mono (h : Aligned W ep s) {W' : Ledger} (hW : ∀ c ∈ W, c ∈ W') :
    Aligned W' ep s where
  channels d k c ch hch := (h.channels d k c ch hch).mono hW
  allocator := h.allocator
  upstreamPrefix := h.upstreamPrefix
  upstream := h.upstream
  cached t shares hs x hx :=
    ⟨(h.cached t shares hs x hx).1.mono hW, (h.cached t shares hs x hx).2.mono hW⟩

/-- The prefix of the upstream channel, if there is one. -/
theorem upstreamPrefix_of_some {u : api.Upstream} (hu : s.upstreamChannel = some u) :
    s.upstreamPrefix = api.upstreamPrefix u := by
  simp only [ChannelManager.upstreamPrefix, hu]

/-- The upstream channel has the prefix of the epoch. -/
theorem Aligned.upstreamPrefix_eq (h : Aligned W ep s) {u : api.Upstream}
    (hu : s.upstreamChannel = some u) : api.upstreamPrefix u = ep.upstreamPrefix :=
  (upstreamPrefix_of_some hu).symm.trans h.upstreamPrefix

/-- `Aligned`, with what the loops read and do not change. `E` is what the existence of a channel
stands for. -/
structure Steady (W : Ledger) (ep : Epoch) (n : Nat) (E : Prop) (lf : Option NewTemplate)
    (s : ChannelManager api) : Prop extends Aligned W ep s where
  size : s.extranonceAllocator.totalLen = n
  channel : ∀ d k c ch, s.channel? d k c = some ch → E
  future : s.lastFutureTemplate = lf

variable {n : Nat} {E : Prop} {lf : Option NewTemplate}

/-- A change that adds no channel, and keeps the upstream channel, the allocator and the cache. -/
theorem Aligned.of_channels {s' : ChannelManager api} (h : Aligned W ep s)
    (hch : ∀ d k c ch, s'.channel? d k c = some ch → s.channel? d k c = some ch)
    (hu : s'.upstreamChannel = s.upstreamChannel)
    (hm : s'.lastNewPrevHash = s.lastNewPrevHash)
    (ha : s'.extranonceAllocator = s.extranonceAllocator)
    (hc : s'.cachedShares = s.cachedShares) : Aligned W ep s' where
  channels d k c ch h' := ha.symm ▸ h.channels d k c ch (hch d k c ch h')
  allocator := ha.symm ▸ h.allocator
  upstreamPrefix := by
    have hp : s'.upstreamPrefix = s.upstreamPrefix := by
      simp only [ChannelManager.upstreamPrefix, hu]
    exact hp.trans h.upstreamPrefix
  upstream u h' := by
    rw [ha, hm]
    exact h.upstream u (hu ▸ h')
  cached := by
    intro t shares hs
    rw [hc] at hs
    exact h.cached t shares hs

/-- Channels may go, as long as the rest is the same. -/
theorem Steady.of_channels {s' : ChannelManager api} (h : Steady W ep n E lf s)
    (hch : ∀ d k c ch, s'.channel? d k c = some ch → s.channel? d k c = some ch)
    (hu : s'.upstreamChannel = s.upstreamChannel)
    (hm : s'.lastNewPrevHash = s.lastNewPrevHash)
    (ha : s'.extranonceAllocator = s.extranonceAllocator)
    (hc : s'.cachedShares = s.cachedShares)
    (hlf : s'.lastFutureTemplate = s.lastFutureTemplate) : Steady W ep n E lf s' where
  toAligned := h.toAligned.of_channels hch hu hm ha hc
  size := ha.symm ▸ h.size
  channel d k c ch h' := h.channel d k c ch (hch d k c ch h')
  future := hlf.trans h.future

/-- Changes of other fields. -/
theorem Steady.of_eq {s' : ChannelManager api} (h : Steady W ep n E lf s)
    (hd : s'.downstream = s.downstream) (hu : s'.upstreamChannel = s.upstreamChannel)
    (hm : s'.lastNewPrevHash = s.lastNewPrevHash)
    (ha : s'.extranonceAllocator = s.extranonceAllocator)
    (hc : s'.cachedShares = s.cachedShares)
    (hlf : s'.lastFutureTemplate = s.lastFutureTemplate) : Steady W ep n E lf s' := by
  refine h.of_channels (fun d k c ch hch => ?_) hu hm ha hc hlf
  unfold channel? at hch ⊢
  rwa [hd] at hch

theorem Steady.setChannel (h : Steady W ep n E lf s) {d : DownstreamId} {k : ChannelKind}
    {c : ChannelId} {ch : api.Channel} (hch : Fits W ep n k ch ∧ E) :
    Steady W ep n E lf (s.setChannel d k c ch) where
  channels d' k' c' ch' h' := by
    rcases channel?_setChannel h' with h' | ⟨rfl, rfl⟩
    · exact h.channels d' k' c' ch' h'
    · exact (h.size.symm ▸ hch.1 : Fits W ep s.extranonceAllocator.totalLen k' ch')
  allocator := h.allocator
  upstreamPrefix := h.upstreamPrefix
  upstream := h.upstream
  cached := h.cached
  size := h.size
  channel d' k' c' ch' h' := by
    rcases channel?_setChannel h' with h' | ⟨-, -⟩
    · exact h.channel d' k' c' ch' h'
    · exact hch.2
  future := h.future

/-- The invariant is one that the rules of `Walk` can carry. -/
theorem carries_steady :
    Carries (fun s : ChannelManager api => Steady W ep n E lf s) (fun k ch => Fits W ep n k ch ∧ E)
      (NoteMatches W) (fun e => ¬ e.IsTranslationPanic) where
  channel h hch := ⟨h.size ▸ h.channels _ _ _ _ hch, h.channel _ _ _ _ hch⟩
  setChannel h hch := h.setChannel hch
  setGroup h :=
    h.of_channels (fun _ _ _ _ => channel?_modifyDownstream fun _ => rfl) rfl rfl rfl rfl rfl
  nextChannelId h :=
    h.of_channels (fun _ _ _ _ => channel?_modifyDownstream fun _ => rfl) rfl rfl rfl rfl rfl
  mapJob h := h.of_eq rfl rfl rfl rfl rfl rfl
  mapJobs h := h.of_eq rfl rfl rfl rfl rfl rfl
  vardiff h := h.of_eq rfl rfl rfl rfl rfl rfl
  note _ _ := trivial
  error _ h := h

/-! ### The templates an event works with

`Entered` says that the ledger has the current epoch for each of them. It is the only thing the
handlers need to know of the ledger. -/

/-- The templates of a share that its channel accepts: that of the job, and the one that the id of
the job stands for. -/
def shareTemplates (s : ChannelManager api) (d : DownstreamId) (k : ChannelKind) (c : ChannelId)
    (j : JobId)
    (validate : api.Channel → api.Channel × Except ShareValidationError ShareValidationResult) :
    List TemplateId :=
  match s.channel? d k c with
  | none => []
  | some ch =>
      match (validate ch).2 with
      | .error _ => []
      | .ok res => res.job.template.templateId :: (s.jobTemplateId (d, c, j)).toList

/-- The templates an event makes the client build a coinbase for, declare, or pass a share on
for. -/
def usedTemplates (s : ChannelManager api) : Event → List TemplateId
  | .setNewPrevHash m =>
      (s.builtTemplates (.setNewPrevHash m)).map (·.templateId) ++
        if s.mode = .fullTemplate then (s.futureDeclaredJob.map (·.template.templateId)).toList
        else []
  | .declareMiningJobSuccess r _ | .setCustomMiningJobSuccess r _ =>
      ((s.declaredJob? r).map (·.template.templateId)).toList
  | .submitSharesStandard d m =>
      s.shareTemplates d .standard m.channelId m.jobId fun ch => api.validateStandard ch m
  | .submitSharesExtended d m =>
      s.shareTemplates d .extended m.channelId m.jobId fun ch => api.validateExtended ch m
  | e => (s.builtTemplates e).map (·.templateId)

/-- What a handler needs of the ledger: the templates it works with are in it, for epoch `ep` and no
other. -/
def Entered (W : Ledger) (ep : Epoch) (s : ChannelManager api) (e : Event) : Prop :=
  ∀ t ∈ s.usedTemplates e, (t, ep) ∈ W ∧ ∀ e, (t, e) ∈ W → e = ep

/-! ### Jobs

The rules of `Walk` at the invariant of this module: a job built now belongs to the current
epoch. -/

theorem takesTemplate_fits (hlaw : api.Lawful) {t : NewTemplate} {outputs : List TxOut}
    (h : E → (t.templateId, ep) ∈ W) :
    TakesTemplate (fun k (ch : api.Channel) => Fits W ep n k ch ∧ E) t outputs where
  onNewTemplate := by
    rintro k ch ch' ⟨hfits, hE⟩ hok
    obtain ⟨hshape, hjobs⟩ := hlaw.onNewTemplate hok
    refine ⟨hfits.sameShape hshape fun j hj => ?_, hE⟩
    rcases hjobs j hj with hj | ⟨ht, -, hp⟩
    · exact .inl hj
    · exact .inr ⟨ht ▸ h hE, hp⟩
  onGroupChannelJob := by
    rintro k ch ch' g ⟨hfits, hE⟩ ht - hok
    obtain ⟨hshape, hjobs⟩ := hlaw.onGroupChannelJob hok
    refine ⟨hfits.sameShape hshape fun j hj => ?_, hE⟩
    rcases hjobs j hj with hj | rfl
    · exact .inl hj
    · exact .inr ⟨ht ▸ h hE, rfl⟩

theorem opensChannel_fits (hlaw : api.Lawful) (hlf : ∀ t ∈ lf, (t.templateId, ep) ∈ W) :
    OpensChannel (fun s : ChannelManager api => Steady W ep n True lf s)
      (fun k ch => Fits W ep n k ch ∧ True) := by
  have hopen : ∀ {s : ChannelManager api} {k : ChannelKind} {p : Bytes} {ch ch' ch'' : api.Channel}
      {t : NewTemplate} {m : SetNewPrevHash} {outputs : List TxOut}, Steady W ep n True lf s →
      s.lastFutureTemplate = some t → s.extranonceAllocator.upstreamPrefix <+: p →
      (k = .standard → p.length = s.extranonceAllocator.totalLen) →
      api.jobs ch = [] ∧ api.extranoncePrefix ch = p →
      api.channel.onNewTemplate ch t outputs = .ok ch' →
      api.channel.onSetNewPrevHash ch' m = .ok ch'' → Fits W ep n k ch'' := by
    rintro s k _ ch ch' ch'' t m outputs h ht hpre hlen ⟨hnew, rfl⟩ hok hok'
    obtain ⟨hshape, hjobs⟩ := hlaw.onNewTemplate hok
    obtain ⟨hshape', htip, hjobs'⟩ := hlaw.onSetNewPrevHash hok'
    have hp : api.extranoncePrefix ch'' = api.extranoncePrefix ch :=
      hshape'.extranoncePrefix.trans hshape.extranoncePrefix
    refine ⟨htip, ?_, fun hk => ?_, fun j hj => ?_⟩
    · rw [hp, ← h.allocator]
      exact hpre
    · rw [hp, hlen hk, h.size]
    · rcases hjobs j (hjobs' j hj) with hj | ⟨htemplate, -, hjp⟩
      · rw [hnew] at hj
        cases hj
      · exact ⟨ep, htemplate ▸ hlf t (h.future ▸ ht), fun _ => hp ▸ hjp⟩
  constructor
  · intro s slot p c msg ch t m o outputs ch' ch'' h ht hm hp hch hdec houtputs hok hok'
    obtain ⟨hpre, hlen⟩ := hlaw.allocateStandard hp
    exact ⟨hopen h ht hpre (fun _ => hlen) (hlaw.newStandard hch) hok hok', trivial⟩
  · intro s slot p c msg rollable ch t m o outputs ch' ch'' h ht hm hp hch hdec houtputs hok hok'
    exact ⟨hopen h ht (hlaw.allocateExtended hp).1 nofun (hlaw.newExtended hch) hok hok', trivial⟩

/-- The custom job names a template of the current epoch. -/
theorem sendCustomJob_steady (h : Steady W ep n E lf s)
    {token : Option AllocateMiningJobTokenSuccess} {m : Option SetNewPrevHash}
    {t : Option NewTemplate} {outputs : List TxOut}
    (hr : token.isSome → s.upstreamChannel.isSome → ∀ t' ∈ t, (t'.templateId, ep) ∈ W) :
    Leaves (Steady W ep n E lf) (NoteMatches W) (fun e => ¬ e.IsTranslationPanic)
      (s.sendCustomJob token m t outputs) := by
  unfold sendCustomJob
  split
  · rename_i token u m t hu
    split
    · exact .fail h (of_decide_eq_false rfl)
    · rename_i f hf
      have h' : Steady W ep n E lf { (s.customJob f u token m t outputs).1 with
          jobFactory := some (s.customJob f u token m t outputs).2.1 } :=
        h.of_eq rfl rfl rfl rfl rfl rfl
      dsimp only
      split
      · exact .keep h'
      · refine .say h' fun note hn => ?_
        obtain rfl := List.mem_singleton.mp hn
        exact ⟨ep, hr rfl (by simp [hu]) t rfl, (h.upstreamPrefix_eq hu).symm⟩
  · exact .keep h

theorem allocateTokenIf_steady (h : Steady W ep n E lf s) {taken : Bool} :
    Leaves (Steady W ep n E lf) (NoteMatches W) (fun e => ¬ e.IsTranslationPanic)
      (s.allocateTokenIf taken) := by
  unfold allocateTokenIf
  split
  · exact .say (by exact h.of_eq rfl rfl rfl rfl rfl rfl) (by simp [NoteMatches])
  · exact .keep h

/-! ### The handlers

`Sound` is what each of them keeps, as long as the prefix stays: the invariant afterwards, agreement
of all that is sent, and no translation panic. -/

/-- What a handler shows for itself, in epoch `ep`. -/
abbrev Sound (W : Ledger) (ep : Epoch) (o : Handled api) : Prop :=
  Leaves (Aligned W ep) (NoteMatches W) (fun e => ¬ e.IsTranslationPanic) o

theorem Sound.of_steady (n : Nat) (E : Prop) (lf : Option NewTemplate) {o : Handled api}
    (h : Leaves (Steady W ep n E lf) (NoteMatches W) (fun e => ¬ e.IsTranslationPanic) o) :
    Sound W ep o :=
  h.mono (fun _ h => h.toAligned) (fun _ h => h) (fun _ h => h)

theorem Aligned.steady (h : Aligned W ep s) :
    Steady W ep s.extranonceAllocator.totalLen True s.lastFutureTemplate s :=
  ⟨h, rfl, fun _ _ _ _ _ => trivial, rfl⟩

theorem handleNewTemplate_sound (hlaw : api.Lawful) (h : Aligned W ep s) {t : NewTemplate}
    (hW : s.Entered W ep (.newTemplate t)) : Sound W ep (s.handleNewTemplate t) := by
  unfold handleNewTemplate
  dsimp only
  split
  · exact .fail (by exact h.of_channels (fun _ _ _ _ h => h) rfl rfl rfl rfl)
      (rewardOutputs_eq_error ‹_›)
  · rename_i outputs houtputs
    have hbuilt : (s.anyChannel || (s.wantsTemplateToken t && !s.allocateTokens.isEmpty)) = true →
        (t.templateId, ep) ∈ W :=
      fun hb => (hW t.templateId (by simp [usedTemplates, builtTemplates, hb])).1
    have hstart : Steady W ep s.extranonceAllocator.totalLen (s.anyChannel = true)
        (if t.futureTemplate then some t else s.lastFutureTemplate)
        ({ s with
          templateStore := Function.update s.templateStore t.templateId (some t)
          lastFutureTemplate := if t.futureTemplate then some t else s.lastFutureTemplate
          }.takeToken (s.wantsTemplateToken t)).2 :=
      ⟨h.of_channels (fun _ _ _ _ h => h) rfl rfl rfl rfl, rfl,
        fun _ _ _ _ hch => anyChannel_of_channel? hch, rfl⟩
    refine .of_steady _ _ _ ((Leaves.say (by exact hstart) ?_).andThen fun _ h' => ?_)
    · split <;> simp [NoteMatches]
    · refine (Leaves.forEach (fun d _ s' hs' => ?_) h').collect fun _ h' =>
        allocateTokenIf_steady h'
      refine carries_steady.newTemplateDownstream hlaw
        (takesTemplate_fits hlaw fun hE => hbuilt (by simp [hE])) (fun s'' hs'' => ?_) hs'
      refine sendCustomJob_steady hs'' fun htoken _ t' ht' => ?_
      obtain rfl := Option.mem_some_iff.mp ht'
      obtain ⟨hwanted, hsome⟩ := takeToken_isSome htoken
      exact hbuilt (by simp [show s.wantsTemplateToken t = true from hwanted,
        show s.allocateTokens.isEmpty = false from hsome])

theorem handleRequestTxDataSuccess_sound (h : Aligned W ep s) {i : TemplateId} {txs : List Bytes}
    {excess : Bytes} (hW : s.Entered W ep (.requestTxDataSuccess i txs excess)) :
    Sound W ep (s.handleRequestTxDataSuccess i txs excess) := by
  unfold handleRequestTxDataSuccess
  split
  · exact .fail h (of_decide_eq_false rfl)
  · dsimp only
    refine .of_steady s.extranonceAllocator.totalLen True s.lastFutureTemplate
      (Leaves.andThen (.say (by exact h.steady.of_eq rfl rfl rfl rfl rfl rfl)
        (by simp [NoteMatches])) fun _ h' => ?_)
    split
    · exact .keep h'
    · rename_i token htoken
      split
      · exact .fail h' (of_decide_eq_false rfl)
      · rename_i t ht
        split
        · exact .fail h' (of_decide_eq_false rfl)
        · unfold declareJob
          split
          · exact .fail h' (of_decide_eq_false rfl)
          · split
            · exact .fail h' (of_decide_eq_false rfl)
            · split
              · rename_i u f hu hf
                dsimp only
                split
                · exact .keep (by exact h'.of_eq rfl rfl rfl rfl rfl rfl)
                · split
                  · exact .fail (by exact h'.of_eq rfl rfl rfl rfl rfl rfl)
                      (of_decide_eq_false rfl)
                  · split
                    · exact .keep (by exact h'.of_eq rfl rfl rfl rfl rfl rfl)
                    · refine .say (by exact h'.of_eq rfl rfl rfl rfl rfl rfl) fun note hn => ?_
                      obtain rfl := List.mem_singleton.mp hn
                      have hu' : s.upstreamChannel = some u := hu
                      have hne : s.allocateTokens.isEmpty = false := by
                        cases htokens : s.allocateTokens with
                        | nil => simp [htokens] at htoken
                        | cons => rfl
                      exact ⟨ep, (hW t.templateId
                        (by simp [usedTemplates, builtTemplates, hne, hu', ht])).1,
                        (h.upstreamPrefix_eq hu').symm⟩
              · exact .keep h'

/-- What is declared under the previous hash has the current prefix. -/
theorem declareFuture_matches (h : Aligned W ep s) {m : SetNewPrevHash}
    (hW : s.Entered W ep (.setNewPrevHash m)) : ∀ note ∈ s.declareFuture, NoteMatches W note := by
  intro note hn
  unfold declareFuture at hn
  split at hn
  · rename_i hmode
    split at hn
    · rename_i message t prevHash custom output txs hjob
      obtain rfl := List.mem_singleton.mp hn
      exact ⟨ep, (hW t.templateId (by simp [usedTemplates, hmode, hjob])).1, h.upstreamPrefix.symm⟩
    · simp at hn
  · simp at hn

/-- A previous hash gives the upstream channel its chain tip and empties the cache. -/
theorem applyPrevHash_steady (hlaw : api.Lawful) (h : Aligned W ep s) (m : SetNewPrevHash) :
    Steady W ep s.extranonceAllocator.totalLen True s.lastFutureTemplate (s.applyPrevHash m) := by
  have hpre : (s.applyPrevHash m).upstreamPrefix = s.upstreamPrefix := by
    simp only [ChannelManager.upstreamPrefix, applyPrevHash]
    cases s.upstreamChannel with
    | none => rfl
    | some u => exact hlaw.onChainTipUpdate.1.upstreamPrefix
  refine ⟨⟨h.channels, h.allocator, hpre.trans h.upstreamPrefix, fun u hu => ?_,
    fun _ _ hcached => by cases hcached⟩, rfl,
    fun _ _ _ _ _ => trivial, rfl⟩
  obtain ⟨u', hu', rfl⟩ := Option.map_eq_some_iff.mp hu
  obtain ⟨hsame, htip⟩ : api.SameUpstream u' (api.onChainTipUpdate u' m.chainTip) ∧ _ :=
    hlaw.onChainTipUpdate
  exact ⟨hsame.fullSize.trans (h.upstream u' hu').1, fun _ => htip⟩

theorem handleSetNewPrevHash_sound (hlaw : api.Lawful) (h : Aligned W ep s) {m : SetNewPrevHash}
    (hW : s.Entered W ep (.setNewPrevHash m)) : Sound W ep (s.handleSetNewPrevHash m) := by
  unfold handleSetNewPrevHash
  split
  · exact .fail h (of_decide_eq_false rfl)
  · dsimp only
    have hstart : Steady W ep s.extranonceAllocator.totalLen True s.lastFutureTemplate
        ((s.applyPrevHash m).takeToken (s.mode = .coinbaseOnly && s.lastFutureTemplate.isSome)).2 :=
      (applyPrevHash_steady hlaw h m).of_eq rfl rfl rfl rfl rfl rfl
    refine .of_steady _ _ _ ((Leaves.say (by exact hstart) (declareFuture_matches h hW)).andThen
      fun _ h' => ?_)
    refine (Leaves.andThen (sendCustomJob_steady h' fun htoken hu t ht => ?_) fun _ h' =>
      .forEach (fun d _ s' hs' => ?_) h').collect fun _ h' => allocateTokenIf_steady h'
    · obtain ⟨hwanted, hsome⟩ := takeToken_isSome htoken
      have hsome' : s.allocateTokens.isEmpty = false := hsome
      have hu' : s.upstreamChannel.isSome = true := by
        simpa [takeToken, applyPrevHash] using hu
      have ht' : s.lastFutureTemplate = some t := ht
      simp only [Bool.and_eq_true, decide_eq_true_eq] at hwanted
      exact (hW t.templateId
        (by simp [usedTemplates, builtTemplates, hwanted.1, hsome', hu', ht'])).1
    · refine carries_steady.prevHashDownstream (fun hφ hok => ?_) hs'
      obtain ⟨hshape, -, hjobs⟩ := hlaw.onSetNewPrevHash hok
      exact ⟨hφ.1.sameShape hshape fun j hj => .inl (hjobs j hj), hφ.2⟩

theorem handleDeclareMiningJobSuccess_sound (h : Aligned W ep s) {r : RequestId} {token : Bytes}
    (hW : s.Entered W ep (.declareMiningJobSuccess r token)) :
    Sound W ep (s.handleDeclareMiningJobSuccess r token) := by
  unfold handleDeclareMiningJobSuccess
  split
  · exact .fail h (of_decide_eq_false rfl)
  · rename_i job hjob
    split
    · exact .fail h (of_decide_eq_false rfl)
    · split
      · exact .fail h (of_decide_eq_false rfl)
      · split
        · rename_i u f hu hf
          dsimp only
          split
          · exact .fail (by exact h.of_channels (fun _ _ _ _ h => h) rfl rfl rfl rfl)
              (of_decide_eq_false rfl)
          · refine .say (by exact h.of_channels (fun _ _ _ _ h => h) rfl rfl rfl rfl)
              fun note hn => ?_
            obtain rfl := List.mem_singleton.mp hn
            exact ⟨ep, (hW job.template.templateId (by simp [usedTemplates, hjob])).1,
              (h.upstreamPrefix_eq hu).symm⟩
        · exact .fail h (of_decide_eq_false rfl)

/-! ### Shares

The share was checked against a job of the channel, and the channel fits. So the upstream prefix can
be cut off the channel's own. -/

theorem Aligned.setUpstream (h : Aligned W ep s) {u u' : api.Upstream}
    (hu : s.upstreamChannel = some u) (hsame : api.SameUpstream u u') :
    Aligned W ep { s with upstreamChannel := some u' } where
  channels := h.channels
  allocator := h.allocator
  upstreamPrefix := hsame.upstreamPrefix.trans (h.upstreamPrefix_eq hu)
  upstream v hv := by
    obtain rfl := Option.some.inj hv
    obtain ⟨hsize, htip⟩ := h.upstream u hu
    exact ⟨hsame.fullSize.trans hsize, fun hm => hsame.chainTip (htip hm)⟩
  cached := h.cached

/-- A share that is passed on agrees with the one that was checked. -/
theorem relayShare_sound (hlaw : api.Lawful) {k : ChannelKind} {m : SetNewPrevHash} {o : Origin}
    {share : SubmitSharesExtended} {solution : api.Upstream → Bytes} {oversized : JDCError}
    (h : Aligned W ep s ∧ s.lastNewPrevHash = some m)
    (hshare : Describes W o.job.template.templateId share.extranonce o)
    (hsolution : ∀ u, api.upstreamPrefix u = ep.upstreamPrefix → solution u = o.full)
    (hlen : k = .standard → ∀ u ∈ s.upstreamChannel,
      share.extranonce.length = api.upstreamRollable u)
    (hoversized : ¬ oversized.IsTranslationPanic) :
    Leaves (fun s' => Aligned W ep s' ∧ s'.lastNewPrevHash = some m) (NoteMatches W)
      (fun e => ¬ e.IsTranslationPanic) (s.relayShare k m o share solution oversized) := by
  obtain ⟨h, hm⟩ := h
  unfold relayShare
  split
  · exact .keep ⟨h, hm⟩
  · rename_i u hu
    have hsame : api.SameUpstream u (api.validateUpstream u share).1 := hlaw.validateUpstream
    have h' := h.setUpstream hu hsame
    have hcount : ∀ i, Aligned W ep { s with
        upstreamChannel := some (api.validateUpstream u share).1, sequenceNumberFactory := i } :=
      fun i => h'.of_channels (fun _ _ _ _ hch => hch) rfl rfl rfl rfl
    dsimp only
    split
    · refine .say ⟨hcount _, hm⟩ fun note hn => ?_
      obtain rfl := List.mem_singleton.mp hn
      exact hshare
    · split
      · exact .fail ⟨hcount _, hm⟩ hoversized
      · refine .say ⟨hcount _, hm⟩ fun note hn => ?_
        rcases List.mem_cons.mp hn with rfl | hn
        · exact hsolution _ (hsame.upstreamPrefix.trans (h.upstreamPrefix_eq hu))
        · obtain rfl := List.mem_singleton.mp hn
          exact hshare
    · rename_i e he
      split
      · rename_i hcode
        -- neither of the two errors without an arm comes up
        exfalso
        obtain ⟨hsize, hother⟩ := hlaw.validateUpstream_error he
        have htip : api.upstreamHasChainTip u = true := (h.upstream u hu).2 (by rw [hm]; rfl)
        cases e with
        | badExtranonceSize code =>
            cases k with
            | standard => exact hsize code rfl (hlen rfl u hu)
            | extended => cases hcode
        | other => simp [hother rfl] at htip
        | _ => cases hcode
      · exact .keep ⟨h', hm⟩

/-- A cached share agrees as well, with the template of its downstream job and with that of its
custom job. -/
theorem cacheShare_aligned (h : Aligned W ep s) {t : TemplateId} {x : SharesOrderedByDiff}
    (ht : Describes W t x.share.extranonce x.origin)
    (hjob : Describes W x.origin.job.template.templateId x.share.extranonce x.origin) :
    Aligned W ep (s.cacheShare t x) where
  channels := h.channels
  allocator := h.allocator
  upstreamPrefix := h.upstreamPrefix
  upstream := h.upstream
  cached t' shares hs y hy := by
    by_cases heq : t' = t
    · subst heq
      simp only [cacheShare, Function.update_self, Option.some.injEq] at hs
      subst hs
      rcases mem_addShareToCache hy with hy | rfl
      · cases hold : s.cachedShares t' with
        | none => simp [hold] at hy
        | some old =>
            simp only [hold, Option.getD_some] at hy
            exact h.cached t' old hold y hy
      · exact ⟨ht, hjob⟩
    · simp only [cacheShare, Function.update_of_ne heq] at hs
      exact h.cached t' shares hs y hy

theorem translateShare_sound (hlaw : api.Lawful) {k : ChannelKind} {d : DownstreamId}
    {m : SetNewPrevHash} {ch : api.Channel} {msg : SubmitSharesExtended}
    {res : ShareValidationResult} (h : Aligned W ep s) (hm : s.lastNewPrevHash = some m)
    (hpre : ep.upstreamPrefix <+: api.extranoncePrefix ch)
    (hstandard : k = .standard → msg.extranonce = [] ∧
      (api.extranoncePrefix ch).length = s.extranonceAllocator.totalLen)
    (hjob : res.job.extranoncePrefix = api.extranoncePrefix ch)
    (ht : (res.job.template.templateId, ep) ∈ W)
    (hmapped : ∀ t ∈ s.jobTemplateId (d, msg.channelId, msg.jobId), (t, ep) ∈ W) :
    Sound W ep (s.translateShare k d m ch msg res) := by
  unfold translateShare
  split
  · exact .keep h
  · rename_i u hu
    have hp := h.upstreamPrefix_eq hu
    -- the channel's prefix is the upstream prefix and the rest that is sent
    have hsplit : ep.upstreamPrefix ++
        (api.extranoncePrefix ch).drop ep.upstreamPrefix.length = api.extranoncePrefix ch :=
      List.prefix_iff_eq_append.mp hpre
    have hfull : ep.upstreamPrefix ++
        ((api.extranoncePrefix ch).drop ep.upstreamPrefix.length ++ msg.extranonce) =
          Origin.full ⟨res.job, msg.extranonce⟩ := by
      rw [← List.append_assoc, hsplit, Origin.full, hjob]
    simp only [hp]
    split
    · rename_i hshort
      exact absurd hpre.length_le (by omega)
    · split
      · refine .fail h ?_
        cases k <;> rintro (h | h) <;> cases h
      · split
        · rename_i jobId hupstream
          refine (relayShare_sound hlaw ⟨h, hm⟩ ⟨ep, ht, hfull⟩ (fun u' hu' => ?_)
            (fun hk u' hu' => ?_) (of_decide_eq_false rfl)).mono (fun _ h => h.1)
              (fun _ h => h) (fun _ h => h)
          · cases k with
            | standard =>
                simp only [solutionExtranonce, Origin.full, hjob, (hstandard rfl).1,
                  List.append_nil]
            | extended => simp only [solutionExtranonce, hu', hfull]
          · obtain rfl := Option.some.inj (hu.symm.trans hu')
            obtain ⟨hempty, hlength⟩ := hstandard hk
            have hsize := (h.upstream u hu).1
            simp only [ChannelsSv2.upstreamFullSize, hp] at hsize
            simp only [hempty, List.append_nil, List.length_drop, hlength]
            omega
        · split
          · exact .keep h
          · rename_i t hmap
            have hd : (t, ep) ∈ W := hmapped t hmap
            exact .keep (cacheShare_aligned h ⟨ep, hd, hfull⟩ ⟨ep, ht, hfull⟩)

/-- A channel of the right epoch may be replaced. -/
theorem Aligned.setChannel (h : Aligned W ep s) {d : DownstreamId} {k : ChannelKind} {c : ChannelId}
    {ch : api.Channel} (hch : Fits W ep s.extranonceAllocator.totalLen k ch) :
    Aligned W ep (s.setChannel d k c ch) :=
  (h.steady.setChannel ⟨hch, trivial⟩).toAligned

/-- Both handlers of shares, for any validation that keeps the channel's shape. -/
theorem submitShares_sound (hlaw : api.Lawful) (h : Aligned W ep s) {k : ChannelKind}
    {d : DownstreamId} {msg : SubmitSharesExtended}
    {validate : api.Channel → api.Channel × Except ShareValidationError ShareValidationResult}
    (hshape : ∀ ch, api.SameShape ch (validate ch).1 ∧
      ∀ j ∈ api.jobs (validate ch).1, j ∈ api.jobs ch)
    (hok : ∀ ch res, (validate ch).2 = .ok res → res.job ∈ api.jobs ch)
    (herror : ∀ ch e, (validate ch).2 = .error e → api.hasChainTip ch = true → e.code k ≠ none)
    (hempty : k = .standard → msg.extranonce = [])
    (hW : ∀ t ∈ s.shareTemplates d k msg.channelId msg.jobId validate,
      (t, ep) ∈ W ∧ ∀ e, (t, e) ∈ W → e = ep) :
    Sound W ep (s.submitShares k d msg validate) := by
  unfold submitShares
  split
  · exact .fail h (of_decide_eq_false rfl)
  · rename_i m hm
    split
    · exact .fail h (of_decide_eq_false rfl)
    · split
      · exact .say h (by simp [NoteMatches])
      · rename_i ch hch
        have hfits := h.channels d k msg.channelId ch hch
        obtain ⟨hsame, hjobs⟩ := hshape ch
        have h' : Aligned W ep (s.setChannel d k msg.channelId (validate ch).1) :=
          h.setChannel (hfits.sameShape hsame fun j hj => .inl (hjobs j hj))
        dsimp only
        refine checkVardiff_leaves ?_ (fun _ _ => trivial) fun p action hp => hp
        split
        · rename_i e he
          split
          · exact absurd ‹_› (herror ch e he hfits.chainTip)
          · exact .say h' (by simp [NoteMatches])
        · rename_i res hres
          have hused : s.shareTemplates d k msg.channelId msg.jobId validate =
              res.job.template.templateId ::
                (s.jobTemplateId (d, msg.channelId, msg.jobId)).toList := by
            simp only [shareTemplates, hch, hres]
          rw [hused] at hW
          obtain ⟨ht, hone⟩ := hW _ List.mem_cons_self
          have hpre : api.extranoncePrefix (validate ch).1 = api.extranoncePrefix ch :=
            hsame.extranoncePrefix
          have hjob : res.job.extranoncePrefix = api.extranoncePrefix (validate ch).1 := by
            obtain ⟨e, he, hp⟩ := hfits.jobs res.job (hok ch res hres)
            rw [hpre, hp (hone e he)]
          refine (acknowledgeShare_leaves h' (fun _ _ => trivial) (fun _ _ _ _ _ => trivial)
            (of_decide_eq_false rfl)).andThen fun _ _ => ?_
          rw [acknowledgeShare_value]
          refine translateShare_sound hlaw h' hm (hpre ▸ hfits.upstreamPrefix)
            (fun hk => ⟨hempty hk, hpre ▸ hfits.standard hk⟩) hjob ht fun t hmap => ?_
          exact (hW t (List.mem_cons_of_mem _ (Option.mem_toList.mpr hmap))).1

/-- The errors a channel can report all have a code, except two. -/
theorem code_ne_none {k : ChannelKind} {e : ShareValidationError} (hother : e ≠ .other)
    (hsize : k = .standard → ∀ code, e ≠ .badExtranonceSize code) : e.code k ≠ none := by
  cases e with
  | badExtranonceSize code =>
      cases k with
      | standard => exact absurd rfl (hsize rfl code)
      | extended => simp [ShareValidationError.code]
  | other => exact absurd rfl hother
  | _ => simp [ShareValidationError.code]

theorem handleSubmitSharesStandard_sound (hlaw : api.Lawful) (h : Aligned W ep s) {d : DownstreamId}
    {m : SubmitSharesStandard} (hW : s.Entered W ep (.submitSharesStandard d m)) :
    Sound W ep (s.handleSubmitSharesStandard d m) := by
  refine submitShares_sound hlaw h (fun ch => hlaw.validateStandard)
    (fun ch res hok => (hlaw.validateStandard_ok hok).1) (fun ch e he htip => ?_) (fun _ => rfl) hW
  obtain ⟨hsize, hother⟩ := hlaw.validateStandard_error he
  refine code_ne_none ?_ fun _ => hsize
  rintro rfl
  simp [hother rfl] at htip

theorem handleSubmitSharesExtended_sound (hlaw : api.Lawful) (h : Aligned W ep s) {d : DownstreamId}
    {m : SubmitSharesExtended} (hW : s.Entered W ep (.submitSharesExtended d m)) :
    Sound W ep (s.handleSubmitSharesExtended d m) := by
  refine submitShares_sound hlaw h (fun ch => hlaw.validateExtended)
    (fun ch res hok => (hlaw.validateExtended_ok hok).1) (fun ch e he htip => ?_) nofun hW
  refine code_ne_none ?_ nofun
  rintro rfl
  simp [hlaw.validateExtended_error he rfl] at htip

/-- Dropping the waiting shares of a template. -/
theorem CacheMatches.update_none (h : s.CacheMatches W) (t : TemplateId) :
    ({ s with cachedShares := Function.update s.cachedShares t none } :
      ChannelManager api).CacheMatches W := by
  intro t' shares hs
  by_cases heq : t' = t
  · subst heq
    simp at hs
  · simp only [Function.update_of_ne heq] at hs
    exact h t' shares hs

theorem handleSetCustomMiningJobSuccess_sound (hlaw : api.Lawful) (h : Aligned W ep s)
    {r : RequestId} {j : JobId} (hW : s.Entered W ep (.setCustomMiningJobSuccess r j)) :
    Sound W ep (s.handleSetCustomMiningJobSuccess r j) := by
  unfold handleSetCustomMiningJobSuccess
  split
  · exact .fail h (of_decide_eq_false rfl)
  · rename_i job hjob
    have hone : ∀ e, (job.template.templateId, e) ∈ W → e = ep :=
      (hW job.template.templateId (by simp [usedTemplates, hjob])).2
    have hflushed : Aligned W ep ({ s.removeDeclaredJob r with
        templateIdToUpstreamJobId :=
          Function.update s.templateIdToUpstreamJobId job.template.templateId (some j)
        cachedShares := Function.update s.cachedShares job.template.templateId none }) :=
      ⟨h.channels, h.allocator, h.upstreamPrefix, h.upstream, h.cached.update_none _⟩
    dsimp only
    split
    · exact .fail hflushed (of_decide_eq_false rfl)
    · rename_i u hu
      split
      · exact .fail hflushed (of_decide_eq_false rfl)
      · rename_i message hmessage
        have h' := hflushed.setUpstream hu
          (hlaw.onSetCustomMiningJobSuccess (u := u) (m := message) (i := j))
        split
        · exact .fail h' (of_decide_eq_false rfl)
        · exact .fail h' (of_decide_eq_false rfl)
        · split
          · rename_i prevHash shares hm hcached
            refine Leaves.collect (Leaves.mono (P := fun s' => Aligned W ep s' ∧
              s'.lastNewPrevHash = some prevHash) (.forEach (fun x hx s' hs' => ?_) ⟨h', hm⟩)
              (fun _ h => h.1) (fun _ h => h) (fun _ h => h)) fun _ h => .keep h
            obtain ⟨⟨e, he, hfull⟩, hx'⟩ := h.cached _ shares hcached x hx
            obtain rfl := hone e he
            exact relayShare_sound hlaw hs' hx' (fun u' hu' => by rw [hu', hfull]) nofun
              (of_decide_eq_false rfl)
          · exact .keep h'

theorem handleSetCustomMiningJobError_sound (h : Aligned W ep s) {r : RequestId} {code : String} :
    Sound W ep (s.handleSetCustomMiningJobError r code) := by
  unfold handleSetCustomMiningJobError
  split
  · split
    · exact .keep h
    · exact .keep ⟨h.channels, h.allocator, h.upstreamPrefix, h.upstream, h.cached.update_none _⟩
  · exact .fail h (of_decide_eq_false rfl)

/-! ### Downstreams and their channels -/

theorem connect_sound (h : Aligned W ep s) {r : Bool} : Sound W ep (s.connect r) := by
  obtain ⟨i, ds, hvalue, hnotes, herror⟩ := s.connect_spec r
  have hch : ∀ d k c ch, (s.connect r).value.channel? d k c = some ch →
    s.channel? d k c = some ch :=
    fun _ _ _ _ => channel?_connect
  rw [hvalue] at hch
  refine ⟨hvalue ▸ h.of_channels hch rfl rfl rfl rfl, ?_, fun e he => ?_⟩
  · simp [hnotes]
  · rw [herror e he]
    exact of_decide_eq_false rfl

theorem handleCloseChannel_sound (h : Aligned W ep s) {d : DownstreamId} {c : ChannelId} :
    Sound W ep (s.handleCloseChannel d c) := by
  obtain ⟨ds, vardiff, hvalue, hnotes, herror⟩ := s.handleCloseChannel_spec d c
  have hch : ∀ d' k c' ch, (s.handleCloseChannel d c).value.channel? d' k c' = some ch →
      s.channel? d' k c' = some ch := fun _ _ _ _ => channel?_handleCloseChannel
  rw [hvalue] at hch
  refine ⟨hvalue ▸ h.of_channels hch rfl rfl rfl rfl, ?_, fun e he => ?_⟩
  · simp [hnotes]
  · rw [herror e he]
    exact of_decide_eq_false rfl

theorem handleDownstreamOpen_sound (hlaw : api.Lawful) (h : Aligned W ep s)
    {r : PendingChannelRequest} {slot : Nat} (hW : s.Entered W ep (.openMiningChannel r slot)) :
    Sound W ep (s.handleDownstreamOpen r slot) := by
  have hopen (hstate : s.upstreamState = .connected ∨ s.upstreamState = .soloMining) :
      Sound W ep (s.handleOpenMiningChannel r slot) := by
    refine .of_steady _ _ _ (carries_steady.handleOpenMiningChannel
      (opensChannel_fits hlaw fun t ht => ?_) h.steady)
    refine (hW t.templateId (List.mem_map_of_mem ?_)).1
    rw [builtTemplates, if_pos (by simpa using hstate)]
    exact Option.mem_toList.mpr ht
  unfold handleDownstreamOpen
  split
  · exact .say (by exact h.of_channels (fun _ _ _ _ h => h) rfl rfl rfl rfl) (by simp [NoteMatches])
  · exact .keep (by exact h.of_channels (fun _ _ _ _ h => h) rfl rfl rfl rfl)
  · exact hopen (.inl ‹_›)
  · exact hopen (.inr ‹_›)

theorem handleAllocateMiningJobTokenSuccess_sound (h : Aligned W ep s)
    {m : AllocateMiningJobTokenSuccess} :
    Sound W ep (s.handleAllocateMiningJobTokenSuccess m) := by
  unfold handleAllocateMiningJobTokenSuccess
  dsimp only
  split
  · split
    · exact .fail (by exact h.of_channels (fun _ _ _ _ h => h) rfl rfl rfl rfl)
        (of_decide_eq_false rfl)
    · exact .say (by exact h.of_channels (fun _ _ _ _ h => h) rfl rfl rfl rfl)
        (by simp [NoteMatches])
  · exact .keep (by exact h.of_channels (fun _ _ _ _ h => h) rfl rfl rfl rfl)

/-! ### A new upstream channel

The groups are resized and the waiting requests are opened. All of this is in the new epoch. -/

/-- Whether `handle_open_extended_mining_channel_success` opens the upstream channel. -/
def opensUpstream (m : OpenExtendedMiningChannelSuccess) (s : ChannelManager api) : Bool :=
  (deserializeOutputs s.coinbaseOutputs).isSome &&
    !decide (m.extranonceSize < localPrefixBytes + s.reservedDownstreamRollableExtranonceSize) &&
    s.pendingDownstreamRequests.head?.isSome &&
    api.allocatorAccepts m.extranoncePrefix
      ((m.extranoncePrefix.length + m.extranonceSize) % 2 ^ 16 % 2 ^ 8)

theorem upstreamCustomJob_frame (u : api.Upstream) (token : Option AllocateMiningJobTokenSuccess)
    (outputs : List TxOut) (s : ChannelManager api) :
    (s.upstreamCustomJob u token outputs).1.downstream = s.downstream ∧
      (s.upstreamCustomJob u token outputs).1.lastNewPrevHash = s.lastNewPrevHash ∧
      (s.upstreamCustomJob u token outputs).1.cachedShares = s.cachedShares ∧
      (s.upstreamCustomJob u token outputs).1.lastFutureTemplate = s.lastFutureTemplate := by
  unfold upstreamCustomJob
  split <;> exact ⟨rfl, rfl, rfl, rfl⟩

theorem upstreamCustomJob_template {u : api.Upstream} {token : Option AllocateMiningJobTokenSuccess}
    {outputs : List TxOut} {t : NewTemplate} {message : SetCustomMiningJob}
    (h : (s.upstreamCustomJob u token outputs).2.2 = some (t, message)) :
    s.lastFutureTemplate = some t := by
  unfold upstreamCustomJob at h
  split at h
  · rename_i token m t' hm ht
    obtain ⟨message', -, hpair⟩ := Option.map_eq_some_iff.mp h
    obtain ⟨rfl, -⟩ := Prod.mk.inj hpair
    exact ht
  · cases h

/-- The new channel has the prefix and the sizes of the message. -/
theorem upstreamOf_spec (hlaw : api.Lawful) (m : OpenExtendedMiningChannelSuccess)
    (hashrate : UInt32) (s : ChannelManager api) :
    api.upstreamPrefix (s.upstreamOf m hashrate) = m.extranoncePrefix ∧
      api.upstreamFullSize (s.upstreamOf m hashrate) =
        m.extranoncePrefix.length + m.extranonceSize ∧
      (s.lastNewPrevHash.isSome → api.upstreamHasChainTip (s.upstreamOf m hashrate) = true) := by
  obtain ⟨hpre, hrollable⟩ := hlaw.newUpstream (m := m) (h := hashrate)
  have hsize : api.upstreamFullSize (api.newUpstream m hashrate) =
      m.extranoncePrefix.length + m.extranonceSize := by
    rw [ChannelsSv2.upstreamFullSize, hpre, hrollable]
  unfold upstreamOf
  split
  · rename_i hm
    exact ⟨hpre, hsize, fun h => by simp [hm] at h⟩
  · rename_i tip hm
    obtain ⟨hsame, htip⟩ : api.SameUpstream (api.newUpstream m hashrate)
        (api.onChainTipUpdate (api.newUpstream m hashrate) tip.chainTip) ∧ _ :=
          hlaw.onChainTipUpdate
    exact ⟨hsame.upstreamPrefix.trans hpre, hsame.fullSize.trans hsize, fun _ => htip⟩

/-- A new upstream channel starts an epoch, as long as no downstream has a channel of an old one. -/
theorem handleOpenExtendedMiningChannelSuccess_sound (hlaw : api.Lawful)
    {m : OpenExtendedMiningChannelSuccess} {slots : Nat → Nat} (hcached : s.CacheMatches W)
    (hkept : s.opensUpstream m = false → Aligned W ep s)
    (hopened : s.opensUpstream m = true → ep.upstreamPrefix = m.extranoncePrefix ∧
      s.anyChannel = false ∧ m.extranoncePrefix.length + m.extranonceSize < 2 ^ 8)
    (hW : s.Entered W ep (.openExtendedMiningChannelSuccess m slots)) :
    Sound W ep (s.handleOpenExtendedMiningChannelSuccess m slots) := by
  have hgiveUp (hno : s.opensUpstream m = false) : Sound W ep (s.giveUpUpstream m.channelId) :=
    .say ((hkept hno).of_channels (fun _ _ _ _ h => h) rfl rfl rfl rfl) (by simp [NoteMatches])
  unfold handleOpenExtendedMiningChannelSuccess
  split
  · rename_i hdec
    exact .fail (hkept (by simp [opensUpstream, hdec])) (of_decide_eq_false rfl)
  · rename_i o hdec
    split
    · rename_i hsmall
      exact .fail (hkept (by simp [opensUpstream, hsmall])) (of_decide_eq_false rfl)
    · rename_i hlarge
      split
      · rename_i hpending
        exact hgiveUp (by simp [opensUpstream, hpending])
      · rename_i first hfirst
        dsimp only
        split
        · rename_i e he
          have haccepts : api.allocatorAccepts m.extranoncePrefix
              ((m.extranoncePrefix.length + m.extranonceSize) % 2 ^ 16 % 2 ^ 8) = false := by
            unfold ChannelsSv2.fromUpstreamPrefix at he
            split at he
            · cases he
            · exact Bool.eq_false_iff.mpr ‹_›
          exact hgiveUp (by simp only [opensUpstream, haccepts, Bool.and_false])
        · rename_i allocator hallocator
          obtain ⟨haccepts, rfl⟩ := fromUpstreamPrefix_ok hallocator
          obtain ⟨hp, hnone, hsize⟩ := hopened (by
            simp only [opensUpstream, hdec, hfirst, haccepts, hlarge]
            rfl)
          obtain ⟨hd, hm, hc, hlf⟩ := upstreamCustomJob_frame
            (s.upstreamOf m first.message.nominalHashRate) (s.takeToken s.wantsUpstreamToken).1 o
            (s.takeToken s.wantsUpstreamToken).2
          obtain ⟨hupre, hufull, hutip⟩ := upstreamOf_spec hlaw m first.message.nominalHashRate s
          have hrecorded : ∀ t ∈ s.lastFutureTemplate, (t.templateId, ep) ∈ W := by
            intro t ht
            refine (hW t.templateId (List.mem_map_of_mem ?_)).1
            have hpending : s.pendingDownstreamRequests.isEmpty = false := by
              cases hreqs : s.pendingDownstreamRequests with
              | nil => simp [hreqs] at hfirst
              | cons => rfl
            simpa [builtTemplates, hpending] using ht
          have hnochannel : ∀ (s' : ChannelManager api) d k c ch,
              s'.downstream = s.downstream → s'.channel? d k c = some ch → False := by
            intro s' d k c ch heq hch
            have hch' : s.channel? d k c = some ch := by
              unfold channel? at hch ⊢
              rwa [heq] at hch
            simp [anyChannel_of_channel? hch'] at hnone
          have hlength : (m.extranoncePrefix.length + m.extranonceSize) % 2 ^ 16 % 2 ^ 8 =
              m.extranoncePrefix.length + m.extranonceSize := by
            omega
          refine .of_steady (m.extranoncePrefix.length + m.extranonceSize) True
            s.lastFutureTemplate ((Leaves.say ?_ fun note hn => ?_).andThen fun _ h' => ?_)
          · refine ⟨⟨fun d k c ch hch => ?_, hp.symm, hupre.trans hp.symm, fun u hu => ?_, ?_⟩,
              hlength, fun _ _ _ _ _ => trivial, hlf⟩
            · exact (hnochannel _ d k c ch hd (channel?_resizeGroups hch)).elim
            · obtain rfl := Option.some.inj hu
              refine ⟨hufull.trans hlength.symm, fun htip => hutip ?_⟩
              have hm' : _ = s.lastNewPrevHash := hm
              rw [← hm']
              exact htip
            · intro t shares hs
              exact hcached t shares (hc ▸ hs)
          · rcases List.mem_append.mp hn with hn | hn
            · split at hn
              · obtain rfl := List.mem_singleton.mp hn
                exact trivial
              · simp at hn
            · split at hn
              · rename_i t message heq
                obtain rfl := List.mem_singleton.mp hn
                have ht : _ = some t := upstreamCustomJob_template heq
                exact ⟨ep, hrecorded t ht, by rw [hupre, hp]⟩
              · simp at hn
          · refine (allocateTokenIf_steady h').andThen fun _ h' => ?_
            refine .forEach (fun r _ s' hs' => ?_) (by exact h'.of_eq rfl rfl rfl rfl rfl rfl)
            exact carries_steady.handleOpenMiningChannel (opensChannel_fits hlaw hrecorded) hs'

/-! ### A new prefix

The handler gives the channels their prefixes one after the other. `Reassigning` is the invariant of
its loops: `left` are the channels that still have the old one. -/

/-- Whether a channel gets its part of a new upstream prefix. -/
def reassigns (a : ExtranonceAllocator) (slot : Nat) (k : ChannelKind) (ch : api.Channel) : Bool :=
  let allocated := match k with
    | .standard => api.allocateStandard a slot
    | .extended => api.allocateExtended a slot (api.rollableExtranonceSize ch)
  match allocated with
  | .error _ => false
  | .ok p => (api.setExtranoncePrefix ch p).toBool

/-- In the loops of `handle_set_extranonce_prefix`: what is not `left` was reassigned, and the rest
is as it was in `s₀`. -/
structure Reassigning (W : Ledger) (ep : Epoch) (s₀ : ChannelManager api)
    (left : DownstreamId → ChannelKind → ChannelId → Prop) (s : ChannelManager api) : Prop where
  channels : ∀ d k c ch, s.channel? d k c = some ch →
    Fits W ep s.extranonceAllocator.totalLen k ch ∨ left d k c ∧ s₀.channel? d k c = some ch
  allocator : s.extranonceAllocator = s₀.extranonceAllocator
  upstreamChannel : s.upstreamChannel = s₀.upstreamChannel
  lastNewPrevHash : s.lastNewPrevHash = s₀.lastNewPrevHash
  cachedShares : s.cachedShares = s₀.cachedShares

variable {s₀ : ChannelManager api} {left left' : DownstreamId → ChannelKind → ChannelId → Prop}

theorem Reassigning.mono (h : Reassigning W ep s₀ left s)
    (hleft : ∀ d k c ch, s.channel? d k c = some ch → left d k c → left' d k c) :
    Reassigning W ep s₀ left' s where
  channels d k c ch hch := by
    rcases h.channels d k c ch hch with hfits | ⟨hl, hold⟩
    · exact .inl hfits
    · exact .inr ⟨hleft d k c ch hch hl, hold⟩
  allocator := h.allocator
  upstreamChannel := h.upstreamChannel
  lastNewPrevHash := h.lastNewPrevHash
  cachedShares := h.cachedShares

/-- The loops start in a new epoch, and every channel can be reassigned. -/
structure Renumbers (W : Ledger) (ep : Epoch)
    (slots : DownstreamId → ChannelKind → ChannelId → Nat) (s₀ : ChannelManager api) : Prop where
  allocator : s₀.extranonceAllocator.upstreamPrefix = ep.upstreamPrefix
  fresh : ∀ t, (t, ep) ∉ W
  chainTip : ∀ d k c ch, s₀.channel? d k c = some ch → api.hasChainTip ch = true
  jobs : ∀ d k c ch, s₀.channel? d k c = some ch →
    ∀ j ∈ api.jobs ch, ∃ e, (j.template.templateId, e) ∈ W
  reassigns : ∀ d k c ch, s₀.channel? d k c = some ch →
    reassigns s₀.extranonceAllocator (slots d k c) k ch = true

variable {slots : DownstreamId → ChannelKind → ChannelId → Nat}

/-- One channel is reassigned. -/
theorem reassignPrefix_reassigning (hlaw : api.Lawful) (hstart : Renumbers W ep slots s₀)
    {d : DownstreamId} {k : ChannelKind} {c : ChannelId} (h : Reassigning W ep s₀ left s)
    (hleft : ∀ d' k' c', left d' k' c' → left' d' k' c' ∨ d' = d ∧ k' = k ∧ c' = c) :
    Leaves (Reassigning W ep s₀ left') (NoteMatches W) (fun _ => False)
      (reassignPrefix slots d k c s) := by
  unfold reassignPrefix
  cases hch : s.channel? d k c with
  | none =>
      refine .keep (h.mono fun d' k' c' ch' hch' hl => ?_)
      rcases hleft d' k' c' hl with hl | ⟨rfl, rfl, rfl⟩
      · exact hl
      · rw [hch] at hch'
        cases hch'
  | some ch =>
      dsimp only
      -- a channel that has to be reassigned is the one of the start
      have hreassigns : ¬ Fits W ep s.extranonceAllocator.totalLen k ch →
          reassigns s.extranonceAllocator (slots d k c) k ch = true := by
        intro hfits
        rcases h.channels d k c ch hch with hf | ⟨-, hch₀⟩
        · exact absurd hf hfits
        · rw [h.allocator]
          exact hstart.reassigns d k c ch hch₀
      have hrest : ∀ ch', Fits W ep s.extranonceAllocator.totalLen k ch' →
          Reassigning W ep s₀ left' (s.setChannel d k c ch') := by
        intro ch' hfits
        refine ⟨fun d' k' c' ch'' h'' => ?_, h.allocator, h.upstreamChannel, h.lastNewPrevHash,
          h.cachedShares⟩
        by_cases heq : d' = d ∧ k' = k ∧ c' = c
        · obtain ⟨rfl, rfl, rfl⟩ := heq
          rw [channel?_setChannel_self hch] at h''
          obtain rfl := Option.some.inj h''
          exact .inl hfits
        · rcases channel?_setChannel h'' with h'' | ⟨rfl, rfl⟩
          · rcases h.channels d' k' c' ch'' h'' with hf | ⟨hl, hch₀⟩
            · exact .inl hf
            · exact .inr ⟨(hleft d' k' c' hl).resolve_right heq, hch₀⟩
          · exact .inl hfits
      have hkeep : Fits W ep s.extranonceAllocator.totalLen k ch → Reassigning W ep s₀ left' s := by
        intro hfits
        refine ⟨fun d' k' c' ch'' h'' => ?_, h.allocator, h.upstreamChannel, h.lastNewPrevHash,
          h.cachedShares⟩
        rcases h.channels d' k' c' ch'' h'' with hf | ⟨hl, hch₀⟩
        · exact .inl hf
        · rcases hleft d' k' c' hl with hl | ⟨rfl, rfl, rfl⟩
          · exact .inr ⟨hl, hch₀⟩
          · obtain rfl := Option.some.inj (hch.symm.trans h'')
            exact .inl hfits
      have hfacts : api.hasChainTip ch = true ∧
          ∀ j ∈ api.jobs ch, ∃ e, (j.template.templateId, e) ∈ W := by
        rcases h.channels d k c ch hch with hf | ⟨-, hch₀⟩
        · refine ⟨hf.chainTip, fun j hj => ?_⟩
          obtain ⟨e, he, -⟩ := hf.jobs j hj
          exact ⟨e, he⟩
        · exact ⟨hstart.chainTip d k c ch hch₀, hstart.jobs d k c ch hch₀⟩
      split
      · rename_i e he
        refine .keep (hkeep (by_contra fun hf => ?_))
        have hok := hreassigns hf
        cases k <;> simp only at he <;> simp [reassigns, he] at hok
      · rename_i p hp
        split
        · rename_i e he
          refine .keep (hkeep (by_contra fun hf => ?_))
          have hok := hreassigns hf
          cases k <;> simp only at hp <;> simp [reassigns, hp, he, Except.toBool] at hok
        · rename_i ch' hch'
          obtain ⟨hp', hjobs', htip'⟩ := hlaw.setExtranoncePrefix hch'
          have hallocated : s.extranonceAllocator.upstreamPrefix <+: p ∧
              (k = .standard → p.length = s.extranonceAllocator.totalLen) := by
            cases k with
            | standard => exact ⟨(hlaw.allocateStandard hp).1, fun _ =>
                (hlaw.allocateStandard hp).2⟩
            | extended => exact ⟨(hlaw.allocateExtended hp).1, fun hk => by cases hk⟩
          refine .say (hrest ch' ⟨htip' hfacts.1, ?_, fun hk => ?_, fun j hj => ?_⟩)
            (by simp [NoteMatches])
          · rw [hp', ← hstart.allocator, ← h.allocator]
            exact hallocated.1
          · rw [hp', hallocated.2 hk]
          · obtain ⟨e, he⟩ := hfacts.2 j (hjobs' ▸ hj)
            exact ⟨e, he, fun heq => absurd (heq ▸ he) (hstart.fresh _)⟩

/-- The channels of one kind of a downstream are reassigned. -/
theorem reassignLoop_reassigning (left : DownstreamId → ChannelKind → ChannelId → Prop)
    (hlaw : api.Lawful) (hstart : Renumbers W ep slots s₀) {d : DownstreamId} {k : ChannelKind}
    (h : Reassigning W ep s₀ (fun d' k' c' => left d' k' c' ∨ d' = d ∧ k' = k) s) :
    Leaves (Reassigning W ep s₀ left) (NoteMatches W) (fun _ => False)
      (forEach (reassignPrefix slots d k) (s.channelIds d k) s) := by
  have hloop : Leaves
      (Reassigning W ep s₀ fun d' k' c' => left d' k' c' ∨ d' = d ∧ k' = k ∧ c' ∈ [])
      (NoteMatches W) (fun _ => False)
      (forEach (reassignPrefix slots d k) (s.channelIds d k) s) := by
    refine Leaves.forEach_remaining (P := fun cs => Reassigning W ep s₀ fun d' k' c' =>
      left d' k' c' ∨ d' = d ∧ k' = k ∧ c' ∈ cs) (fun c cs s' h' => ?_)
      (h.mono fun d' k' c' ch hch hl => ?_)
    · refine reassignPrefix_reassigning hlaw hstart h' fun d' k' c' hl => ?_
      rcases hl with hl | ⟨hd, hk, hc⟩
      · exact .inl (.inl hl)
      · rcases List.mem_cons.mp hc with hc | hc
        · exact .inr ⟨hd, hk, hc⟩
        · exact .inl (.inr ⟨hd, hk, hc⟩)
    · rcases hl with hl | ⟨rfl, rfl⟩
      · exact .inl hl
      · exact .inr ⟨rfl, rfl, (mem_channelIds hch).2⟩
  refine hloop.mono (fun s' h' => h'.mono fun d' k' c' ch hch hl => ?_)
    (fun _ h => h) (fun _ h => h)
  rcases hl with hl | ⟨-, -, hc⟩
  · exact hl
  · cases hc

/-- All channels are reassigned. -/
theorem reassignAll_reassigning (s₀ : ChannelManager api) (hlaw : api.Lawful)
    (hstart : Renumbers W ep slots s₀) :
    Leaves (Reassigning W ep s₀ fun d _ _ => d ∈ []) (NoteMatches W) (fun _ => False)
      (forEach (fun d s =>
          (forEach (reassignPrefix slots d .standard) (s.channelIds d .standard) s).andThen
            fun s => forEach (reassignPrefix slots d .extended) (s.channelIds d .extended) s)
        s₀.downstream.keys s₀) := by
  refine Leaves.forEach_remaining (P := fun ds => Reassigning W ep s₀ fun d _ _ => d ∈ ds)
    (fun d ds s h => ?_) ⟨fun d k c ch hch => .inr ⟨(mem_channelIds hch).1, hch⟩, rfl, rfl,
    rfl, rfl⟩
  refine (reassignLoop_reassigning (fun d' k' _ => d' ∈ ds ∨ d' = d ∧ k' = .extended)
    hlaw hstart (h.mono fun d' k' c' ch hch hl => ?_)).andThen_of_ok fun h' =>
      reassignLoop_reassigning (fun d' _ _ => d' ∈ ds) hlaw hstart h'
  rcases List.mem_cons.mp hl with rfl | hl
  · cases k' with
    | standard => exact .inr ⟨rfl, rfl⟩
    | extended => exact .inl (.inr ⟨rfl, rfl⟩)
  · exact .inl (.inl hl)

/-- The allocator of a prefix that `handle_set_extranonce_prefix` accepts. -/
def newAllocator (s : ChannelManager api) (p : Bytes) : Option ExtranonceAllocator :=
  match s.upstreamChannel with
  | none => none
  | some u =>
      if maxExtranonceLen < p.length then none
      else
        match api.setUpstreamPrefix u p with
        | .error _ => none
        | .ok u' =>
            let full := p.length + api.upstreamRollable u'
            if maxExtranonceLen < full then none else (api.fromUpstreamPrefix p full).toOption

/-- What an event that may end the loop shows for itself. -/
structure Stepped (W : Ledger) (ep : Epoch) (o : Handled api) : Prop where
  value : Client.goesOn o = true → Aligned W ep o.value
  cached : o.value.CacheMatches W
  notes : ∀ note ∈ o.notes, NoteMatches W note
  error : ∀ e, o.error = some e → ¬ e.IsTranslationPanic

theorem Sound.stepped {o : Handled api} (h : Sound W ep o) : Stepped W ep o where
  value _ := h.value
  cached := h.value.cached
  notes := h.notes
  error := h.error

/-- An error that ends the loop. -/
theorem Stepped.fallback (h : s.CacheMatches W) {kind : JDCErrorKind}
    (hkind : ¬ (JDCError.fallback kind).IsTranslationPanic) :
    Stepped W ep (.fail s (.fallback kind) : Handled api) where
  value hgo := by cases hgo
  cached := h
  notes := by simp
  error e he := by
    obtain rfl := Option.some.inj he
    exact hkind

/-- A new prefix starts an epoch, as long as it reaches every channel. -/
theorem handleSetExtranoncePrefix_stepped (hlaw : api.Lawful) {p : Bytes} {ep₀ : Epoch}
    (h : Aligned W ep₀ s) (hkept : s.newAllocator p = none → ep = ep₀)
    (hrenumbered : ∀ a, s.newAllocator p = some a → ep.upstreamPrefix = p ∧ (∀ t, (t, ep) ∉ W) ∧
      ∀ d k c ch, s.channel? d k c = some ch → reassigns a (slots d k c) k ch = true) :
    Stepped W ep (s.handleSetExtranoncePrefix p slots) := by
  unfold handleSetExtranoncePrefix
  split
  · rename_i hu
    obtain rfl := hkept (by simp only [newAllocator, hu])
    exact Sound.stepped (.keep h)
  · rename_i u hu
    split
    · refine .fallback (by exact h.cached) ?_
      exact of_decide_eq_false rfl
    · rename_i hlen
      split
      · refine .fallback (by exact h.cached) ?_
        exact of_decide_eq_false rfl
      · rename_i u' hu'
        dsimp only
        split
        · refine .fallback (by exact h.cached) ?_
          exact of_decide_eq_false rfl
        · rename_i hfull
          split
          · refine .fallback (by exact h.cached) ?_
            exact of_decide_eq_false rfl
          · rename_i allocator hallocator
            obtain ⟨hp, hfresh, hreassigns⟩ := hrenumbered allocator (by
              simp only [newAllocator, hu, if_neg hlen, hu', if_neg hfull, hallocator]
              rfl)
            obtain ⟨-, rfl⟩ := fromUpstreamPrefix_ok hallocator
            obtain ⟨hupre, -, htip⟩ := hlaw.setUpstreamPrefix hu'
            have hall := reassignAll_reassigning { s with
              upstreamChannel := some u'
              extranonceAllocator := ⟨p, p.length + api.upstreamRollable u'⟩ } hlaw
              ⟨hp.symm, hfresh, fun d k c ch hch => (h.channels d k c ch hch).chainTip,
                fun d k c ch hch j hj => by
                  obtain ⟨e, he, -⟩ := (h.channels d k c ch hch).jobs j hj
                  exact ⟨e, he⟩, hreassigns⟩
            refine Sound.stepped (hall.mono (fun s' h' => ?_) (fun _ h => h) (fun _ h => h.elim))
            have hpre : s'.upstreamPrefix = p := by
              rw [upstreamPrefix_of_some h'.upstreamChannel, hupre]
            refine ⟨fun d k c ch hch => ?_, ?_, hpre.trans hp.symm, fun v hv => ?_, ?_⟩
            · rcases h'.channels d k c ch hch with hfits | ⟨hl, -⟩
              · exact hfits
              · cases hl
            · rw [h'.allocator, hp]
            · rw [h'.upstreamChannel] at hv
              obtain rfl := Option.some.inj hv
              rw [h'.allocator, h'.lastNewPrevHash]
              refine ⟨?_, fun hm => htip ((h.upstream u hu).2 hm)⟩
              rw [ChannelsSv2.upstreamFullSize, hupre]
            · intro t shares hs
              rw [h'.cachedShares] at hs
              exact h.cached t shares hs

/-! ### One event

`Stepped` has the epoch that follows. The two handlers of the last sections are the only ones that
begin a new one. -/

/-- The epoch after an event. -/
def epochAfter (s : ChannelManager api) (ep : Epoch) : Event → Epoch
  | .setExtranoncePrefix p _ =>
      if (s.newAllocator p).isSome then ⟨ep.number + 1, p⟩ else ep
  | .openExtendedMiningChannelSuccess m _ =>
      if s.opensUpstream m then ⟨ep.number + 1, m.extranoncePrefix⟩ else ep
  | _ => ep

/-- A new prefix reaches every channel, and a new upstream channel finds none. -/
def PrefixReaches (s : ChannelManager api) : Event → Prop
  | .setExtranoncePrefix p slots =>
      ∀ a ∈ s.newAllocator p, ∀ d ∈ s.downstream.keys, ∀ k ∈ [ChannelKind.standard, .extended],
        ∀ c ∈ s.channelIds d k, ∀ ch ∈ s.channel? d k c, reassigns a (slots d k c) k ch = true
  | .openExtendedMiningChannelSuccess m _ =>
      s.opensUpstream m = true →
        s.anyChannel = false ∧ m.extranoncePrefix.length + m.extranonceSize < 2 ^ 8
  | _ => True

instance (s : ChannelManager api) (e : Event) : Decidable (s.PrefixReaches e) :=
  match e with
  | .setExtranoncePrefix p slots =>
      inferInstanceAs (Decidable (∀ a ∈ s.newAllocator p, ∀ d ∈ s.downstream.keys,
        ∀ k ∈ [ChannelKind.standard, .extended], ∀ c ∈ s.channelIds d k, ∀ ch ∈ s.channel? d k c,
          reassigns a (slots d k c) k ch = true))
  | .openExtendedMiningChannelSuccess m _ =>
      inferInstanceAs (Decidable (s.opensUpstream m = true →
        s.anyChannel = false ∧ m.extranoncePrefix.length + m.extranonceSize < 2 ^ 8))
  | .activate _ | .requestInitialTokens | .connect _ | .disconnect _ | .newTemplate _
  | .requestTxDataSuccess _ _ _ | .setNewPrevHash _ | .allocateMiningJobTokenSuccess _
  | .declareMiningJobSuccess _ _ | .declareMiningJobError _ | .openStandardMiningChannelSuccess
  | .openMiningChannelError | .closeUpstreamChannel | .setCustomMiningJobSuccess _ _
  | .setCustomMiningJobError _ _ | .openMiningChannel _ _ | .closeChannel _ _
  | .submitSharesStandard _ _ | .submitSharesExtended _ _ => isTrue trivial

/-- A handler keeps the epoch, or starts one. -/
theorem handler_stepped (hlaw : api.Lawful) {e : Event} {ep₀ : Epoch} (h : Aligned W ep₀ s)
    (hreaches : s.PrefixReaches e) (hep : ep = s.epochAfter ep₀ e)
    (hfresh : ep ≠ ep₀ → ∀ t, (t, ep) ∈ W → t ∈ s.usedTemplates e)
    (hW : s.Entered W ep e) : Stepped W ep (handler e s) := by
  cases e with
  | setExtranoncePrefix p slots =>
      refine handleSetExtranoncePrefix_stepped hlaw h (fun hnone => ?_) fun a ha => ?_
      · rw [hep, epochAfter, hnone]
        rfl
      · rw [epochAfter, ha, if_pos (Option.isSome_some)] at hep
        refine ⟨by rw [hep], fun t ht => ?_, fun d k c ch hch => ?_⟩
        · have hne : ep ≠ ep₀ := by
            rintro rfl
            have hnumber := congrArg Epoch.number hep
            simp at hnumber
          exact absurd (hfresh hne t ht) (by simp [usedTemplates, builtTemplates])
        · obtain ⟨hd, hc⟩ := mem_channelIds hch
          exact hreaches a ha d hd k (by cases k <;> simp) c hc ch hch
  | openExtendedMiningChannelSuccess m slots =>
      refine (handleOpenExtendedMiningChannelSuccess_sound hlaw h.cached (fun hno => ?_)
        (fun hopens => ?_) hW).stepped
      · rw [hep, epochAfter, hno]
        exact h
      · rw [hep, epochAfter, if_pos hopens]
        exact ⟨rfl, hreaches hopens⟩
  | closeUpstreamChannel => exact .fallback (by exact h.cached) (of_decide_eq_false rfl)
  | activate mode =>
      obtain rfl : ep = ep₀ := hep
      exact Sound.stepped (.keep (by exact h.of_channels (fun _ _ _ _ h => h) rfl rfl rfl rfl))
  | requestInitialTokens =>
      obtain rfl : ep = ep₀ := hep
      refine Sound.stepped ⟨?_, fun n hn => ?_, fun _ he => by cases he⟩
      · exact h.of_channels (fun _ _ _ _ h => h) rfl rfl rfl rfl
      · have hn' : n = .allocateMiningJobToken s.requestIdFactory ∨
            n = .allocateMiningJobToken (s.requestIdFactory + 1) := by
          simpa [handler, requestInitialTokens, allocateToken, Outcome.andThen] using hn
        rcases hn' with rfl | rfl <;> trivial
  | connect r =>
      obtain rfl : ep = ep₀ := hep
      exact (connect_sound h).stepped
  | disconnect d =>
      obtain rfl : ep = ep₀ := hep
      exact Sound.stepped (.keep (h.of_channels (fun _ _ _ _ hch => channel?_removeDownstream hch)
        rfl rfl rfl rfl))
  | newTemplate t =>
      obtain rfl : ep = ep₀ := hep
      exact (handleNewTemplate_sound hlaw h hW).stepped
  | requestTxDataSuccess i txs excess =>
      obtain rfl : ep = ep₀ := hep
      exact (handleRequestTxDataSuccess_sound h hW).stepped
  | setNewPrevHash m =>
      obtain rfl : ep = ep₀ := hep
      exact (handleSetNewPrevHash_sound hlaw h hW).stepped
  | allocateMiningJobTokenSuccess m =>
      obtain rfl : ep = ep₀ := hep
      exact (handleAllocateMiningJobTokenSuccess_sound h).stepped
  | declareMiningJobSuccess r token =>
      obtain rfl : ep = ep₀ := hep
      exact (handleDeclareMiningJobSuccess_sound h hW).stepped
  | declareMiningJobError code =>
      obtain rfl : ep = ep₀ := hep
      simp only [handler, handleDeclareMiningJobError]
      split
      · exact Sound.stepped (.keep h)
      · exact .fallback h.cached (of_decide_eq_false rfl)
  | openStandardMiningChannelSuccess =>
      exact .fallback h.cached (of_decide_eq_false rfl)
  | openMiningChannelError => exact .fallback h.cached (of_decide_eq_false rfl)
  | setCustomMiningJobSuccess r j =>
      obtain rfl : ep = ep₀ := hep
      exact (handleSetCustomMiningJobSuccess_sound hlaw h hW).stepped
  | setCustomMiningJobError r code =>
      obtain rfl : ep = ep₀ := hep
      exact (handleSetCustomMiningJobError_sound h).stepped
  | openMiningChannel r slot =>
      obtain rfl : ep = ep₀ := hep
      exact (handleDownstreamOpen_sound hlaw h hW).stepped
  | closeChannel d c =>
      obtain rfl : ep = ep₀ := hep
      exact (handleCloseChannel_sound h).stepped
  | submitSharesStandard d m =>
      obtain rfl : ep = ep₀ := hep
      exact (handleSubmitSharesStandard_sound hlaw h hW).stepped
  | submitSharesExtended d m =>
      obtain rfl : ep = ep₀ := hep
      exact (handleSubmitSharesExtended_sound hlaw h hW).stepped

end ChannelManager

/-! ### Runs -/

/-- Whether the handler of an event runs. -/
def Client.handles {api : ChannelsSv2} (w : Client api) (e : Event) : Bool :=
  w.running && !(w.manager.mode = .soloMining && e.fromUpstream)

/-- A client, with its epoch and its ledger. -/
structure Numbered (api : ChannelsSv2) where
  client : Client api
  epoch : Epoch
  ledger : Ledger

namespace Numbered

variable {api : ChannelsSv2}

def start (coinbaseOutputs : Bytes) (reserved : Nat) : Numbered api :=
  ⟨.start coinbaseOutputs reserved, ⟨0, []⟩, []⟩

def epochAfter (x : Numbered api) (e : Event) : Epoch :=
  if x.client.handles e then x.client.manager.epochAfter x.epoch e else x.epoch

def newEntries (x : Numbered api) (e : Event) : Ledger :=
  if x.client.handles e then
    (x.client.manager.usedTemplates e).map fun t => (t, x.epochAfter e)
  else []

def step (x : Numbered api) (e : Event) : Numbered api :=
  ⟨x.client.step e, x.epochAfter e, x.ledger ++ x.newEntries e⟩

/-- The ledger does not change the client. -/
theorem exec_client (x : Numbered api) (es : List Event) :
    (Runs.exec step x es).client = Runs.exec Client.step x.client es := by
  induction es generalizing x with
  | nil => rfl
  | cons e es ih => exact ih (x.step e)

/-- The conditions on an event: it works with templates of the current epoch, and a new prefix
reaches every channel. -/
def Consistent (x : Numbered api) (e : Event) : Prop :=
  x.client.handles e = true →
    (∀ t ∈ x.client.manager.usedTemplates e, ∀ c ∈ x.ledger, c.1 = t → c.2 = x.epochAfter e) ∧
      x.client.manager.PrefixReaches e

instance (x : Numbered api) (e : Event) : Decidable (x.Consistent e) :=
  inferInstanceAs (Decidable (_ → _ ∧ _))

/-- The invariant: one epoch for each template, and everything agrees with the ledger. -/
structure Inv (x : Numbered api) : Prop where
  functional : ∀ c ∈ x.ledger, ∀ c' ∈ x.ledger, c.1 = c'.1 → c.2 = c'.2
  bounded : ∀ c ∈ x.ledger, c.2.number ≤ x.epoch.number
  manager : x.client.running = true → x.client.manager.Aligned x.ledger x.epoch
  cached : x.client.manager.CacheMatches x.ledger
  history : ∀ n ∈ x.client.history, NoteMatches x.ledger n
  failures : ∀ e ∈ x.client.failures, ¬ e.IsTranslationPanic

/-- An event that is not handled leaves the manager, and what was sent, as they are. -/
theorem step_of_not_handles {w : Client api} {e : Event} (h : w.handles e = false) :
    (w.step e).manager = w.manager ∧ (w.step e).history = w.history ∧
      (w.step e).failures = w.failures ∧ ((w.step e).running = true → w.running = true) := by
  cases hrun : w.running with
  | false =>
      rw [Client.step_stopped hrun]
      exact ⟨rfl, rfl, rfl, fun h => by rw [hrun] at h; exact h⟩
  | true =>
      have hskip : (w.manager.mode = .soloMining && e.fromUpstream) = true := by
        simpa [Client.handles, hrun] using h
      simp only [Client.step, hrun, if_true, ChannelManager.handle, hskip]
      exact ⟨rfl, by simp, by simp, by simp⟩

/-- Epochs are numbered upwards, and a new one has a new number. -/
theorem epoch_le (x : Numbered api) (e : Event) :
    x.epoch.number ≤ (x.epochAfter e).number ∧
      (x.epochAfter e ≠ x.epoch → x.epoch.number < (x.epochAfter e).number) := by
  have hepoch : x.epochAfter e = x.epoch ∨ (x.epochAfter e).number = x.epoch.number + 1 := by
    unfold epochAfter
    split
    · cases e with
      | setExtranoncePrefix p slots =>
          simp only [ChannelManager.epochAfter]
          split
          · exact .inr rfl
          · exact .inl rfl
      | openExtendedMiningChannelSuccess m slots =>
          simp only [ChannelManager.epochAfter]
          split
          · exact .inr rfl
          · exact .inl rfl
      | _ => exact .inl rfl
    · exact .inl rfl
  rcases hepoch with heq | heq
  · rw [heq]
    exact ⟨le_rfl, fun hne => absurd rfl hne⟩
  · exact ⟨by omega, fun _ => by omega⟩

/-- The ledger agrees with the client after every event that is consistent with it. -/
theorem inv_step (hlaw : api.Lawful) {x : Numbered api} {e : Event} (h : x.Inv)
    (hc : x.Consistent e) : (x.step e).Inv := by
  have hsub : ∀ c ∈ x.ledger, c ∈ (x.step e).ledger := fun c hc => List.mem_append_left _ hc
  obtain ⟨hle, hlt⟩ := x.epoch_le e
  have hnew : ∀ c ∈ x.newEntries e, x.client.handles e = true ∧
      c.1 ∈ x.client.manager.usedTemplates e ∧ c.2 = x.epochAfter e := by
    intro c hc
    unfold newEntries at hc
    split at hc
    · rename_i hh
      obtain ⟨t, ht, rfl⟩ := List.mem_map.mp hc
      exact ⟨hh, ht, rfl⟩
    · cases hc
  have hbounded : ∀ c ∈ (x.step e).ledger, c.2.number ≤ (x.step e).epoch.number := by
    intro c hc
    rcases List.mem_append.mp hc with hc | hc
    · exact (h.bounded c hc).trans hle
    · rw [(hnew c hc).2.2]
      exact le_rfl
  have hold : ∀ n ∈ x.client.history, NoteMatches (x.step e).ledger n :=
    fun n hn => (h.history n hn).mono hsub
  cases hh : x.client.handles e with
  | false =>
      have hledger : (x.step e).ledger = x.ledger := by simp [step, newEntries, hh]
      have hepoch : (x.step e).epoch = x.epoch := by simp [step, epochAfter, hh]
      obtain ⟨hmanager, hhistory, hfailures, hrunning⟩ := step_of_not_handles hh
      refine ⟨hledger ▸ h.functional, hbounded, fun hrun => ?_, ?_, ?_, ?_⟩
      · rw [hledger, hepoch]
        exact hmanager ▸ h.manager (hrunning hrun)
      · rw [hledger]
        exact hmanager ▸ h.cached
      · exact hhistory ▸ hold
      · exact hfailures ▸ h.failures
  | true =>
      obtain ⟨hone, hreaches⟩ := hc hh
      have hrun : x.client.running = true := by
        simp only [Client.handles, Bool.and_eq_true] at hh
        exact hh.1
      have hepoch : x.epochAfter e = x.client.manager.epochAfter x.epoch e := by
        rw [epochAfter, if_pos hh]
      have hentered : x.client.manager.Entered (x.step e).ledger (x.epochAfter e) e := by
        intro t ht
        refine ⟨List.mem_append_right _ ?_, fun ep hep => ?_⟩
        · rw [newEntries, if_pos hh]
          exact List.mem_map_of_mem ht
        · rcases List.mem_append.mp hep with hep | hep
          · exact hone t ht _ hep rfl
          · exact (hnew _ hep).2.2
      have hfresh : x.epochAfter e ≠ x.epoch → ∀ t, (t, x.epochAfter e) ∈ (x.step e).ledger →
          t ∈ x.client.manager.usedTemplates e := by
        intro hne t ht
        rcases List.mem_append.mp ht with ht | ht
        · have hnumber : (x.epochAfter e).number ≤ x.epoch.number := h.bounded _ ht
          have hless := hlt hne
          omega
        · exact (hnew _ ht).2.1
      have hafter := ChannelManager.handler_stepped hlaw ((h.manager hrun).mono hsub) hreaches
        hepoch hfresh hentered
      have hhandle : ChannelManager.handle e x.client.manager =
          ChannelManager.handler e x.client.manager := by
        have hread : (x.client.manager.mode = .soloMining && e.fromUpstream) = false := by
          simpa only [Client.handles, hrun, Bool.true_and, Bool.not_eq_true'] using hh
        rw [ChannelManager.handle, hread]
        rfl
      refine ⟨?_, hbounded, ?_, ?_, ?_, ?_⟩
      · intro c hc c' hc' hcc
        rcases List.mem_append.mp hc with hc | hc <;> rcases List.mem_append.mp hc' with hc' | hc'
        · exact h.functional c hc c' hc' hcc
        · obtain ⟨-, hused, heq⟩ := hnew c' hc'
          rw [heq]
          exact hone _ hused c hc hcc
        · obtain ⟨-, hused, heq⟩ := hnew c hc
          rw [heq]
          exact (hone _ hused c' hc' hcc.symm).symm
        · rw [(hnew c hc).2.2, (hnew c' hc').2.2]
      all_goals simp only [step, Client.step, hrun, if_true, hhandle] at hafter hold ⊢
      · intro hgo
        unfold Client.managerAfter
        split
        · exact (hafter.value hgo).of_channels
            (fun _ _ _ _ hch => ChannelManager.channel?_removeDownstream hch) rfl rfl rfl rfl
        · exact hafter.value hgo
      · unfold Client.managerAfter
        split
        · exact hafter.cached
        · exact hafter.cached
      · intro n hn
        rcases List.mem_append.mp hn with hn | hn
        · exact hold n hn
        · exact hafter.notes n hn
      · intro err herr
        rcases List.mem_append.mp herr with herr | herr
        · exact h.failures err herr
        · exact hafter.error err (Option.mem_toList.mp herr)

theorem inv_start (outputs : Bytes) (reserved : Nat) :
    (start outputs reserved : Numbered api).Inv where
  functional := nofun
  bounded := nofun
  manager _ :=
    { channels := fun d k c ch hch => by
        obtain ⟨ds, hds, -⟩ := ChannelManager.channel?_eq_some.mp hch
        simp [start, Client.start, ChannelManager.new] at hds
      allocator := rfl
      upstreamPrefix := rfl
      upstream := nofun
      cached := nofun }
  cached := nofun
  history := nofun
  failures := nofun

end Numbered

/-- The template of a declaration, and the upstream prefix it was made under. -/
def Note.declaration? : Note → Option (NewTemplate × Bytes)
  | .setCustomMiningJob t p _ | .declareMiningJob t p _ => some (t, p)
  | _ => none

/-- The prefix of a declaration is that of an epoch of its template. -/
theorem Note.declaration?_matches {n : Note} {W : Ledger} (h : NoteMatches W n) {t : NewTemplate}
    {p : Bytes} (hd : n.declaration? = some (t, p)) :
    ∃ e, (t.templateId, e) ∈ W ∧ e.upstreamPrefix = p := by
  cases n with
  | setCustomMiningJob t' p' m =>
      obtain ⟨rfl, rfl⟩ := Prod.mk.inj (Option.some.inj hd)
      exact h
  | declareMiningJob t' p' m =>
      obtain ⟨rfl, rfl⟩ := Prod.mk.inj (Option.some.inj hd)
      exact h
  | _ => cases hd

namespace Client

variable {api : ChannelsSv2}

/-- A share that is passed on, or waits, has the extranonce of the downstream share under the prefix
its template was declared with; so has a solution, in full; and no translation panicked. -/
structure SharesAgree (w : Client api) : Prop where
  forwarded : ∀ o m, .submitSharesExtended o m ∈ w.history → ∀ n ∈ w.history, ∀ t p,
    n.declaration? = some (t, p) → t.templateId = o.job.template.templateId →
      p ++ m.extranonce = o.full
  cached : ∀ i shares, w.manager.cachedShares i = some shares → ∀ x ∈ shares,
    ∀ n ∈ w.history, ∀ t p, n.declaration? = some (t, p) →
      t.templateId = x.origin.job.template.templateId →
        p ++ x.share.extranonce = x.origin.full
  solutions : ∀ o m, .pushSolution o m ∈ w.history → m.extranonce = o.full
  noPanic : ∀ e ∈ w.failures, ¬ e.IsTranslationPanic

/-- Every share and solution agrees with what the downstream mined. -/
theorem sharesAgree_of_inv {x : Numbered api} (h : x.Inv) : x.client.SharesAgree := by
  have hmatch : ∀ {o : Origin} {extranonce : Bytes},
      Describes x.ledger o.job.template.templateId extranonce o → ∀ n ∈ x.client.history, ∀ t p,
      n.declaration? = some (t, p) → t.templateId = o.job.template.templateId →
        p ++ extranonce = o.full := by
    rintro o extranonce ⟨e, he, hfull⟩ n hn t p hd ht
    obtain ⟨e', he', rfl⟩ := Note.declaration?_matches (h.history n hn) hd
    have heq : e' = e := h.functional _ he' _ he ht
    rw [heq, hfull]
  exact
    { forwarded := fun o m hm => hmatch (h.history _ hm)
      cached := fun i shares hs x hx => hmatch (h.cached i shares hs x hx).2
      solutions := fun o m hm => h.history _ hm
      noPanic := h.failures }

/-- **Downstream and upstream shares describe one coinbase.** In a run in which every template is
worked with under one upstream prefix and every new prefix reaches every channel, shares and
solutions agree with the declarations, and no translation panics. -/
theorem shares_agree (hlaw : api.Lawful) (outputs : Bytes) (reserved : Nat) (es : List Event)
    (hes : Runs.Along Numbered.step (fun x e => x.Consistent e)
      (Numbered.start outputs reserved : Numbered api) es) :
    (Runs.exec step (start outputs reserved : Client api) es).SharesAgree := by
  have hinv := Runs.exec_induct (fun _ _ h hc => Numbered.inv_step hlaw h hc)
    (Numbered.inv_start outputs reserved) hes
  have hagree := sharesAgree_of_inv hinv
  rwa [Numbered.exec_client] at hagree

/-- A share of the first channel. -/
def sampleShare (jobId : JobId) (nonce : UInt32) : SubmitSharesExtended :=
  ⟨2, 0, jobId, nonce, 0, 0, [1, 2, 3, 4, 5, 6]⟩

/-- A coinbase-only start up to the pool's answer to the first custom job. -/
def acceptedRun : List Event :=
  [.activate .coinbaseOnly, .requestInitialTokens,
    .newTemplate (sampleTemplate 1 true), .setNewPrevHash (samplePrevHash 1),
    .allocateMiningJobTokenSuccess (sampleToken 0), .allocateMiningJobTokenSuccess (sampleToken 1),
    .connect false, .openMiningChannel (sampleOpen .extended) 0,
    .openExtendedMiningChannelSuccess ⟨5, [], [1, 2], 8⟩ fun _ => 0,
    .newTemplate (sampleTemplate 2 false), .setCustomMiningJobSuccess 2 9]

/-- A block, a new prefix, and a share on a job of the new prefix. -/
def newPrefixRun : List Event :=
  acceptedRun ++ [.submitSharesExtended 0 (sampleShare 2 0),
    .setExtranoncePrefix [3, 4] fun _ _ _ => 7, .newTemplate (sampleTemplate 3 false),
    .setCustomMiningJobSuccess 4 10, .submitSharesExtended 0 (sampleShare 3 5)]

/-- A run through two prefixes in which three shares are passed on. -/
theorem newPrefixRun_agrees :
    ((Runs.exec step (start sampleOutputs 4 : Client reference) newPrefixRun).history.filter
        fun n => match n with
          | .submitSharesExtended _ _ | .pushSolution _ _ => true
          | _ => false).length = 3 ∧
      (Runs.exec step (start sampleOutputs 4 : Client reference) newPrefixRun).SharesAgree :=
  ⟨by decide +kernel, shares_agree reference_lawful _ _ _ (by decide +kernel)⟩

/-- A block on a job from before the new prefix. -/
def lateShareRun : List Event :=
  acceptedRun ++ [.setExtranoncePrefix [3, 4] fun _ _ _ => 0,
    .submitSharesExtended 0 (sampleShare 2 0)]

/-- Its solution has the new prefix, and its job the old one. -/
theorem lateShareRun_disagrees :
    ¬ (Runs.exec step (start sampleOutputs 4 : Client reference) lateShareRun).SharesAgree := by
  intro h
  have hsolutions : ∀ n ∈ (Runs.exec step (start sampleOutputs 4 : Client reference)
      lateShareRun).history, (match n with
        | .pushSolution o m => decide (m.extranonce = o.full)
        | _ => true) = true := by
    intro n hn
    cases n with
    | pushSolution o m => exact decide_eq_true (h.solutions o m hn)
    | _ => rfl
  revert hsolutions
  decide +kernel

end Client

end GridPoolSv2.JobDeclaratorClient
