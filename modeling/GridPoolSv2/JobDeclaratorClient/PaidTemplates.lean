import GridPoolSv2.JobDeclaratorClient.JobTemplates

/-!
# JobDeclaratorClient.PaidTemplates: shares are paid under a job of their own template

A share that a downstream job accepts goes to the pool under the upstream job of the template its
job id is mapped to, at once or when the pool has accepted a custom job for that template. With the
invariant of `JobTemplates` this is the template of the downstream job.

* `Relays` is what the cells of shares say about templates; `Note.Paid` is the same for a message.
* `Fed` is the client with the template ids it was given and the custom jobs the pool accepted.
  `Provides` is the order a template provider keeps to.

The other half is `JobTemplates`: which template a downstream job was built from. Here the map from
jobs to templates is taken as it is, and the shares are followed: a share is relayed, cached for a
template whose custom job is not accepted yet, or refused.

Proof shape: `Relays` is about two cells, the upstream jobs by template and the cache of shares, and
what goes out is `Note.Paid`. The rules of `Walk` carry both through the handlers that shares do not
go through, so what is left are the shares and the answers to a custom job; `handle_relays` has one
case for each event. `Served` is the order of the provider as it shows in the state of a running
client, and `Inv` puts the two halves together over `Fed`.
-/

namespace GridPoolSv2.JobDeclaratorClient

open Consensus (Bytes TxOut)
open Function (update)
open Runs Visit Handler

/-- A share goes out under a job the pool has accepted for the template of its downstream job. -/
def Note.Paid (accepted : List (JobId × TemplateId)) : Note → Prop
  | .submitSharesExtended origin m => (m.jobId, origin.job.template.templateId) ∈ accepted
  | _ => True

theorem Note.Paid.mono {accepted accepted' : List (JobId × TemplateId)} {note : Note}
    (h : note.Paid accepted) (hsub : accepted ⊆ accepted') : note.Paid accepted' := by
  cases note with
  | submitSharesExtended origin m => exact hsub h
  | _ => trivial

namespace ChannelManager

variable {api : ChannelsSv2} {s : ChannelManager api} {acc : List (JobId × TemplateId)}
  {d : DownstreamId}

/-- Upstream jobs are known by the template they were accepted for, and so are the shares that wait
for one. -/
structure Relays (acc : List (JobId × TemplateId)) (s : ChannelManager api) : Prop where
  upstream : ∀ {t j}, s.templateIdToUpstreamJobId t = some j → (j, t) ∈ acc
  cached : ∀ {t heap entry}, s.cachedShares t = some heap → entry ∈ heap →
    entry.origin.job.template.templateId = t

theorem Relays.mono {acc' : List (JobId × TemplateId)} (h : Relays acc s) (hsub : acc ⊆ acc') :
    Relays acc' s :=
  ⟨fun ht => hsub (h.upstream ht), h.cached⟩

/-- The shares of a template are forgotten. -/
theorem Relays.clear (h : Relays acc s) (t : TemplateId) {t' : TemplateId}
    {heap : List SharesOrderedByDiff} {entry : SharesOrderedByDiff}
    (hheap : update s.cachedShares t none t' = some heap) (hmem : entry ∈ heap) :
    entry.origin.job.template.templateId = t' := by
  by_cases heq : t' = t
  · subst heq
    rw [Function.update_self] at hheap
    cases hheap
  · rw [Function.update_of_ne heq] at hheap
    exact h.cached hheap hmem

theorem tokenFree_relays : TokenFree (@Relays api acc) (Note.Paid acc) where
  of_shareBase {s s'} h hbase := by
    have hupstream : s'.templateIdToUpstreamJobId = s.templateIdToUpstreamJobId :=
      congrArg ShareBase.templateIdToUpstreamJobId hbase
    have hcached : s'.cachedShares = s.cachedShares := congrArg ShareBase.cachedShares hbase
    exact ⟨by rw [hupstream]; exact h.upstream, by rw [hcached]; exact h.cached⟩
  note n _ hn := by
    cases n with
    | submitSharesExtended origin m => cases hn
    | _ => trivial

/-- The invariant is one that the rules of `Walk` can carry. -/
theorem carries_relays :
    Carries (@Relays api acc) (fun _ _ => True) (Note.Paid acc) (fun _ => True) where
  channel _ _ := trivial
  setChannel h _ := ⟨h.upstream, h.cached⟩
  setGroup h := ⟨h.upstream, h.cached⟩
  nextChannelId h := ⟨h.upstream, h.cached⟩
  mapJob h := ⟨h.upstream, h.cached⟩
  mapJobs h := ⟨h.upstream, h.cached⟩
  vardiff h := ⟨h.upstream, h.cached⟩
  note _ _ := trivial
  error _ _ := trivial

/-! ### Shares -/

/-- A share that is passed on names a job that was accepted for its template. -/
theorem relayShare_relays (h : Relays acc s) {k : ChannelKind} {m : SetNewPrevHash}
    {origin : Origin} {share : SubmitSharesExtended} {solution : api.Upstream → Bytes}
    {oversized : JDCError}
    (hpaid : (share.jobId, origin.job.template.templateId) ∈ acc) :
    Passes (Relays acc) (Note.Paid acc) (s.relayShare k m origin share solution oversized) := by
  unfold relayShare
  split
  · exact .keep h
  · dsimp only
    split
    · exact .say ⟨h.upstream, h.cached⟩ (by simpa [Note.Paid] using hpaid)
    · split
      · exact .fail ⟨h.upstream, h.cached⟩ trivial
      · exact .say ⟨h.upstream, h.cached⟩ (by simpa [Note.Paid] using hpaid)
    · split
      · exact .fail ⟨h.upstream, h.cached⟩ trivial
      · exact .keep ⟨h.upstream, h.cached⟩

/-- A cached share is kept under the template of its downstream job. -/
theorem cacheShare_relays (h : Relays acc s) {t : TemplateId} {entry : SharesOrderedByDiff}
    (hentry : entry.origin.job.template.templateId = t) : Relays acc (s.cacheShare t entry) := by
  refine ⟨h.upstream, fun {t' heap entry'} hheap hmem => ?_⟩
  by_cases heq : t' = t
  · subst heq
    simp only [cacheShare, Function.update_self] at hheap
    obtain rfl := Option.some.inj hheap
    rcases mem_addShareToCache hmem with hold | rfl
    · cases hcached : s.cachedShares t' with
      | none =>
          rw [hcached] at hold
          cases hold
      | some heap =>
          rw [hcached] at hold
          exact h.cached hcached hold
    · exact hentry
  · simp only [cacheShare, Function.update_of_ne heq] at hheap
    exact h.cached hheap hmem

/-- A share of a mapped job waits under its template, or goes to the pool under a job of it. -/
theorem translateShare_relays (h : Relays acc s) {k : ChannelKind} {m : SetNewPrevHash}
    {ch : api.Channel} {msg : SubmitSharesExtended} {res : ShareValidationResult}
    (hmapped : s.jobTemplateId (d, msg.channelId, msg.jobId) = some res.job.template.templateId) :
    Passes (Relays acc) (Note.Paid acc) (s.translateShare k d m ch msg res) := by
  unfold translateShare
  split
  · exact .keep h
  · dsimp only
    split
    · exact .fail h trivial
    · split
      · exact .fail h trivial
      · rw [hmapped]
        cases hupstream : s.templateIdToUpstreamJobId res.job.template.templateId with
        | none =>
            simp only [Option.bind_some, hupstream]
            exact .keep (cacheShare_relays h rfl)
        | some jobId =>
            simp only [Option.bind_some, hupstream]
            exact relayShare_relays h (h.upstream hupstream)

/-- For any validation whose job is one of the channel's. -/
theorem submitShares_relays (h : Relays acc s) {k : ChannelKind} {msg : SubmitSharesExtended}
    {validate : api.Channel → api.Channel × Except ShareValidationError ShareValidationResult}
    (hvalidate : ∀ ch res, (validate ch).2 = .ok res →
      res.job ∈ api.jobs ch ∧ res.job.jobId = msg.jobId)
    (hmapped : ∀ ch j, s.channel? d k msg.channelId = some ch → j ∈ api.jobs ch →
      s.jobTemplateId (d, msg.channelId, j.jobId) = some j.template.templateId) :
    Passes (Relays acc) (Note.Paid acc) (s.submitShares k d msg validate) := by
  unfold submitShares
  split
  · exact .fail h trivial
  · split
    · exact .fail h trivial
    · split
      · exact .say h (by simp [Note.Paid])
      · rename_i ch hch
        have h' : Relays acc (s.setChannel d k msg.channelId (validate ch).1) :=
          ⟨h.upstream, h.cached⟩
        refine checkVardiff_leaves ?_ (fun _ _ => trivial) fun _ _ _ => trivial
        cases hres : (validate ch).2 with
        | error e =>
            dsimp only
            split
            · exact .fail h' trivial
            · exact .say h' (by simp [Note.Paid])
        | ok res =>
            obtain ⟨hmem, hid⟩ := hvalidate ch res hres
            have hjob := hmapped ch res.job hch hmem
            rw [hid] at hjob
            have hvalue := acknowledgeShare_value d (validate ch).1 msg res
              (s.setChannel d k msg.channelId (validate ch).1)
            refine Leaves.andThen (acknowledgeShare_leaves h' (fun _ _ => trivial)
              (fun _ _ _ _ _ => trivial) trivial) fun _ h => translateShare_relays h ?_
            rw [hvalue]
            exact hjob

/-! ### The answers to a custom job -/

/-- The custom job an event accepts. -/
def acceptedJob (s : ChannelManager api) : Event → List (JobId × TemplateId)
  | .setCustomMiningJobSuccess r j =>
      if s.mode = .soloMining then []
      else ((s.declaredJob? r).map fun job => (j, job.template.templateId)).toList
  | _ => []

/-- The cached shares of the template go out under the job that was accepted for it. -/
theorem handleSetCustomMiningJobSuccess_relays {r : RequestId} {j : JobId} (h : Relays acc s)
    (haccepted : ∀ job, s.declaredJob? r = some job → (j, job.template.templateId) ∈ acc) :
    Passes (Relays acc) (Note.Paid acc) (s.handleSetCustomMiningJobSuccess r j) := by
  unfold handleSetCustomMiningJobSuccess
  cases hjob : s.declaredJob? r with
  | none => exact .fail h trivial
  | some job =>
      have hpair := haccepted job hjob
      have hset : ∀ s' : ChannelManager api,
          s'.templateIdToUpstreamJobId =
            update s.templateIdToUpstreamJobId job.template.templateId (some j) →
          s'.cachedShares = update s.cachedShares job.template.templateId none →
          Relays acc s' := by
        intro s' hupstream hcached
        refine ⟨fun {t j'} ht => ?_, fun hheap hmem => h.clear _ (hcached ▸ hheap) hmem⟩
        rw [hupstream] at ht
        by_cases heq : t = job.template.templateId
        · subst heq
          rw [Function.update_self] at ht
          obtain rfl := Option.some.inj ht
          exact hpair
        · rw [Function.update_of_ne heq] at ht
          exact h.upstream ht
      dsimp only
      split
      · exact .fail (hset _ rfl rfl) trivial
      · split
        · exact .fail (hset _ rfl rfl) trivial
        · split
          · exact .fail (hset _ rfl rfl) trivial
          · exact .fail (hset _ rfl rfl) trivial
          · split
            · rename_i shares _ hcached
              refine Leaves.collect (.forEach (fun entry hmem _ h' => ?_) (hset _ rfl rfl))
                fun _ h' => .keep h'
              refine relayShare_relays h' ?_
              rw [h.cached hcached hmem]
              exact hpair
            · exact .keep (hset _ rfl rfl)

theorem handleSetCustomMiningJobError_relays {r : RequestId} {code : String} (h : Relays acc s) :
    Passes (Relays acc) (Note.Paid acc) (s.handleSetCustomMiningJobError r code) := by
  unfold handleSetCustomMiningJobError
  split
  · split
    · exact .keep h
    · exact .keep ⟨h.upstream, fun hheap hmem => h.clear _ hheap hmem⟩
  · exact .fail h trivial

/-! ### The handlers that shares do not go through -/

theorem handleNewTemplate_relays (hlaw : api.Lawful) (t : NewTemplate) (h : Relays acc s) :
    Passes (Relays acc) (Note.Paid acc) (s.handleNewTemplate t) := by
  unfold handleNewTemplate
  dsimp only
  split
  · exact .fail ⟨h.upstream, h.cached⟩ trivial
  · refine Leaves.andThen (.say ⟨h.upstream, h.cached⟩ fun n hn => ?_) fun _ h => ?_
    · split at hn
      · obtain rfl := List.mem_singleton.mp hn
        trivial
      · cases hn
    · refine Leaves.collect (.forEach (fun d _ s h => ?_) h) fun _ h =>
        tokenFree_relays.declarationFree.allocateTokenIf _ h
      exact carries_relays.newTemplateDownstream hlaw ⟨fun _ _ => trivial, fun _ _ _ _ => trivial⟩
        (fun s h => tokenFree_relays.declarationFree.sendCustomJob (fun _ _ => trivial) h) h

theorem handleSetNewPrevHash_relays (m : SetNewPrevHash) (h : Relays acc s) :
    Passes (Relays acc) (Note.Paid acc) (s.handleSetNewPrevHash m) := by
  unfold handleSetNewPrevHash
  split
  · exact .fail h trivial
  · refine Leaves.andThen (.say ⟨h.upstream, nofun⟩ fun n hn => ?_) fun _ h => ?_
    · unfold declareFuture at hn
      split at hn
      · split at hn
        · obtain rfl := List.mem_singleton.mp hn
          trivial
        · cases hn
      · cases hn
    · have hd : DeclarationFree (@Relays api acc) _ := tokenFree_relays.declarationFree
      refine Leaves.collect (.andThen (hd.sendCustomJob (fun _ _ => trivial) h) fun _ h =>
        ?_) fun _ h =>
        hd.allocateTokenIf _ h
      exact .forEach (fun d _ s h => carries_relays.prevHashDownstream (fun _ _ => trivial) h) h

theorem handleOpenMiningChannel_relays (r : PendingChannelRequest) (slot : Nat) (h : Relays acc s) :
    Passes (Relays acc) (Note.Paid acc) (s.handleOpenMiningChannel r slot) :=
  carries_relays.handleOpenMiningChannel
    ⟨fun _ _ _ _ _ _ _ _ _ => trivial, fun _ _ _ _ _ _ _ _ _ => trivial⟩ h

theorem handleDownstreamOpen_relays (r : PendingChannelRequest) (slot : Nat) (h : Relays acc s) :
    Passes (Relays acc) (Note.Paid acc) (s.handleDownstreamOpen r slot) := by
  unfold handleDownstreamOpen
  split
  · exact .say ⟨h.upstream, h.cached⟩ (by simp [Note.Paid])
  · exact .keep ⟨h.upstream, h.cached⟩
  · exact handleOpenMiningChannel_relays r slot h
  · exact handleOpenMiningChannel_relays r slot h

theorem handleOpenExtendedMiningChannelSuccess_relays (m : OpenExtendedMiningChannelSuccess)
    (slots : Nat → Nat) (h : Relays acc s) :
    Passes (Relays acc) (Note.Paid acc) (s.handleOpenExtendedMiningChannelSuccess m slots) := by
  have hcustom : ∀ (u : api.Upstream) (token : Option AllocateMiningJobTokenSuccess)
      (outputs : List TxOut) (s' : ChannelManager api), Relays acc s' →
        Relays acc (s'.upstreamCustomJob u token outputs).1 := by
    intro u token outputs s' h
    unfold upstreamCustomJob
    split
    · exact ⟨h.upstream, h.cached⟩
    · exact h
  unfold handleOpenExtendedMiningChannelSuccess
  split
  · exact .fail h trivial
  · rename_i outputs _
    split
    · exact .fail h trivial
    · split
      · exact .say ⟨h.upstream, h.cached⟩ (by simp [Note.Paid])
      · rename_i first _
        dsimp only
        split
        · exact .say ⟨h.upstream, h.cached⟩ (by simp [Note.Paid])
        · have hjob := hcustom (s.upstreamOf m first.message.nominalHashRate)
            (s.takeToken s.wantsUpstreamToken).1 outputs (s.takeToken s.wantsUpstreamToken).2
            ⟨h.upstream, h.cached⟩
          refine Leaves.andThen (.say ⟨hjob.upstream, hjob.cached⟩ fun n hn => ?_) fun _ h => ?_
          · rcases List.mem_append.mp hn with hn | hn
            · split at hn
              · obtain rfl := List.mem_singleton.mp hn
                trivial
              · cases hn
            · split at hn
              · obtain rfl := List.mem_singleton.mp hn
                trivial
              · cases hn
          · refine (tokenFree_relays.declarationFree.allocateTokenIf _ h).andThen fun _ h => ?_
            exact .forEach (fun r _ s h => handleOpenMiningChannel_relays r.1 _ h)
              ⟨h.upstream, h.cached⟩

theorem handleSetExtranoncePrefix_relays (q : Bytes)
    (slots : DownstreamId → ChannelKind → ChannelId → Nat) (h : Relays acc s) :
    Passes (Relays acc) (Note.Paid acc) (s.handleSetExtranoncePrefix q slots) := by
  have hreassign : ∀ d k c (s' : ChannelManager api), Relays acc s' →
      Passes (Relays acc) (Note.Paid acc) (reassignPrefix slots d k c s') := by
    intro d k c s' h
    unfold reassignPrefix
    split
    · exact .keep h
    · dsimp only
      split
      · exact .keep h
      · split
        · exact .keep h
        · exact .say ⟨h.upstream, h.cached⟩ (by simp [Note.Paid])
  unfold handleSetExtranoncePrefix
  split
  · exact .keep h
  · split
    · exact .fail h trivial
    · split
      · exact .fail h trivial
      · dsimp only
        split
        · exact .fail ⟨h.upstream, h.cached⟩ trivial
        · split
          · exact .fail ⟨h.upstream, h.cached⟩ trivial
          · refine .forEach (fun d _ s h => ?_) ⟨h.upstream, h.cached⟩
            exact (Leaves.forEach (fun c _ s h => hreassign d .standard c s h) h).andThen fun _ h =>
              .forEach (fun c _ s h => hreassign d .extended c s h) h

/-- The condition under which the share handlers find the template of a job. -/
def MapsTemplates (s : ChannelManager api) : Prop :=
  ∀ {d k c ch j}, s.channel? d k c = some ch → j ∈ api.jobs ch →
    s.jobTemplateId (d, c, j.jobId) = some j.template.templateId

/-- Every event keeps the invariant, with the job it accepts. -/
theorem handle_relays (hlaw : api.Lawful) (e : Event) (h : Relays acc s)
    (hmapped : s.MapsTemplates) :
    Passes (Relays (acc ++ s.acceptedJob e)) (Note.Paid (acc ++ s.acceptedJob e)) (handle e s) := by
  have hacc : ∀ {o : Handled api}, Passes (Relays acc) (Note.Paid acc) o →
      Passes (Relays (acc ++ s.acceptedJob e)) (Note.Paid (acc ++ s.acceptedJob e)) o := fun ho =>
    ho.mono (fun _ h => h.mono (List.subset_append_left _ _))
      (fun _ h => h.mono (List.subset_append_left _ _)) fun _ h => h
  have hfree : TokenFree (@Relays api acc) (Note.Paid acc) := tokenFree_relays
  unfold handle
  split
  · exact hacc (.keep h)
  · rename_i hmode
    cases e with
    | activate mode => exact hacc (.keep ⟨h.upstream, h.cached⟩)
    | requestInitialTokens =>
        refine hacc (Leaves.andThen (hfree.declarationFree.allocateTokenIf true ?_) fun _ h =>
          hfree.declarationFree.allocateTokenIf true h)
        exact ⟨h.upstream, h.cached⟩
    | connect r =>
        obtain ⟨i, ds, hvalue, hnotes, -⟩ := connect_spec s r
        refine hacc ⟨?_, ?_, fun _ _ => trivial⟩
        · simp only [handler, hvalue]
          exact ⟨h.upstream, h.cached⟩
        · simp only [handler, hnotes]
          intro n hn
          cases hn
    | disconnect d => exact hacc (.keep ⟨h.upstream, h.cached⟩)
    | newTemplate t => exact hacc (handleNewTemplate_relays hlaw t h)
    | requestTxDataSuccess i txs excess =>
        exact hacc (hfree.declarationFree.handleRequestTxDataSuccess h)
    | setNewPrevHash m => exact hacc (handleSetNewPrevHash_relays m h)
    | allocateMiningJobTokenSuccess m => exact hacc (hfree.handleAllocateMiningJobTokenSuccess h)
    | declareMiningJobSuccess r token =>
        exact hacc (hfree.declarationFree.handleDeclareMiningJobSuccess h)
    | declareMiningJobError code =>
        refine hacc ?_
        simp only [handler, handleDeclareMiningJobError]
        split
        · exact .keep h
        · exact .fail h trivial
    | openExtendedMiningChannelSuccess m slots =>
        exact hacc (handleOpenExtendedMiningChannelSuccess_relays m slots h)
    | openStandardMiningChannelSuccess => exact hacc (.fail h trivial)
    | openMiningChannelError => exact hacc (.fail h trivial)
    | closeUpstreamChannel => exact hacc (.fail ⟨h.upstream, h.cached⟩ trivial)
    | setExtranoncePrefix q slots => exact hacc (handleSetExtranoncePrefix_relays q slots h)
    | setCustomMiningJobSuccess r j =>
        refine handleSetCustomMiningJobSuccess_relays (h.mono (List.subset_append_left _ _))
          fun job hjob => List.mem_append_right _ ?_
        have hsolo : s.mode ≠ .soloMining := by simpa [Event.fromUpstream] using hmode
        simp [acceptedJob, hsolo, hjob]
    | setCustomMiningJobError r code => exact hacc (handleSetCustomMiningJobError_relays h)
    | openMiningChannel r slot => exact hacc (handleDownstreamOpen_relays r slot h)
    | closeChannel d c =>
        obtain ⟨ds, vardiff, hvalue, hnotes, -⟩ := handleCloseChannel_spec s d c
        refine hacc ⟨?_, ?_, fun _ _ => trivial⟩
        · simp only [handler, hvalue]
          exact ⟨h.upstream, h.cached⟩
        · simp only [handler, hnotes]
          intro n hn
          cases hn
    | submitSharesStandard d m =>
        exact hacc (submitShares_relays h (fun ch res hres => hlaw.validateStandard_ok hres)
          fun ch j hch hj => hmapped hch hj)
    | submitSharesExtended d m =>
        exact hacc (submitShares_relays h (fun ch res hres => hlaw.validateExtended_ok hres)
          fun ch j hch hj => hmapped hch hj)

/-! ### Events -/

variable {n : api.JobCounters} {p : List TemplateId} {x : Option NewTemplate}
  {y : Option SetNewPrevHash}

/-- The handlers of all events but those of template messages. -/
theorem handler_feeding (hlaw : api.Lawful) (law : n.Lawful) (htimely : Timely p x y) (e : Event)
    (htemplate : ∀ t, e ≠ .newTemplate t) (hprevHash : ∀ m, e ≠ .setNewPrevHash m)
    (h : Feeding n (fun _ => p) x y s) :
    Passes (Feeding n (fun _ => p) x y) (fun _ => True) (handler e s) := by
  cases e with
  | activate mode => exact .keep ⟨h.ready, h.template, h.prevHash⟩
  | requestInitialTokens =>
      refine Leaves.andThen (shareFree_feeding.declarationFree.allocateTokenIf true ?_) fun _ h =>
        shareFree_feeding.declarationFree.allocateTokenIf true h
      exact ⟨h.ready, h.template, h.prevHash⟩
  | connect r => exact connect_feeding law h r
  | disconnect d => exact .keep (removeDownstream_feeding h d)
  | newTemplate t => exact absurd rfl (htemplate t)
  | requestTxDataSuccess i txs excess =>
      exact shareFree_feeding.declarationFree.handleRequestTxDataSuccess h
  | setNewPrevHash m => exact absurd rfl (hprevHash m)
  | allocateMiningJobTokenSuccess m =>
      exact shareFree_feeding.handleAllocateMiningJobTokenSuccess h
  | declareMiningJobSuccess r token =>
      exact shareFree_feeding.declarationFree.handleDeclareMiningJobSuccess h
  | declareMiningJobError code =>
      simp only [handler, handleDeclareMiningJobError]
      split
      · exact .keep h
      · exact .fail h trivial
  | openExtendedMiningChannelSuccess m slots =>
      exact handleOpenExtendedMiningChannelSuccess_feeding hlaw law htimely m slots h
  | openStandardMiningChannelSuccess => exact .fail h trivial
  | openMiningChannelError => exact .fail h trivial
  | closeUpstreamChannel => exact .fail ⟨h.ready, h.template, h.prevHash⟩ trivial
  | setExtranoncePrefix q slots => exact handleSetExtranoncePrefix_feeding hlaw law h q slots
  | setCustomMiningJobSuccess r j => exact shareFree_feeding.handleSetCustomMiningJobSuccess h
  | setCustomMiningJobError r code => exact shareFree_feeding.handleSetCustomMiningJobError h
  | openMiningChannel r slot => exact handleDownstreamOpen_feeding hlaw law htimely r slot h
  | closeChannel d c => exact handleCloseChannel_feeding law h d c
  | submitSharesStandard d m =>
      exact submitShares_feeding h fun ch => ⟨hlaw.validateStandard.2, law.validateStandard⟩
  | submitSharesExtended d m =>
      exact submitShares_feeding h fun ch => ⟨hlaw.validateExtended.2, law.validateExtended⟩

/-- Every job id a channel can accept a share for is mapped to the template of the job. -/
theorem Feeding.mapsTemplates {w : DownstreamId → List TemplateId} (h : Feeding n w x y s) :
    s.MapsTemplates := by
  intro d k c ch j hch hj
  obtain ⟨ds, hds, hl⟩ := channel?_eq_some.mp hch
  obtain ⟨⟨f, hmaps⟩, -⟩ := h.ready hds
  exact hmaps.mapped hl hj

end ChannelManager

/-! ### Runs -/

/-- The client, with the ids of the templates it was given, those of the future ones that wait for
their previous hash, and the custom jobs the pool accepted with their templates. -/
structure Fed (api : ChannelsSv2) where
  client : Client api
  sent : List TemplateId
  pending : List TemplateId
  accepted : List (JobId × TemplateId)

namespace Fed

variable {api : ChannelsSv2} {n : api.JobCounters}

def start (coinbaseOutputs : Bytes) (reserved : Nat) : Fed api :=
  ⟨.start coinbaseOutputs reserved, [], [], []⟩

def step (x : Fed api) (e : Event) : Fed api :=
  if x.client.running then
    { client := x.client.step e
      sent := match e with
        | .newTemplate t => t.templateId :: x.sent
        | _ => x.sent
      pending := match e with
        | .newTemplate t => t.pending x.pending
        | .setNewPrevHash _ => []
        | _ => x.pending
      accepted := x.accepted ++ x.client.manager.acceptedJob e }
  else x

/-- A template has a new id, and a previous hash names a future template that was sent since the
last previous hash. -/
def Provides (x : Fed api) : Event → Prop
  | .newTemplate t => t.templateId ∉ x.sent
  | .setNewPrevHash m => m.templateId ∈ x.pending
  | _ => True

instance (x : Fed api) (e : Event) : Decidable (x.Provides e) :=
  match e with
  | .newTemplate t => inferInstanceAs (Decidable (t.templateId ∉ x.sent))
  | .setNewPrevHash m => inferInstanceAs (Decidable (m.templateId ∈ x.pending))
  | .activate _ | .requestInitialTokens | .connect _ | .disconnect _ | .requestTxDataSuccess ..
  | .allocateMiningJobTokenSuccess _ | .declareMiningJobSuccess .. | .declareMiningJobError _
  | .openExtendedMiningChannelSuccess .. | .openStandardMiningChannelSuccess
  | .openMiningChannelError | .closeUpstreamChannel | .setExtranoncePrefix ..
  | .setCustomMiningJobSuccess .. | .setCustomMiningJobError .. | .openMiningChannel ..
  | .closeChannel .. | .submitSharesStandard .. | .submitSharesExtended .. => .isTrue trivial

/-- While the client runs, every job of an open channel is mapped to its template; and every share
that went to the pool names a job that the pool accepted for the template of the downstream job. -/
structure MapsAndPays (x : Fed api) : Prop where
  maps : x.client.running = true → x.client.manager.MapsTemplates
  pays : ∀ origin m, .submitSharesExtended origin m ∈ x.client.history →
    (m.jobId, origin.job.template.templateId) ∈ x.accepted

/-- The invariant of a running client. -/
structure Served (x : Fed api) (n : api.JobCounters) : Prop where
  feeding : x.client.manager.Feeding n (fun _ => x.pending) x.client.manager.lastFutureTemplate
    x.client.manager.lastNewPrevHash
  known : x.pending ⊆ x.sent
  future : ∀ t, x.client.manager.lastFutureTemplate = some t →
    t.futureTemplate = true ∧ (x.pending = [] ∨ t.templateId ∈ x.pending)
  prevHash : ∀ m, x.client.manager.lastNewPrevHash = some m →
    m.templateId ∈ x.sent ∧ m.templateId ∉ x.pending

structure Inv (x : Fed api) (n : api.JobCounters) : Prop where
  served : x.client.running = true → x.Served n
  relays : x.client.manager.Relays x.accepted
  paid : ∀ note ∈ x.client.history, note.Paid x.accepted

/-- The order of the provider is what new channels need. -/
theorem Served.timely {x : Fed api} (h : x.Served n) :
    ChannelManager.Timely x.pending x.client.manager.lastFutureTemplate
      x.client.manager.lastNewPrevHash where
  future t ht := (h.future t ht).1
  done t m ht hm heq := by
    rcases (h.future t ht).2 with hnil | hmem
    · exact hnil
    · exact absurd (heq ▸ hmem) (h.prevHash m hm).2

/-- A template the client goes on after. -/
theorem served_newTemplate (hlaw : api.Lawful) (law : n.Lawful) {x : Fed api} {t : NewTemplate}
    (h : x.Served n) (hnew : t.templateId ∉ x.sent) (hrun : x.client.running = true)
    (hgoes : (x.step (.newTemplate t)).client.running = true) :
    (x.step (.newTemplate t)).Served n := by
  have hhandle : ChannelManager.handle (.newTemplate t) x.client.manager =
      x.client.manager.handleNewTemplate t := by
    simp [ChannelManager.handle, Event.fromUpstream, ChannelManager.handler]
  have hends := ChannelManager.handleNewTemplate_ends hlaw law (t := t) h.feeding
  simp only [step, hrun, if_true, Client.step, hhandle] at hgoes ⊢
  have hok : (x.client.manager.handleNewTemplate t).error = none := by
    cases he : (x.client.manager.handleNewTemplate t).error with
    | none => rfl
    | some e => exact absurd (hends.error e he) ((ChannelManager.goesOn_iff _).mp hgoes e he)
  have hfeeding := hends.value hok
  have hmanager : Client.managerAfter (x.client.manager.handleNewTemplate t) =
      (x.client.manager.handleNewTemplate t).value := by
    simp only [Client.managerAfter, hok]
  rw [hmanager]
  refine ⟨?_, ?_, fun t' ht' => ?_, fun m hm => ?_⟩
  · rw [hfeeding.template, hfeeding.prevHash]
    exact hfeeding
  · unfold NewTemplate.pending
    split
    · exact List.cons_subset_cons _ h.known
    · exact List.subset_cons_of_subset _ h.known
  · rw [hfeeding.template] at ht'
    unfold NewTemplate.pending
    split at ht'
    · rename_i hfuture
      obtain rfl := Option.some.inj ht'
      rw [if_pos hfuture]
      exact ⟨hfuture, .inr List.mem_cons_self⟩
    · rename_i hfuture
      rw [if_neg hfuture]
      exact h.future t' ht'
  · rw [hfeeding.prevHash] at hm
    obtain ⟨hsent, hpending⟩ := h.prevHash m hm
    refine ⟨List.mem_cons_of_mem _ hsent, ?_⟩
    unfold NewTemplate.pending
    split
    · intro hmem
      rcases List.mem_cons.mp hmem with heq | hmem
      · exact hnew (heq ▸ hsent)
      · exact hpending hmem
    · exact hpending

/-- A previous hash the client goes on after. -/
theorem served_setNewPrevHash (hlaw : api.Lawful) (law : n.Lawful) {x : Fed api}
    {m : SetNewPrevHash} (h : x.Served n) (hm : m.templateId ∈ x.pending)
    (hrun : x.client.running = true) (hgoes : (x.step (.setNewPrevHash m)).client.running = true) :
    (x.step (.setNewPrevHash m)).Served n := by
  have hhandle : ChannelManager.handle (.setNewPrevHash m) x.client.manager =
      x.client.manager.handleSetNewPrevHash m := by
    simp [ChannelManager.handle, Event.fromUpstream, ChannelManager.handler]
  have hends := ChannelManager.handleSetNewPrevHash_ends hlaw law hm h.feeding
  simp only [step, hrun, if_true, Client.step, hhandle] at hgoes ⊢
  have hok : (x.client.manager.handleSetNewPrevHash m).error = none := by
    cases he : (x.client.manager.handleSetNewPrevHash m).error with
    | none => rfl
    | some e => exact absurd (hends.error e he) ((ChannelManager.goesOn_iff _).mp hgoes e he)
  have hfeeding := hends.value hok
  have hmanager : Client.managerAfter (x.client.manager.handleSetNewPrevHash m) =
      (x.client.manager.handleSetNewPrevHash m).value := by
    simp only [Client.managerAfter, hok]
  rw [hmanager]
  refine ⟨?_, List.nil_subset _, fun t ht => ?_, fun m' hm' => ?_⟩
  · rw [hfeeding.template, hfeeding.prevHash]
    exact hfeeding
  · rw [hfeeding.template] at ht
    exact ⟨(h.future t ht).1, .inl rfl⟩
  · rw [hfeeding.prevHash] at hm'
    obtain rfl := Option.some.inj hm'
    exact ⟨h.known hm, List.not_mem_nil⟩

/-- Any other event. -/
theorem served_other (hlaw : api.Lawful) (law : n.Lawful) {x : Fed api} {e : Event}
    (htemplate : ∀ t, e ≠ .newTemplate t) (hprevHash : ∀ m, e ≠ .setNewPrevHash m)
    (h : x.Served n) (hrun : x.client.running = true) : (x.step e).Served n := by
  have hpasses : ChannelManager.Passes (ChannelManager.Feeding n (fun _ => x.pending)
      x.client.manager.lastFutureTemplate x.client.manager.lastNewPrevHash) (fun _ => True)
      (ChannelManager.handle e x.client.manager) := by
    unfold ChannelManager.handle
    split
    · exact .keep h.feeding
    · exact ChannelManager.handler_feeding hlaw law h.timely e htemplate hprevHash h.feeding
  have hfeeding : ChannelManager.Feeding n (fun _ => x.pending)
      x.client.manager.lastFutureTemplate x.client.manager.lastNewPrevHash
      (Client.managerAfter (ChannelManager.handle e x.client.manager)) := by
    unfold Client.managerAfter
    split
    · exact ChannelManager.removeDownstream_feeding hpasses.value _
    · exact hpasses.value
  have hmanager : (x.step e).client.manager =
      Client.managerAfter (ChannelManager.handle e x.client.manager) := by
    simp [step, Client.step, hrun]
  have hghost : (x.step e).sent = x.sent ∧ (x.step e).pending = x.pending := by
    cases e with
    | newTemplate t => exact absurd rfl (htemplate t)
    | setNewPrevHash m => exact absurd rfl (hprevHash m)
    | _ => simp [step, hrun]
  refine ⟨?_, ?_, ?_, ?_⟩
  · rw [hmanager, hghost.2, hfeeding.template, hfeeding.prevHash]
    exact hfeeding
  · rw [hghost.1, hghost.2]
    exact h.known
  · rw [hmanager, hghost.2, hfeeding.template]
    exact h.future
  · rw [hmanager, hghost.1, hghost.2, hfeeding.prevHash]
    exact h.prevHash

theorem served_step (hlaw : api.Lawful) (law : n.Lawful) {x : Fed api} {e : Event}
    (h : x.Served n) (hprovides : x.Provides e) (hrun : x.client.running = true)
    (hgoes : (x.step e).client.running = true) : (x.step e).Served n := by
  cases e with
  | newTemplate t => exact served_newTemplate hlaw law h hprovides hrun hgoes
  | setNewPrevHash m => exact served_setNewPrevHash hlaw law h hprovides hrun hgoes
  | _ => exact served_other hlaw law nofun nofun h hrun

theorem inv_step (hlaw : api.Lawful) (law : n.Lawful) {x : Fed api} {e : Event} (h : x.Inv n)
    (hprovides : x.Provides e) : (x.step e).Inv n := by
  cases hrun : x.client.running with
  | false =>
      have hsame : x.step e = x := by simp [step, hrun]
      rw [hsame]
      exact h
  | true =>
      have hserved := h.served hrun
      have hrelays := ChannelManager.handle_relays hlaw e h.relays hserved.feeding.mapsTemplates
      have haccepted : (x.step e).accepted = x.accepted ++ x.client.manager.acceptedJob e := by
        simp [step, hrun]
      refine ⟨fun hgoes => served_step hlaw law hserved hprovides hrun hgoes, ?_, ?_⟩
      · have hmanager : (x.step e).client.manager =
            Client.managerAfter (ChannelManager.handle e x.client.manager) := by
          simp [step, Client.step, hrun]
        rw [hmanager, haccepted]
        unfold Client.managerAfter
        split
        · exact ⟨hrelays.value.upstream, hrelays.value.cached⟩
        · exact hrelays.value
      · have hhistory : (x.step e).client.history =
            x.client.history ++ (ChannelManager.handle e x.client.manager).notes := by
          simp [step, Client.step, hrun]
        rw [hhistory, haccepted]
        intro note hnote
        rcases List.mem_append.mp hnote with hold | hnew
        · exact (h.paid note hold).mono (List.subset_append_left _ _)
        · exact hrelays.notes note hnew

theorem inv_start (coinbaseOutputs : Bytes) (reserved : Nat) :
    (start coinbaseOutputs reserved : Fed api).Inv n where
  served _ := by
    refine ⟨⟨fun {d ds} hds => ?_, rfl, rfl⟩, List.nil_subset _, nofun, nofun⟩
    simp [start, Client.start, ChannelManager.new] at hds
  relays := ⟨nofun, nofun⟩
  paid _ hnote := by simp [start, Client.start] at hnote

/-- Every downstream job is mapped to its template, and shares are paid under it, in every run in
which the template provider keeps to its order. -/
theorem jobs_mapped_and_paid (hlaw : api.Lawful) (law : n.Lawful) (coinbaseOutputs : Bytes)
    (reserved : Nat) (es : List Event)
    (hprovides : Along step Provides (start coinbaseOutputs reserved : Fed api) es) :
    (exec step (start coinbaseOutputs reserved : Fed api) es).MapsAndPays := by
  have hinv := exec_induct (I := fun x => x.Inv n) (fun x e h hc => inv_step hlaw law h hc)
    (inv_start coinbaseOutputs reserved) hprovides
  exact ⟨fun hrun => (hinv.served hrun).feeding.mapsTemplates,
    fun origin m hmem => hinv.paid _ hmem⟩

/-- Two templates, a share on a job of the second one, and a share that waits for the pool's answer
on the third one. -/
def sharesRun : List Event :=
  Client.acceptedRun ++ [.submitSharesExtended 0 (Client.sampleShare 2 0),
    .newTemplate (Client.sampleTemplate 3 false), .submitSharesExtended 0 (Client.sampleShare 3 0),
    .setCustomMiningJobSuccess 4 10]

theorem sharesRun_mapped_and_paid :
    (exec step (start Client.sampleOutputs 4 : Fed reference) sharesRun).accepted =
        [(9, 2), (10, 3)] ∧
      (exec step (start Client.sampleOutputs 4 : Fed reference) sharesRun).MapsAndPays :=
  ⟨by decide +kernel, jobs_mapped_and_paid reference_lawful reference_countsJobs
    Client.sampleOutputs 4 sharesRun (by decide +kernel)⟩

end Fed

end GridPoolSv2.JobDeclaratorClient
