import GridPoolSv2.JobDeclaratorClient.RewardOutputs

/-!
# JobDeclaratorClient.OutputConstraints: coinbases within the constraints of their template

The template provider leaves room in a template for the outputs that the last
`CoinbaseOutputConstraints` announced. The client announces new constraints when the outputs of a
token differ from the stored ones, and stores the new outputs at once: what it builds from then on,
also from templates of the old constraints, has the new outputs.

* `Allotted B` says that the coinbases of the manager and of its messages have reward outputs that
  `B` allows for their template. The walk through the handlers is for any `B` that does not look at
  the value of the first output.
* `Provided` is the client and the constraints its templates were produced under. The provider goes
  on to newer constraints at any time (`Turn.adopts`), and answers requests for transactions in any
  order.
* `Provided.Fitting` is the condition on the outputs of tokens.

Proof shape: one lemma for each handler says that it keeps `Allotted B`, with the templates it
builds for (`buildsFrom`) as its condition. The runs then choose `B` to be the outputs within
the constraints a template was produced under (`AdmittedFor`); a step may produce templates
under newer constraints, but changes nothing for the older ones (`admittedFor_step`).
-/

namespace GridPoolSv2.JobDeclaratorClient

open Consensus (Bytes TxOut)
open Visit Handler

/-! ### Outputs that are allowed for a template

`Allows B b i` says that `B` has the outputs stored as the bytes `b` for the template `i`. -/

/-- `B` does not look at the value of the first output. -/
def RewardBlind (B : TemplateId → List TxOut → Prop) : Prop :=
  ∀ i o reward r, B i o → withReward reward o = some r → B i r

/-- The outputs of a coinbase for `t`: reward outputs that `B` allows, then those of the
template. -/
def Built (B : TemplateId → List TxOut → Prop) (t : NewTemplate) (outputs : List TxOut) : Prop :=
  ∃ r, B t.templateId r ∧ outputs = r ++ t.coinbaseTxOutputs

/-- The stored outputs are allowed for a template. -/
def Allows (B : TemplateId → List TxOut → Prop) (b : Bytes) (i : TemplateId) : Prop :=
  ∀ o, deserializeOutputs b = some o → B i o

theorem Built.mono {B B' : TemplateId → List TxOut → Prop} (hB : ∀ i o, B i o → B' i o)
    {t : NewTemplate} {outputs : List TxOut} (h : Built B t outputs) : Built B' t outputs := by
  obtain ⟨r, hr, rfl⟩ := h
  exact ⟨r, hB _ _ hr, rfl⟩

/-- A declared job has allowed outputs, and keeps outputs that are allowed. -/
structure DeclaredJob.Allotted (api : ChannelsSv2) (B : TemplateId → List TxOut → Prop)
    (job : DeclaredJob) : Prop where
  output : Allows B job.coinbaseOutput job.template.templateId
  declared : ∀ m, job.declareMiningJob = some m →
    Built B job.template (api.coinbaseOutputs m.coinbaseTxPrefix m.coinbaseTxSuffix)

theorem DeclaredJob.Allotted.mono {api : ChannelsSv2} {B B' : TemplateId → List TxOut → Prop}
    (hB : ∀ i o, B i o → B' i o) {job : DeclaredJob} (h : job.Allotted api B) :
    job.Allotted api B' where
  output o ho := hB _ _ (h.output o ho)
  declared m hm := (h.declared m hm).mono hB

theorem DeclaredJob.Allotted.activate {api : ChannelsSv2} {B : TemplateId → List TxOut → Prop}
    {job : DeclaredJob} (h : job.Allotted api B) (m : SetNewPrevHash) :
    (job.activate m).Allotted api B := by
  unfold DeclaredJob.activate
  split
  · exact ⟨h.output, h.declared⟩
  · exact h

/-- The constraints a message announces. -/
def Note.constraints? : Note → Option CoinbaseOutputConstraints
  | .coinbaseOutputConstraints m => some m
  | _ => none

/-- The template a message asks for. -/
def Note.requested? : Note → Option TemplateId
  | .requestTransactionData i => some i
  | _ => none

/-- A message that announces no constraints, declares allowed outputs, and asks for a template that
the stored outputs are allowed for. -/
structure Note.Allotted (api : ChannelsSv2) (B : TemplateId → List TxOut → Prop) (b : Bytes)
    (n : Note) : Prop where
  declared : ∀ t outputs, n.declared? api = some (t, outputs) → Built B t outputs
  constraints : n.constraints? = none
  requested : ∀ i, n.requested? = some i → ∃ o, deserializeOutputs b = some o ∧ B i o

namespace ChannelManager

variable {api : ChannelsSv2} {B : TemplateId → List TxOut → Prop} {s : ChannelManager api}
    {b : Bytes} {lf : Option NewTemplate}

/-- The coinbases of the channels and of the declared jobs have allowed outputs. `b` are the stored
outputs, and `lf` is the last future template. -/
structure Allotted (B : TemplateId → List TxOut → Prop) (b : Bytes) (lf : Option NewTemplate)
    (s : ChannelManager api) : Prop where
  jobs : ∀ d k c ch, s.channel? d k c = some ch → ∀ j ∈ api.jobs ch,
    Built B j.template j.coinbaseOutputs
  store : ∀ e ∈ s.lastDeclareJobStore, e.2.Allotted api B
  ids : ∀ i t, s.templateStore i = some t → t.templateId = i
  outputs : s.coinbaseOutputs = b
  future : s.lastFutureTemplate = lf

theorem Allotted.mono {B' : TemplateId → List TxOut → Prop} (hB : ∀ i o, B i o → B' i o)
    (h : Allotted B b lf s) : Allotted B' b lf s where
  jobs d k c ch hch j hj := (h.jobs d k c ch hch j hj).mono hB
  store e he := (h.store e he).mono hB
  ids := h.ids
  outputs := h.outputs
  future := h.future

/-- A change that adds no channel and no declared job. -/
theorem Allotted.of_channels {s' : ChannelManager api} (h : Allotted B b lf s)
    (hch : ∀ d k c ch, s'.channel? d k c = some ch → s.channel? d k c = some ch)
    (hstore : ∀ e ∈ s'.lastDeclareJobStore, e ∈ s.lastDeclareJobStore)
    (hids : s'.templateStore = s.templateStore) (hb : s'.coinbaseOutputs = s.coinbaseOutputs)
    (hlf : s'.lastFutureTemplate = s.lastFutureTemplate) : Allotted B b lf s' where
  jobs d k c ch h' := h.jobs d k c ch (hch d k c ch h')
  store e he := h.store e (hstore e he)
  ids i t ht := h.ids i t (hids ▸ ht)
  outputs := hb.trans h.outputs
  future := hlf.trans h.future

/-- The condition on a channel. -/
def ChannelAllotted (B : TemplateId → List TxOut → Prop) (_ : ChannelKind) (ch : api.Channel) :
    Prop :=
  ∀ j ∈ api.jobs ch, Built B j.template j.coinbaseOutputs

/-- A channel with jobs that are allowed may be written. -/
theorem Allotted.setChannel (h : Allotted B b lf s) {d : DownstreamId} {k : ChannelKind}
    {c : ChannelId} {ch : api.Channel} (hch : ChannelAllotted B k ch) :
    Allotted B b lf (s.setChannel d k c ch) where
  jobs d' k' c' ch' h' := by
    rcases channel?_setChannel h' with h' | ⟨-, rfl⟩
    · exact h.jobs d' k' c' ch' h'
    · exact hch
  store := h.store
  ids := h.ids
  outputs := h.outputs
  future := h.future

/-- The invariant is one that the rules of `Walk` can carry. -/
theorem carries_allotted :
    Carries (Allotted B b lf) (@ChannelAllotted api B) (Note.Allotted api B b)
      (fun _ => True) where
  channel h hch := h.jobs _ _ _ _ hch
  setChannel h hch := h.setChannel hch
  setGroup h := h.of_channels (fun _ _ _ _ => channel?_modifyDownstream fun _ => rfl)
    (fun _ he => he) rfl rfl rfl
  nextChannelId h := h.of_channels (fun _ _ _ _ => channel?_modifyDownstream fun _ => rfl)
    (fun _ he => he) rfl rfl rfl
  mapJob h := ⟨h.jobs, h.store, h.ids, h.outputs, h.future⟩
  mapJobs h := ⟨h.jobs, h.store, h.ids, h.outputs, h.future⟩
  vardiff h := ⟨h.jobs, h.store, h.ids, h.outputs, h.future⟩
  note _ _ := ⟨nofun, rfl, nofun⟩
  error _ _ := trivial

/-- Storing a declared job with allowed outputs. -/
theorem Allotted.storeDeclaredJob (h : Allotted B b lf s) {r : RequestId} {job : DeclaredJob}
    (hjob : job.Allotted api B) : Allotted B b lf (s.storeDeclaredJob r job) where
  jobs := h.jobs
  store e he := by
    rcases List.mem_cons.mp he with rfl | he
    · exact hjob
    · exact h.store e (List.mem_of_mem_filter he)
  ids := h.ids
  outputs := h.outputs
  future := h.future

/-! ### Building coinbases

The rules of `Walk` at this invariant. The outputs of a coinbase are the ones it is built with,
followed by those of the template. -/

/-- A channel that takes a template builds its coinbase. -/
theorem takesTemplate_allotted (hlaw : api.Lawful) {t : NewTemplate} {outputs : List TxOut}
    (h : B t.templateId outputs) : TakesTemplate (@ChannelAllotted api B) t outputs where
  onNewTemplate := by
    intro k ch ch' hjobs hok j hj
    rcases (hlaw.onNewTemplate hok).2 j hj with hj | ⟨ht, hout, -⟩
    · exact hjobs j hj
    · exact ⟨outputs, ht ▸ h, by rw [hout, ht]⟩
  onGroupChannelJob := by
    intro k ch ch' g hjobs ht hout hok j hj
    rcases (hlaw.onGroupChannelJob hok).2 j hj with hj | rfl
    · exact hjobs j hj
    · exact ⟨outputs, ht ▸ h, by rw [hout, ht]⟩

/-- A custom job has the outputs it is given. -/
theorem customJob_allotted (hlaw : api.Lawful) (h : Allotted B b lf s) {f : api.JobFactory}
    {u : api.Upstream} {token : AllocateMiningJobTokenSuccess} {m : SetNewPrevHash}
    {t : NewTemplate} {outputs : List TxOut} (ht : Allows B b t.templateId)
    (houtputs : B t.templateId outputs) :
    Allotted B b lf (s.customJob f u token m t outputs).1 ∧
      ∀ message, (s.customJob f u token m t outputs).2.2 = some message →
        Built B t message.coinbaseTxOutputs := by
  simp only [customJob]
  cases hbuilt : api.newCustomJob f (api.upstreamChannelId u) s.requestIdFactory
    token.miningJobToken m.chainTip t outputs (api.upstreamFullSize u) with
  | mk f' built =>
      cases built with
      | error e => exact ⟨⟨h.jobs, h.store, h.ids, h.outputs, h.future⟩, fun _ hm => by cases hm⟩
      | ok message =>
          have hjob : DeclaredJob.Allotted api B
              ⟨none, t, some m, some message, s.coinbaseOutputs, []⟩ :=
            ⟨h.outputs.symm ▸ ht, fun _ hm => by cases hm⟩
          have h' := h.storeDeclaredJob (r := s.requestIdFactory) hjob
          refine ⟨⟨h'.jobs, h'.store, h'.ids, h'.outputs, h'.future⟩, fun message' heq => ?_⟩
          obtain rfl := Option.some.inj heq
          exact ⟨outputs, houtputs, hlaw.newCustomJob hbuilt⟩

/-- The message of a custom job with allowed outputs. -/
theorem setCustomMiningJob_allotted {t : NewTemplate} {p : Bytes} {m : SetCustomMiningJob}
    (h : Built B t m.coinbaseTxOutputs) : (Note.setCustomMiningJob t p m).Allotted api B b where
  declared t' outputs' hdecl := by
    obtain ⟨rfl, rfl⟩ := Prod.mk.inj (Option.some.inj hdecl)
    exact h
  constraints := rfl
  requested := nofun

/-- The message of a declared job with allowed outputs. -/
theorem declareMiningJob_allotted {t : NewTemplate} {p : Bytes} {m : DeclareMiningJob}
    (h : Built B t (api.coinbaseOutputs m.coinbaseTxPrefix m.coinbaseTxSuffix)) :
    (Note.declareMiningJob t p m).Allotted api B b where
  declared t' outputs' hdecl := by
    obtain ⟨rfl, rfl⟩ := Prod.mk.inj (Option.some.inj hdecl)
    exact h
  constraints := rfl
  requested := nofun

/-- A request names a template whose outputs are allowed. -/
theorem requestTransactionData_allotted {i : TemplateId} {o : List TxOut}
    (hdec : deserializeOutputs b = some o) (h : Allows B b i) :
    (Note.requestTransactionData i).Allotted api B b where
  declared := nofun
  constraints := rfl
  requested i' hi := by
    obtain rfl := Option.some.inj hi
    exact ⟨o, hdec, h o hdec⟩

/-- The custom job that is sent is for one of the last two templates. -/
theorem sendCustomJob_allotted (hlaw : api.Lawful) (h : Allotted B b lf s)
    {token : Option AllocateMiningJobTokenSuccess} {m : Option SetNewPrevHash}
    {t : Option NewTemplate} {outputs : List TxOut}
    (ht : ∀ t' ∈ t, Allows B b t'.templateId ∧ B t'.templateId outputs) :
    Passes (Allotted B b lf) (Note.Allotted api B b) (s.sendCustomJob token m t outputs) := by
  unfold sendCustomJob
  split
  · rename_i token u m t hu
    obtain ⟨ht', houtputs⟩ := ht t rfl
    split
    · exact .fail h trivial
    · rename_i f hf
      obtain ⟨h', hmessage⟩ : Allotted B b lf (s.customJob f u token m t outputs).1 ∧
          ∀ message, (s.customJob f u token m t outputs).2.2 = some message →
            Built B t message.coinbaseTxOutputs := customJob_allotted hlaw h ht' houtputs
      have h'' : Allotted B b lf { (s.customJob f u token m t outputs).1 with
          jobFactory := some (s.customJob f u token m t outputs).2.1 } :=
        ⟨h'.jobs, h'.store, h'.ids, h'.outputs, h'.future⟩
      dsimp only
      split
      · exact .keep h''
      · rename_i message hm
        refine .say h'' fun n hn => ?_
        obtain rfl := List.mem_singleton.mp hn
        exact setCustomMiningJob_allotted (hmessage message hm)
  · exact .keep h

theorem allocateTokenIf_allotted (h : Allotted B b lf s) {taken : Bool} :
    Passes (Allotted B b lf) (Note.Allotted api B b) (s.allocateTokenIf taken) := by
  unfold allocateTokenIf
  split
  · refine .say ⟨h.jobs, h.store, h.ids, h.outputs, h.future⟩ fun n hn => ?_
    obtain rfl := List.mem_singleton.mp hn
    exact ⟨nofun, rfl, nofun⟩
  · exact .keep h

/-! ### The handlers that build -/

theorem handleNewTemplate_allotted (hlaw : api.Lawful) (hB : RewardBlind B) (h : Allotted B b lf s)
    {t : NewTemplate} (ht : Allows B b t.templateId) :
    Passes (Allotted B b (if t.futureTemplate then some t else lf)) (Note.Allotted api B b)
      (s.handleNewTemplate t) := by
  have hids : ∀ i t', Function.update s.templateStore t.templateId (some t) i = some t' →
      t'.templateId = i := by
    intro i t' hi
    by_cases heq : i = t.templateId
    · subst heq
      rw [Function.update_self] at hi
      rw [← Option.some.inj hi]
    · rw [Function.update_of_ne heq] at hi
      exact h.ids i t' hi
  rw [← h.future]
  generalize hlf : (if t.futureTemplate then some t else s.lastFutureTemplate) = lf'
  unfold handleNewTemplate
  dsimp only
  split
  · exact .fail ⟨h.jobs, h.store, hids, h.outputs, hlf⟩ trivial
  · rename_i outputs houtputs
    obtain ⟨o, hdec, ho⟩ := rewardOutputs_eq_ok houtputs
    have hreward : B t.templateId outputs := hB _ _ _ _ (ht o (h.outputs ▸ hdec)) ho
    refine (Leaves.say ⟨h.jobs, h.store, hids, h.outputs, hlf⟩ fun n hn => ?_).andThen fun _ h' =>
      ?_
    · split at hn
      · obtain rfl := List.mem_singleton.mp hn
        exact requestTransactionData_allotted (h.outputs ▸ hdec) ht
      · cases hn
    · refine (Leaves.forEach (fun d _ s' hs' => ?_) h').collect fun _ h' =>
        allocateTokenIf_allotted h'
      refine carries_allotted.newTemplateDownstream hlaw (takesTemplate_allotted hlaw hreward)
        (fun s'' hs'' => sendCustomJob_allotted hlaw hs'' fun t' ht' => ?_) hs'
      obtain rfl := Option.mem_some_iff.mp ht'
      exact ⟨ht, hreward⟩

theorem declareJob_allotted (hlaw : api.Lawful) (h : Allotted B b lf s) {requestId : RequestId}
    {prevHash : Option SetNewPrevHash} {token : AllocateMiningJobTokenSuccess} {t : NewTemplate}
    {o outputs : List TxOut} {txs : List Bytes} {excess : Bytes} (ht : B t.templateId outputs)
    (hdec : deserializeOutputs b = some o)
    (hreward : withReward t.coinbaseTxValueRemaining o = some outputs) :
    Passes (Allotted B b lf) (Note.Allotted api B b)
      (s.declareJob requestId prevHash token t outputs txs excess) := by
  unfold declareJob
  split
  · exact .fail h trivial
  · split
    · exact .fail h trivial
    · split
      · dsimp only
        have hkeep : ∀ f : api.JobFactory, Allotted B b lf { s with jobFactory := some f } :=
          fun f => ⟨h.jobs, h.store, h.ids, h.outputs, h.future⟩
        split
        · exact .keep (hkeep _)
        · rename_i p q hpq
          split
          · exact .fail (hkeep _) trivial
          · have hcoinbase : api.coinbaseOutputs p q = outputs ++ t.coinbaseTxOutputs :=
              hlaw.newCoinbaseTxPrefixAndSuffix (Prod.ext rfl hpq)
            obtain ⟨rfl, -⟩ := withReward_eq_some hreward
            have hjob : ∀ message : DeclareMiningJob, message.coinbaseTxPrefix = p →
                message.coinbaseTxSuffix = q →
                  DeclaredJob.Allotted api B ⟨some message, t, prevHash, none,
                    TxOut.encodeVec (setReward t.coinbaseTxValueRemaining o), txs⟩ := by
              rintro message rfl rfl
              refine ⟨fun o' ho' => ?_, fun m hm => ?_⟩
              · rw [deserializeOutputs_encodeVec hdec] at ho'
                obtain rfl := Option.some.inj ho'
                exact ht
              · obtain rfl := Option.some.inj hm
                exact ⟨_, ht, hcoinbase⟩
            split
            · exact .keep ((hkeep _).storeDeclaredJob (hjob _ rfl rfl))
            · refine .say ((hkeep _).storeDeclaredJob (hjob _ rfl rfl)) fun n hn => ?_
              obtain rfl := List.mem_singleton.mp hn
              exact declareMiningJob_allotted ⟨_, ht, hcoinbase⟩
      · exact .keep h

theorem handleRequestTxDataSuccess_allotted (hlaw : api.Lawful) (hB : RewardBlind B)
    (h : Allotted B b lf s) {i : TemplateId} {txs : List Bytes} {excess : Bytes}
    (hi : Allows B b i) :
    Passes (Allotted B b lf) (Note.Allotted api B b)
      (s.handleRequestTxDataSuccess i txs excess) := by
  have hids : ∀ j t, Function.update s.templateStore i none j = some t → t.templateId = j := by
    intro j t hj
    by_cases heq : j = i
    · subst heq
      rw [Function.update_self] at hj
      cases hj
    · rw [Function.update_of_ne heq] at hj
      exact h.ids j t hj
  unfold handleRequestTxDataSuccess
  split
  · exact .fail h trivial
  · rename_i o hdec
    dsimp only
    refine Leaves.andThen (.say ⟨h.jobs, h.store, hids, h.outputs, h.future⟩ fun n hn => ?_)
      fun _ h' => ?_
    · obtain rfl := List.mem_singleton.mp hn
      exact ⟨nofun, rfl, nofun⟩
    · split
      · exact .keep h'
      · split
        · exact .fail h' trivial
        · rename_i t ht
          split
          · exact .fail h' trivial
          · rename_i outputs houtputs
            have hdec' : deserializeOutputs b = some o := h.outputs ▸ hdec
            obtain rfl : t.templateId = i := h.ids i t ht
            exact declareJob_allotted hlaw h' (hB _ _ _ _ (hi o hdec') houtputs) hdec' houtputs

/-- A declaration that was built is sent as it is. -/
theorem declareFuture_allotted (h : Allotted B b lf s) :
    ∀ n ∈ s.declareFuture, n.Allotted api B b := by
  intro n hn
  unfold declareFuture at hn
  split at hn
  · split at hn
    · rename_i message t prevHash custom output txs hjob
      obtain rfl := List.mem_singleton.mp hn
      obtain ⟨r, hmem, -⟩ := mem_futureDeclaredJob hjob
      exact declareMiningJob_allotted ((h.store _ hmem).declared message rfl)
    · cases hn
  · cases hn

/-- The jobs are in the channels already. A custom job is built for the last future template. -/
theorem handleSetNewPrevHash_allotted (hlaw : api.Lawful) (h : Allotted B b lf s)
    {m : SetNewPrevHash} (hlf : ∀ t ∈ lf, Allows B b t.templateId) :
    Passes (Allotted B b lf) (Note.Allotted api B b) (s.handleSetNewPrevHash m) := by
  unfold handleSetNewPrevHash
  split
  · exact .fail h trivial
  · rename_i o hdec
    dsimp only
    have hstart : Allotted B b lf
        ((s.applyPrevHash m).takeToken
          (s.mode = .coinbaseOnly && s.lastFutureTemplate.isSome)).2 := by
      refine ⟨h.jobs, fun e he => ?_, h.ids, h.outputs, h.future⟩
      obtain ⟨e', he', rfl⟩ := List.mem_map.mp he
      exact (h.store e' he').activate m
    refine (Leaves.say (by exact hstart) (declareFuture_allotted h)).andThen fun _ h' => ?_
    refine (Leaves.andThen (sendCustomJob_allotted hlaw h' fun t ht => ?_) fun _ h' =>
      .forEach (fun d _ s' hs' => ?_) h').collect fun _ h' => allocateTokenIf_allotted h'
    · have hallows : Allows B b t.templateId := hlf t (h.future ▸ ht)
      exact ⟨hallows, hallows o (h.outputs ▸ hdec)⟩
    · refine carries_allotted.prevHashDownstream (fun hjobs hok j hj => ?_) hs'
      exact hjobs j ((hlaw.onSetNewPrevHash hok).2.2 j hj)

/-- The outputs of the declared job go into its custom job. -/
theorem handleDeclareMiningJobSuccess_allotted (hlaw : api.Lawful) (h : Allotted B b lf s)
    {r : RequestId} {token : Bytes} :
    Passes (Allotted B b lf) (Note.Allotted api B b) (s.handleDeclareMiningJobSuccess r token) := by
  unfold handleDeclareMiningJobSuccess
  split
  · exact .fail h trivial
  · rename_i job hjob
    have hallotted : job.Allotted api B := by
      obtain ⟨before, after, hstore, -⟩ := List.lookup_eq_some_iff.mp hjob
      exact h.store (r, job) (by rw [hstore]; simp)
    split
    · exact .fail h trivial
    · split
      · exact .fail h trivial
      · rename_i outputs hdec
        split
        · rename_i u f hu hf
          dsimp only
          have hkeep : ∀ f : api.JobFactory, Allotted B b lf { s with jobFactory := some f } :=
            fun f => ⟨h.jobs, h.store, h.ids, h.outputs, h.future⟩
          split
          · exact .fail (hkeep _) trivial
          · rename_i message hmessage
            refine .say ((hkeep _).storeDeclaredJob ⟨hallotted.output, hallotted.declared⟩)
              fun n hn => ?_
            obtain rfl := List.mem_singleton.mp hn
            exact setCustomMiningJob_allotted
              ⟨outputs, hallotted.output outputs hdec, hlaw.newCustomJob (Prod.ext rfl hmessage)⟩
        · exact .fail h trivial

/-- A new channel has a job of the last future template. -/
theorem opensChannel_allotted (hlaw : api.Lawful) (hB : RewardBlind B)
    (hlf : ∀ t ∈ lf, Allows B b t.templateId) :
    OpensChannel (fun s : ChannelManager api => Allotted B b lf s) (ChannelAllotted B) := by
  have hopen : ∀ {s : ChannelManager api} {ch ch' ch'' : api.Channel} {t : NewTemplate}
      {m : SetNewPrevHash} {o outputs : List TxOut}, Allotted B b lf s →
      s.lastFutureTemplate = some t → api.jobs ch = [] →
      deserializeOutputs s.coinbaseOutputs = some o →
      withReward t.coinbaseTxValueRemaining o = some outputs →
      api.channel.onNewTemplate ch t outputs = .ok ch' →
      api.channel.onSetNewPrevHash ch' m = .ok ch'' →
      ∀ j ∈ api.jobs ch'', Built B j.template j.coinbaseOutputs := by
    intro s ch ch' ch'' t m o outputs h ht hnew hdec houtputs hok hok' j hj
    have hj' := (hlaw.onSetNewPrevHash hok').2.2 j hj
    rcases (hlaw.onNewTemplate hok).2 j hj' with hj' | ⟨htemplate, hout, -⟩
    · rw [hnew] at hj'
      cases hj'
    · have hallows : Allows B b t.templateId := hlf t (h.future ▸ ht)
      exact ⟨outputs, htemplate ▸ hB _ _ _ _ (hallows o (h.outputs ▸ hdec)) houtputs,
        by rw [hout, htemplate]⟩
  constructor
  · intro s slot p c msg ch t m o outputs ch' ch'' h ht hm hp hch hdec houtputs hok hok'
    exact hopen h ht (hlaw.newStandard hch).1 hdec houtputs hok hok'
  · intro s slot p c msg n ch t m o outputs ch' ch'' h ht hm hp hch hdec houtputs hok hok'
    exact hopen h ht (hlaw.newExtended hch).1 hdec houtputs hok hok'

theorem handleDownstreamOpen_allotted (hlaw : api.Lawful) (hB : RewardBlind B)
    (h : Allotted B b lf s) (hlf : ∀ t ∈ lf, Allows B b t.templateId) {r : PendingChannelRequest}
    {slot : Nat} :
    Passes (Allotted B b lf) (Note.Allotted api B b) (s.handleDownstreamOpen r slot) := by
  have hkeep : ∀ (u : UpstreamState) (p : List PendingChannelRequest),
      Allotted B b lf { s with upstreamState := u, pendingDownstreamRequests := p } :=
    fun u p => ⟨h.jobs, h.store, h.ids, h.outputs, h.future⟩
  unfold handleDownstreamOpen
  split
  · refine .say (hkeep _ _) fun n hn => ?_
    obtain rfl := List.mem_singleton.mp hn
    exact ⟨nofun, rfl, nofun⟩
  · exact .keep (hkeep _ _)
  · exact carries_allotted.handleOpenMiningChannel (opensChannel_allotted hlaw hB hlf) h
  · exact carries_allotted.handleOpenMiningChannel (opensChannel_allotted hlaw hB hlf) h

theorem upstreamCustomJob_allotted (hlaw : api.Lawful) (h : Allotted B b lf s) (u : api.Upstream)
    (token : Option AllocateMiningJobTokenSuccess) (outputs : List TxOut)
    (hlf : ∀ t ∈ lf, Allows B b t.templateId ∧ B t.templateId outputs) :
    Allotted B b lf (s.upstreamCustomJob u token outputs).1 ∧
      ∀ t message, (s.upstreamCustomJob u token outputs).2.2 = some (t, message) →
        Built B t message.coinbaseTxOutputs := by
  unfold upstreamCustomJob
  split
  · rename_i token m t hm ht
    obtain ⟨hallows, houtputs⟩ := hlf t (h.future ▸ ht)
    obtain ⟨h', hmessage⟩ : Allotted B b lf (s.customJob api.newJobFactory u token m t outputs).1 ∧
        ∀ message, (s.customJob api.newJobFactory u token m t outputs).2.2 = some message →
          Built B t message.coinbaseTxOutputs := customJob_allotted hlaw h hallows houtputs
    refine ⟨h', fun t' message heq => ?_⟩
    obtain ⟨message', hmessage', hpair⟩ := Option.map_eq_some_iff.mp heq
    obtain ⟨rfl, rfl⟩ := Prod.mk.inj hpair
    exact hmessage _ hmessage'
  · exact ⟨h, fun t message heq => by cases heq⟩

theorem handleOpenExtendedMiningChannelSuccess_allotted (hlaw : api.Lawful) (hB : RewardBlind B)
    (h : Allotted B b lf s) (hlf : ∀ t ∈ lf, Allows B b t.templateId)
    {m : OpenExtendedMiningChannelSuccess} {slots : Nat → Nat} :
    Passes (Allotted B b lf) (Note.Allotted api B b)
      (s.handleOpenExtendedMiningChannelSuccess m slots) := by
  have hgiveUp : Passes (Allotted B b lf) (Note.Allotted api B b)
    (s.giveUpUpstream m.channelId) := by
    refine .say ⟨h.jobs, h.store, h.ids, h.outputs, h.future⟩ fun n hn => ?_
    obtain rfl := List.mem_singleton.mp hn
    exact ⟨nofun, rfl, nofun⟩
  unfold handleOpenExtendedMiningChannelSuccess
  split
  · exact .fail h trivial
  · rename_i o hdec
    split
    · exact .fail h trivial
    · split
      · exact hgiveUp
      · rename_i first hfirst
        dsimp only
        split
        · exact hgiveUp
        · rename_i allocator hallocator
          have hstart : Allotted B b lf (s.takeToken s.wantsUpstreamToken).2 :=
            ⟨h.jobs, h.store, h.ids, h.outputs, h.future⟩
          obtain ⟨h', hmessage⟩ := upstreamCustomJob_allotted hlaw hstart
            (s.upstreamOf m first.message.nominalHashRate) (s.takeToken s.wantsUpstreamToken).1 o
            fun t ht => ⟨hlf t ht, hlf t ht o (h.outputs ▸ hdec)⟩
          have hresized : Allotted B b lf (resizeGroups
              (api.upstreamFullSize (s.upstreamOf m first.message.nominalHashRate))
              { ((s.takeToken s.wantsUpstreamToken).2.upstreamCustomJob
                  (s.upstreamOf m first.message.nominalHashRate)
                  (s.takeToken s.wantsUpstreamToken).1 o).1 with
                extranonceAllocator := allocator
                upstreamChannel := some (s.upstreamOf m first.message.nominalHashRate)
                jobFactory := some ((s.takeToken s.wantsUpstreamToken).2.upstreamCustomJob
                  (s.upstreamOf m first.message.nominalHashRate)
                  (s.takeToken s.wantsUpstreamToken).1 o).2.1
                upstreamState := .connected }) :=
            h'.of_channels (fun d k c ch hch => channel?_resizeGroups hch) (fun _ he =>
              he) rfl rfl rfl
          refine (Leaves.say hresized fun n hn => ?_).andThen fun _ h' => ?_
          · rcases List.mem_append.mp hn with hn | hn
            · split at hn
              · rename_i t hmode ht
                obtain rfl := List.mem_singleton.mp hn
                exact requestTransactionData_allotted (h.outputs ▸ hdec)
                  (hlf t (hresized.future ▸ ht))
              · cases hn
            · split at hn
              · rename_i t message heq
                obtain rfl := List.mem_singleton.mp hn
                exact setCustomMiningJob_allotted (hmessage _ _ heq)
              · cases hn
          · refine (allocateTokenIf_allotted h').andThen fun _ h' => ?_
            refine .forEach (fun r _ s' hs' => ?_)
              ⟨h'.jobs, h'.store, h'.ids, h'.outputs, h'.future⟩
            exact carries_allotted.handleOpenMiningChannel (opensChannel_allotted hlaw hB hlf) hs'

/-! ### The handlers that build nothing -/

theorem relayShare_allotted (h : Allotted B b lf s) {k : ChannelKind} {m : SetNewPrevHash}
    {origin : Origin} {share : SubmitSharesExtended} {solution : api.Upstream → Bytes}
    {oversized : JDCError} :
    Passes (Allotted B b lf) (Note.Allotted api B b)
      (s.relayShare k m origin share solution oversized) := by
  unfold relayShare
  split
  · exact .keep h
  · dsimp only
    split
    · refine .say ⟨h.jobs, h.store, h.ids, h.outputs, h.future⟩ fun n hn => ?_
      obtain rfl := List.mem_singleton.mp hn
      exact ⟨nofun, rfl, nofun⟩
    · split
      · exact .fail ⟨h.jobs, h.store, h.ids, h.outputs, h.future⟩ trivial
      · refine .say ⟨h.jobs, h.store, h.ids, h.outputs, h.future⟩ fun n hn => ?_
        rcases List.mem_cons.mp hn with rfl | hn
        · exact ⟨nofun, rfl, nofun⟩
        · obtain rfl := List.mem_singleton.mp hn
          exact ⟨nofun, rfl, nofun⟩
    · split
      · exact .fail ⟨h.jobs, h.store, h.ids, h.outputs, h.future⟩ trivial
      · exact .keep ⟨h.jobs, h.store, h.ids, h.outputs, h.future⟩

theorem translateShare_allotted (h : Allotted B b lf s) {k : ChannelKind} {d : DownstreamId}
    {m : SetNewPrevHash} {ch : api.Channel} {msg : SubmitSharesExtended}
    {res : ShareValidationResult} :
    Passes (Allotted B b lf) (Note.Allotted api B b) (s.translateShare k d m ch msg res) := by
  unfold translateShare
  split
  · exact .keep h
  · dsimp only
    split
    · exact .fail h trivial
    · split
      · exact .fail h trivial
      · split
        · exact relayShare_allotted h
        · split
          · exact .keep h
          · exact .keep ⟨h.jobs, h.store, h.ids, h.outputs, h.future⟩

/-- For any validation that leaves the jobs of the channel alone. -/
theorem submitShares_allotted (h : Allotted B b lf s) {k : ChannelKind} {d : DownstreamId}
    {msg : SubmitSharesExtended}
    {validate : api.Channel → api.Channel × Except ShareValidationError ShareValidationResult}
    (hsub : ∀ ch, ∀ j ∈ api.jobs (validate ch).1, j ∈ api.jobs ch) :
    Passes (Allotted B b lf) (Note.Allotted api B b) (s.submitShares k d msg validate) :=
  carries_allotted.submitShares (fun hjobs j hj => hjobs j (hsub _ j hj))
    (fun _ _ _ _ _ => ⟨nofun, rfl, nofun⟩) (fun h => translateShare_allotted h) h

theorem removeDeclaredJob_allotted (h : Allotted B b lf s) (r : RequestId) :
    Allotted B b lf (s.removeDeclaredJob r) :=
  h.of_channels (fun _ _ _ _ hch => hch) (fun _ he => List.mem_of_mem_filter he) rfl rfl rfl

/-- The shares of the accepted job are passed on. -/
theorem handleSetCustomMiningJobSuccess_allotted (h : Allotted B b lf s) {r : RequestId}
    {j : JobId} :
    Passes (Allotted B b lf) (Note.Allotted api B b) (s.handleSetCustomMiningJobSuccess r j) := by
  have h' := removeDeclaredJob_allotted h r
  unfold handleSetCustomMiningJobSuccess
  split
  · exact .fail h trivial
  · dsimp only
    split
    · exact .fail ⟨h'.jobs, h'.store, h'.ids, h'.outputs, h'.future⟩ trivial
    · split
      · exact .fail ⟨h'.jobs, h'.store, h'.ids, h'.outputs, h'.future⟩ trivial
      · split
        · exact .fail ⟨h'.jobs, h'.store, h'.ids, h'.outputs, h'.future⟩ trivial
        · exact .fail ⟨h'.jobs, h'.store, h'.ids, h'.outputs, h'.future⟩ trivial
        · split
          · refine Leaves.collect (.forEach (fun entry _ s' hs' => ?_)
              ⟨h'.jobs, h'.store, h'.ids, h'.outputs, h'.future⟩) fun _ h => .keep h
            exact relayShare_allotted hs'
          · exact .keep ⟨h'.jobs, h'.store, h'.ids, h'.outputs, h'.future⟩

theorem handleSetCustomMiningJobError_allotted (h : Allotted B b lf s) {r : RequestId}
    {code : String} :
    Passes (Allotted B b lf) (Note.Allotted api B b) (s.handleSetCustomMiningJobError r code) := by
  have h' := removeDeclaredJob_allotted h r
  unfold handleSetCustomMiningJobError
  split
  · split
    · exact .keep h
    · exact .keep ⟨h'.jobs, h'.store, h'.ids, h'.outputs, h'.future⟩
  · exact .fail h trivial

/-! ### Events

`buildsFrom` lists the templates an event builds for. Whether their outputs are allowed is the only
condition of a step. -/

/-- The templates an event can make the client build from. -/
def buildsFrom (lf : Option NewTemplate) : Event → List TemplateId
  | .newTemplate t => [t.templateId]
  | .requestTxDataSuccess i _ _ => [i]
  | _ => (lf.map (·.templateId)).toList

/-- The last future template after an event. -/
def futureAfter (lf : Option NewTemplate) : Event → Option NewTemplate
  | .newTemplate t => if t.futureTemplate then some t else lf
  | _ => lf

/-- Every event but the answer to a token request. -/
theorem handler_allotted (hlaw : api.Lawful) (hB : RewardBlind B) (h : Allotted B b lf s)
    {e : Event} (htoken : ∀ m, e ≠ .allocateMiningJobTokenSuccess m)
    (hused : ∀ i ∈ buildsFrom lf e, Allows B b i) :
    Passes (Allotted B b (futureAfter lf e)) (Note.Allotted api B b) (handler e s) := by
  have hlf : buildsFrom lf e = (lf.map (·.templateId)).toList →
      ∀ t ∈ lf, Allows B b t.templateId := by
    intro heq t ht
    refine hused _ ?_
    rw [heq, Option.mem_def.mp ht]
    exact List.mem_singleton.mpr rfl
  cases e with
  | activate mode => exact .keep ⟨h.jobs, h.store, h.ids, h.outputs, h.future⟩
  | requestInitialTokens =>
      refine Leaves.andThen (@allocateTokenIf_allotted _ _ _ _ _ ?_ true) fun _ h' =>
        @allocateTokenIf_allotted _ _ _ _ _ h' true
      exact ⟨h.jobs, h.store, h.ids, h.outputs, h.future⟩
  | connect r =>
      obtain ⟨i, ds, hvalue, hnotes, -⟩ := s.connect_spec r
      have hch : ∀ d k c ch, (s.connect r).value.channel? d k c = some ch →
          s.channel? d k c = some ch := fun _ _ _ _ => channel?_connect
      rw [hvalue] at hch
      refine ⟨?_, ?_, fun _ _ => trivial⟩
      · simp only [handler, hvalue]
        exact h.of_channels hch (fun _ he => he) rfl rfl rfl
      · simp [handler, hnotes]
  | disconnect d =>
      exact .keep (h.of_channels (fun _ _ _ _ hch => channel?_removeDownstream hch)
        (fun _ he => he) rfl rfl rfl)
  | newTemplate t =>
      exact handleNewTemplate_allotted hlaw hB h (hused _ (List.mem_singleton.mpr rfl))
  | requestTxDataSuccess i txs excess =>
      exact handleRequestTxDataSuccess_allotted hlaw hB h (hused _ (List.mem_singleton.mpr rfl))
  | setNewPrevHash m => exact handleSetNewPrevHash_allotted hlaw h (hlf rfl)
  | allocateMiningJobTokenSuccess m => exact absurd rfl (htoken m)
  | declareMiningJobSuccess r token => exact handleDeclareMiningJobSuccess_allotted hlaw h
  | declareMiningJobError code =>
      simp only [handler, handleDeclareMiningJobError]
      split
      · exact .keep h
      · exact .fail h trivial
  | openExtendedMiningChannelSuccess m slots =>
      exact handleOpenExtendedMiningChannelSuccess_allotted hlaw hB h (hlf rfl)
  | openStandardMiningChannelSuccess => exact .fail h trivial
  | openMiningChannelError => exact .fail h trivial
  | closeUpstreamChannel => exact .fail ⟨h.jobs, h.store, h.ids, h.outputs, h.future⟩ trivial
  | setExtranoncePrefix p slots =>
      refine carries_allotted.handleSetExtranoncePrefix (fun hjobs hok j hj => ?_)
        (fun h => ⟨h.jobs, h.store, h.ids, h.outputs, h.future⟩)
        (fun h => ⟨h.jobs, h.store, h.ids, h.outputs, h.future⟩) h
      rw [(hlaw.setExtranoncePrefix hok).2.1] at hj
      exact hjobs j hj
  | setCustomMiningJobSuccess r j => exact handleSetCustomMiningJobSuccess_allotted h
  | setCustomMiningJobError r code => exact handleSetCustomMiningJobError_allotted h
  | openMiningChannel r slot => exact handleDownstreamOpen_allotted hlaw hB h (hlf rfl)
  | closeChannel d c =>
      obtain ⟨ds, vardiff, hvalue, hnotes, -⟩ := s.handleCloseChannel_spec d c
      have hch : ∀ d' k c' ch, (s.handleCloseChannel d c).value.channel? d' k c' = some ch →
          s.channel? d' k c' = some ch := fun _ _ _ _ => channel?_handleCloseChannel
      rw [hvalue] at hch
      refine ⟨?_, ?_, fun _ _ => trivial⟩
      · simp only [handler, hvalue]
        exact h.of_channels hch (fun _ he => he) rfl rfl rfl
      · simp [handler, hnotes]
  | submitSharesStandard d m => exact submitShares_allotted h fun ch => hlaw.validateStandard.2
  | submitSharesExtended d m => exact submitShares_allotted h fun ch => hlaw.validateExtended.2

/-- The answer to a token request: the new outputs are stored, and their constraints announced. -/
theorem handleAllocateMiningJobTokenSuccess_allotted (h : Allotted B b lf s)
    {m : AllocateMiningJobTokenSuccess} :
    Allotted B m.coinbaseOutputs lf (s.handleAllocateMiningJobTokenSuccess m).value ∧
      ∀ n ∈ (s.handleAllocateMiningJobTokenSuccess m).notes, ∃ o,
        deserializeOutputs m.coinbaseOutputs = some o ∧
          n = .coinbaseOutputConstraints (JobDeclaratorClient.coinbaseOutputConstraints o) := by
  have h' : Allotted B m.coinbaseOutputs lf { s with
      coinbaseOutputs := m.coinbaseOutputs, allocateTokens := s.allocateTokens ++ [m] } :=
    ⟨h.jobs, h.store, h.ids, rfl, h.future⟩
  unfold handleAllocateMiningJobTokenSuccess
  dsimp only
  split
  · split
    · exact ⟨h', nofun⟩
    · rename_i outputs hdec
      exact ⟨h', fun n hn => ⟨outputs, hdec, List.mem_singleton.mp hn⟩⟩
  · exact ⟨h', nofun⟩

end ChannelManager

/-! ### Constraints -/

/-- The size of outputs. -/
def totalSize (outputs : List TxOut) : Nat :=
  (outputs.map TxOut.size).sum

/-- The sigop cost of outputs. -/
def sigopCost (outputs : List TxOut) : Nat :=
  4 * (outputs.map fun o => Consensus.countSigopsLegacy o.scriptPubkey).sum

@[simp] theorem totalSize_append (xs ys : List TxOut) :
    totalSize (xs ++ ys) = totalSize xs + totalSize ys := by
  simp [totalSize]

@[simp] theorem sigopCost_append (xs ys : List TxOut) :
    sigopCost (xs ++ ys) = sigopCost xs + sigopCost ys := by
  simp [sigopCost, Nat.mul_add]

theorem withReward_size {reward : UInt64} {o r : List TxOut} (h : withReward reward o = some r) :
    totalSize r = totalSize o ∧ sigopCost r = sigopCost o := by
  cases o with
  | nil => cases h
  | cons x rest =>
      obtain rfl := Option.some.inj h
      exact ⟨rfl, rfl⟩

namespace CoinbaseOutputConstraints

/-- There is room for the outputs. -/
def Admits (c : CoinbaseOutputConstraints) (o : List TxOut) : Prop :=
  totalSize o ≤ c.coinbaseOutputMaxAdditionalSize.toNat ∧
    sigopCost o ≤ c.coinbaseOutputMaxAdditionalSigops.toNat

instance (c : CoinbaseOutputConstraints) (o : List TxOut) : Decidable (c.Admits o) :=
  inferInstanceAs (Decidable (_ ∧ _))

/-- Outputs within the constraints stay so with the reward. -/
theorem Admits.withReward {c : CoinbaseOutputConstraints} {reward : UInt64} {o r : List TxOut}
    (h : c.Admits o) (hr : withReward reward o = some r) : c.Admits r := by
  obtain ⟨hsize, hsigops⟩ := withReward_size hr
  exact ⟨hsize ▸ h.1, hsigops ▸ h.2⟩

end CoinbaseOutputConstraints

/-- The size is a `u32`, and the sigop cost a `u16`. -/
def Announceable (o : List TxOut) : Prop :=
  totalSize o < 2 ^ 32 ∧ sigopCost o < 2 ^ 16

instance (o : List TxOut) : Decidable (Announceable o) :=
  inferInstanceAs (Decidable (_ ∧ _))

/-- The constraints for outputs admit them, unless a number wraps. -/
theorem Announceable.admits {o : List TxOut} (h : Announceable o) :
    (coinbaseOutputConstraints o).Admits o := by
  constructor
  · simp only [coinbaseOutputConstraints, UInt32.toNat_ofNat']
    exact (Nat.mod_eq_of_lt h.1).ge
  · simp only [coinbaseOutputConstraints, UInt16.toNat_ofNat']
    exact (Nat.mod_eq_of_lt h.2).ge

/-- Outputs of a coinbase for `t` within the constraints that `t` was produced under. -/
def WithinConstraints (under : TemplateId → Option CoinbaseOutputConstraints) (t : NewTemplate)
    (outputs : List TxOut) : Prop :=
  ∃ c, under t.templateId = some c ∧
    totalSize outputs ≤ c.coinbaseOutputMaxAdditionalSize.toNat + totalSize t.coinbaseTxOutputs ∧
    sigopCost outputs ≤ c.coinbaseOutputMaxAdditionalSigops.toNat + sigopCost t.coinbaseTxOutputs

instance (under : TemplateId → Option CoinbaseOutputConstraints) (t : NewTemplate)
    (outputs : List TxOut) : Decidable (WithinConstraints under t outputs) :=
  decidable_of_iff (∃ c ∈ under t.templateId,
    totalSize outputs ≤ c.coinbaseOutputMaxAdditionalSize.toNat + totalSize t.coinbaseTxOutputs ∧
    sigopCost outputs ≤ c.coinbaseOutputMaxAdditionalSigops.toNat + sigopCost t.coinbaseTxOutputs)
    Iff.rfl

/-- The outputs that the constraints of a template admit. -/
def AdmittedFor (under : TemplateId → Option CoinbaseOutputConstraints) (i : TemplateId)
    (o : List TxOut) : Prop :=
  ∃ c, under i = some c ∧ c.Admits o

/-- The condition does not look at the value of the first output. -/
theorem rewardBlind_admittedFor (under : TemplateId → Option CoinbaseOutputConstraints) :
    RewardBlind (AdmittedFor under) := by
  rintro i o reward r ⟨c, hc, hadmits⟩ hr
  exact ⟨c, hc, hadmits.withReward hr⟩

/-- A coinbase built for a template is within the constraints of the template. -/
theorem Built.withinConstraints {under : TemplateId → Option CoinbaseOutputConstraints}
    {t : NewTemplate} {outputs : List TxOut} (h : Built (AdmittedFor under) t outputs) :
    WithinConstraints under t outputs := by
  obtain ⟨r, ⟨c, hc, hsize, hsigops⟩, rfl⟩ := h
  refine ⟨c, hc, ?_, ?_⟩
  · rw [totalSize_append]
    exact Nat.add_le_add_right hsize _
  · rw [sigopCost_append]
    exact Nat.add_le_add_right hsigops _

/-! ### Runs -/

/-- What happens: the client handles an event, or the provider goes on to the next constraints it
was sent. -/
inductive Turn where
  | event (e : Event)
  | adopts

/-- The client, the constraints it announced, how many of them the provider has gone past in what
the client gets from it next, the constraints each template was produced under, and the templates
whose transactions the client waits for. -/
structure Provided (api : ChannelsSv2) where
  client : Client api
  announced : List CoinbaseOutputConstraints
  adopted : Nat
  under : TemplateId → Option CoinbaseOutputConstraints
  awaited : List TemplateId

namespace Provided

variable {api : ChannelsSv2}

/-- `ChannelManager::start` announces the constraints of the configured outputs. -/
def start (coinbaseOutputs : Bytes) (reserved : Nat) : Provided api where
  client := .start coinbaseOutputs reserved
  announced := [coinbaseOutputConstraints ((deserializeOutputs coinbaseOutputs).getD [])]
  adopted := 0
  under := fun _ => none
  awaited := []

def step (x : Provided api) : Turn → Provided api
  | .adopts => { x with adopted := x.adopted + 1 }
  | .event e =>
      if x.client.running then
        let notes := (ChannelManager.handle e x.client.manager).notes
        { x with
          client := x.client.step e
          announced := x.announced ++ notes.filterMap Note.constraints?
          under := match e with
            | .newTemplate t => Function.update x.under t.templateId x.announced[x.adopted]?
            | _ => x.under
          awaited := (match e with
            | .requestTxDataSuccess i _ _ => x.awaited.erase i
            | _ => x.awaited) ++ notes.filterMap Note.requested? }
      else x

/-- The templates the client still builds from: the last future one, and those whose transactions it
waits for. -/
def inUse (x : Provided api) : List TemplateId :=
  x.awaited ++ (x.client.manager.lastFutureTemplate.map (·.templateId)).toList

/-- The constraints of the templates in use, and those the provider may still use. -/
def binding (x : Provided api) : List CoinbaseOutputConstraints :=
  x.announced.drop x.adopted ++ x.inUse.filterMap x.under

/-- The outputs of a token are admitted by the constraints of the templates in use and by those the
provider may still use, and their own constraints do not wrap. A template has a new id, and
transactions come for requests only. -/
def Fitting (x : Provided api) : Turn → Prop
  | .adopts => x.adopted + 1 < x.announced.length
  | .event (.newTemplate t) => x.under t.templateId = none
  | .event (.requestTxDataSuccess i _ _) => i ∈ x.awaited
  | .event (.allocateMiningJobTokenSuccess m) =>
      ∀ o ∈ deserializeOutputs m.coinbaseOutputs,
        (∀ c ∈ x.binding, c.Admits o) ∧ Announceable o
  | _ => True

instance (x : Provided api) (e : Turn) : Decidable (x.Fitting e) :=
  match e with
  | .adopts => inferInstanceAs (Decidable (_ < _))
  | .event (.newTemplate _) => inferInstanceAs (Decidable (_ = _))
  | .event (.requestTxDataSuccess _ _ _) => inferInstanceAs (Decidable (_ ∈ _))
  | .event (.allocateMiningJobTokenSuccess m) =>
      inferInstanceAs (Decidable (∀ o ∈ deserializeOutputs m.coinbaseOutputs,
        (∀ c ∈ x.binding, c.Admits o) ∧ Announceable o))
  | .event (.activate _) | .event .requestInitialTokens | .event (.connect _)
  | .event (.disconnect _) | .event (.setNewPrevHash _) | .event (.declareMiningJobSuccess _ _)
  | .event (.declareMiningJobError _) | .event (.openExtendedMiningChannelSuccess _ _)
  | .event .openStandardMiningChannelSuccess | .event .openMiningChannelError
  | .event .closeUpstreamChannel | .event (.setExtranoncePrefix _ _)
  | .event (.setCustomMiningJobSuccess _ _) | .event (.setCustomMiningJobError _ _)
  | .event (.openMiningChannel _ _) | .event (.closeChannel _ _)
  | .event (.submitSharesStandard _ _) | .event (.submitSharesExtended _ _) => isTrue trivial

/-- Every downstream job, `DeclareMiningJob` and `SetCustomMiningJob` of a template is within the
constraints the template was produced under. -/
structure KeepsConstraints (x : Provided api) : Prop where
  jobs : ∀ d k c ch, x.client.manager.channel? d k c = some ch → ∀ j ∈ api.jobs ch,
    WithinConstraints x.under j.template j.coinbaseOutputs
  declared : ∀ n ∈ x.client.history, ∀ t outputs, n.declared? api = some (t, outputs) →
    WithinConstraints x.under t outputs

structure Inv (x : Provided api) : Prop where
  manager : x.client.manager.Allotted (AdmittedFor x.under) x.client.manager.coinbaseOutputs
    x.client.manager.lastFutureTemplate
  history : ∀ n ∈ x.client.history, ∀ t outputs, n.declared? api = some (t, outputs) →
    Built (AdmittedFor x.under) t outputs
  inUse : ∀ i ∈ x.inUse, (x.under i).isSome ∧
    Allows (AdmittedFor x.under) x.client.manager.coinbaseOutputs i
  announced : ∀ c ∈ x.announced.drop x.adopted, ∀ o,
    deserializeOutputs x.client.manager.coinbaseOutputs = some o → c.Admits o
  adopted : x.adopted < x.announced.length

theorem Inv.keepsConstraints {x : Provided api} (h : x.Inv) : x.KeepsConstraints where
  jobs d k c ch hch j hj := (h.manager.jobs d k c ch hch j hj).withinConstraints
  declared n hn t outputs hdecl := (h.history n hn t outputs hdecl).withinConstraints

/-- The constraints of templates that were produced before stay. -/
theorem under_step {x : Provided api} {e : Event} (hfit : x.Fitting (.event e)) {i : TemplateId}
    (hi : (x.under i).isSome) : (x.step (.event e)).under i = x.under i := by
  simp only [step]
  split
  · cases e with
    | newTemplate t =>
        have hne : i ≠ t.templateId := by
          rintro rfl
          rw [show x.under t.templateId = none from hfit] at hi
          cases hi
        exact Function.update_of_ne hne _ _
    | _ => rfl
  · rfl

theorem admittedFor_step {x : Provided api} {e : Event} (hfit : x.Fitting (.event e))
    (i : TemplateId) (o : List TxOut) (h : AdmittedFor x.under i o) :
    AdmittedFor (x.step (.event e)).under i o := by
  obtain ⟨c, hc, hadmits⟩ := h
  exact ⟨c, (under_step hfit (by rw [hc]; rfl)).trans hc, hadmits⟩

/-- The stored outputs are admitted for the templates an event can build from, and these have
constraints. -/
theorem Inv.used {x : Provided api} (h : x.Inv) {e : Event} (hfit : x.Fitting (.event e))
    (hrun : x.client.running = true) :
    ∀ i ∈ ChannelManager.buildsFrom x.client.manager.lastFutureTemplate e,
      ((x.step (.event e)).under i).isSome ∧
        Allows (AdmittedFor (x.step (.event e)).under) x.client.manager.coinbaseOutputs i := by
  have hold : ∀ i ∈ x.inUse, ((x.step (.event e)).under i).isSome ∧
      Allows (AdmittedFor (x.step (.event e)).under) x.client.manager.coinbaseOutputs i := by
    intro i hi
    obtain ⟨hsome, hallows⟩ := h.inUse i hi
    exact ⟨under_step hfit hsome ▸ hsome, fun o ho => admittedFor_step hfit i o (hallows o ho)⟩
  intro i hi
  cases e with
  | newTemplate t =>
      obtain rfl := List.mem_singleton.mp hi
      have hadopted := h.adopted
      have hunder : (x.step (.event (.newTemplate t))).under t.templateId =
          some x.announced[x.adopted] := by
        simp [step, hrun, hadopted]
      have hmem : x.announced[x.adopted] ∈ x.announced.drop x.adopted :=
        List.mem_drop_iff_getElem.mpr ⟨0, by simpa using hadopted, by simp⟩
      exact ⟨by rw [hunder]; rfl, fun o ho => ⟨_, hunder, h.announced _ hmem o ho⟩⟩
  | requestTxDataSuccess j txs excess =>
      obtain rfl := List.mem_singleton.mp hi
      exact hold i (List.mem_append_left _ hfit)
  | _ => exact hold i (List.mem_append_right _ hi)

theorem filterMap_constraints {B : TemplateId → List TxOut → Prop} {b : Bytes} {notes : List Note}
    (h : ∀ n ∈ notes, n.Allotted api B b) : notes.filterMap Note.constraints? = [] :=
  List.filterMap_eq_nil_iff.mpr fun n hn => (h n hn).constraints

theorem manager_step {x : Provided api} {e : Event} (hrun : x.client.running = true) :
    (x.step (.event e)).client.manager =
      Client.managerAfter (ChannelManager.handle e x.client.manager) := by
  simp [step, Client.step, hrun]

theorem history_step {x : Provided api} {e : Event} (hrun : x.client.running = true) :
    (x.step (.event e)).client.history =
      x.client.history ++ (ChannelManager.handle e x.client.manager).notes := by
  simp [step, Client.step, hrun]

/-- What the loop does about an error builds nothing. -/
theorem allotted_managerAfter {B : TemplateId → List TxOut → Prop} {b : Bytes}
    {lf : Option NewTemplate} {o : Handled api} (h : o.value.Allotted B b lf) :
    (Client.managerAfter o).Allotted B b lf := by
  unfold Client.managerAfter
  split
  · exact h.of_channels (fun _ _ _ _ hch => ChannelManager.channel?_removeDownstream hch)
      (fun _ he => he) rfl rfl rfl
  · exact h

/-- The templates in use after an event. -/
theorem mem_inUse_step {x : Provided api} {e : Event} {i : TemplateId}
    (hrun : x.client.running = true)
    (hlf : (x.step (.event e)).client.manager.lastFutureTemplate =
      ChannelManager.futureAfter x.client.manager.lastFutureTemplate e)
    (h : i ∈ (x.step (.event e)).inUse) :
    i ∈ x.inUse ∨ i ∈ ChannelManager.buildsFrom x.client.manager.lastFutureTemplate e ∨
      ∃ n ∈ (ChannelManager.handle e x.client.manager).notes, n.requested? = some i := by
  rcases List.mem_append.mp h with hawaited | hfuture
  · simp only [step, hrun, if_true] at hawaited
    rcases List.mem_append.mp hawaited with hold | hnew
    · refine .inl (List.mem_append_left _ ?_)
      cases e with
      | requestTxDataSuccess j txs excess => exact List.mem_of_mem_erase hold
      | _ => exact hold
    · exact .inr (.inr (List.mem_filterMap.mp hnew))
  · rw [hlf] at hfuture
    cases e with
    | newTemplate t =>
        simp only [ChannelManager.futureAfter] at hfuture
        split at hfuture
        · exact .inr (.inl hfuture)
        · exact .inl (List.mem_append_right _ hfuture)
    | _ => exact .inl (List.mem_append_right _ hfuture)

/-- An event that brings no new outputs. -/
theorem inv_event (hlaw : api.Lawful) {x : Provided api} {e : Event} (h : x.Inv)
    (hfit : x.Fitting (.event e)) (htoken : ∀ m, e ≠ .allocateMiningJobTokenSuccess m)
    (hrun : x.client.running = true) : (x.step (.event e)).Inv := by
  have hused := h.used hfit hrun
  have hunder : ∀ i, (x.under i).isSome → (x.step (.event e)).under i = x.under i :=
    fun i => under_step hfit
  have hmono := admittedFor_step hfit
  have hpasses : ChannelManager.Passes
      (ChannelManager.Allotted (AdmittedFor (x.step (.event e)).under)
        x.client.manager.coinbaseOutputs
        (ChannelManager.futureAfter x.client.manager.lastFutureTemplate e))
      (Note.Allotted api (AdmittedFor (x.step (.event e)).under) x.client.manager.coinbaseOutputs)
      (ChannelManager.handle e x.client.manager) := by
    have hmanager := h.manager.mono hmono
    unfold ChannelManager.handle
    split
    · rename_i hsolo
      have hfuture : ChannelManager.futureAfter x.client.manager.lastFutureTemplate e =
          x.client.manager.lastFutureTemplate := by
        cases e <;> simp_all [ChannelManager.futureAfter, Event.fromUpstream]
      rw [hfuture]
      exact .keep hmanager
    · exact ChannelManager.handler_allotted hlaw (rewardBlind_admittedFor _) hmanager htoken
        fun i hi => (hused i hi).2
  have hafter : ChannelManager.Allotted (AdmittedFor (x.step (.event e)).under)
      x.client.manager.coinbaseOutputs
      (ChannelManager.futureAfter x.client.manager.lastFutureTemplate e)
      (x.step (.event e)).client.manager := by
    rw [manager_step hrun]
    exact allotted_managerAfter hpasses.value
  have hannounced : (x.step (.event e)).announced = x.announced := by
    simp [step, hrun, filterMap_constraints hpasses.notes]
  have hadopted : (x.step (.event e)).adopted = x.adopted := by
    simp [step, hrun]
  constructor
  · rw [hafter.outputs, hafter.future]
    exact hafter
  · rw [history_step hrun]
    intro n hn t outputs hdecl
    rcases List.mem_append.mp hn with hn | hn
    · exact (h.history n hn t outputs hdecl).mono hmono
    · exact (hpasses.notes n hn).declared t outputs hdecl
  · intro i hi
    rw [hafter.outputs]
    rcases mem_inUse_step hrun hafter.future hi with hold | hnew | ⟨n, hn, hrequested⟩
    · obtain ⟨hsome, hallows⟩ := h.inUse i hold
      exact ⟨hunder i hsome ▸ hsome, fun o ho => hmono i o (hallows o ho)⟩
    · exact hused i hnew
    · obtain ⟨o, hdec, c, hc, hadmits⟩ := (hpasses.notes n hn).requested i hrequested
      refine ⟨by rw [hc]; rfl, fun o' ho' => ?_⟩
      obtain rfl := Option.some.inj (hdec.symm.trans ho')
      exact ⟨c, hc, hadmits⟩
  · rw [hannounced, hadopted, hafter.outputs]
    exact h.announced
  · rw [hannounced, hadopted]
    exact h.adopted

/-- The answer to a token request. -/
theorem inv_token {x : Provided api} {m : AllocateMiningJobTokenSuccess} (h : x.Inv)
    (hfit : x.Fitting (.event (.allocateMiningJobTokenSuccess m)))
    (hrun : x.client.running = true) :
    (x.step (.event (.allocateMiningJobTokenSuccess m))).Inv := by
  have hbinding : ∀ {o}, (∀ c ∈ x.binding, c.Admits o) →
      (∀ i ∈ x.inUse, ∀ c, x.under i = some c → c.Admits o) ∧
        ∀ c ∈ x.announced.drop x.adopted, c.Admits o := fun ho =>
    ⟨fun i hi c hc => ho c (List.mem_append_right _ (List.mem_filterMap.mpr ⟨i, hi, hc⟩)),
      fun c hc => ho c (List.mem_append_left _ hc)⟩
  obtain ⟨b, hafter, hnotes, hadmits⟩ : ∃ b,
      ChannelManager.Allotted (AdmittedFor x.under) b x.client.manager.lastFutureTemplate
        (ChannelManager.handle (.allocateMiningJobTokenSuccess m) x.client.manager).value ∧
      (∀ n ∈ (ChannelManager.handle (.allocateMiningJobTokenSuccess m) x.client.manager).notes,
        ∃ o, deserializeOutputs b = some o ∧
          n = .coinbaseOutputConstraints (coinbaseOutputConstraints o) ∧
          (coinbaseOutputConstraints o).Admits o) ∧
      ∀ o, deserializeOutputs b = some o →
        (∀ i ∈ x.inUse, ∀ c, x.under i = some c → c.Admits o) ∧
          ∀ c ∈ x.announced.drop x.adopted, c.Admits o := by
    unfold ChannelManager.handle
    split
    · refine ⟨_, h.manager, nofun, fun o ho => ⟨fun i hi c hc => ?_, fun c hc =>
        h.announced c hc o ho⟩⟩
      obtain ⟨c', hc', hadmits⟩ := (h.inUse i hi).2 o ho
      obtain rfl := Option.some.inj (hc'.symm.trans hc)
      exact hadmits
    · obtain ⟨hafter, hnotes⟩ :=
        ChannelManager.handleAllocateMiningJobTokenSuccess_allotted h.manager (m := m)
      refine ⟨_, hafter, fun n hn => ?_, fun o ho => hbinding (hfit o ho).1⟩
      obtain ⟨o, ho, rfl⟩ := hnotes n hn
      exact ⟨o, ho, rfl, (hfit o ho).2.admits⟩
  have hmanager : ChannelManager.Allotted (AdmittedFor x.under) b
      x.client.manager.lastFutureTemplate
      (x.step (.event (.allocateMiningJobTokenSuccess m))).client.manager := by
    rw [manager_step hrun]
    exact allotted_managerAfter hafter
  have hunder : (x.step (.event (.allocateMiningJobTokenSuccess m))).under = x.under := by
    simp [step, hrun]
  have hadopted : (x.step (.event (.allocateMiningJobTokenSuccess m))).adopted = x.adopted := by
    simp [step, hrun]
  have hrequested : (ChannelManager.handle (.allocateMiningJobTokenSuccess m)
      x.client.manager).notes.filterMap Note.requested? = [] := by
    refine List.filterMap_eq_nil_iff.mpr fun n hn => ?_
    obtain ⟨o, -, rfl, -⟩ := hnotes n hn
    rfl
  have hinUse : (x.step (.event (.allocateMiningJobTokenSuccess m))).inUse = x.inUse := by
    have hawaited : (x.step (.event (.allocateMiningJobTokenSuccess m))).awaited = x.awaited := by
      simp [step, hrun, hrequested]
    rw [inUse, hawaited, hmanager.future]
    rfl
  have hannounced : (x.step (.event (.allocateMiningJobTokenSuccess m))).announced =
      x.announced ++ (ChannelManager.handle (.allocateMiningJobTokenSuccess m)
        x.client.manager).notes.filterMap Note.constraints? := by
    simp [step, hrun]
  constructor
  · rw [hunder, hmanager.outputs, hmanager.future]
    exact hmanager
  · rw [hunder, history_step hrun]
    intro n hn t outputs hdecl
    rcases List.mem_append.mp hn with hn | hn
    · exact h.history n hn t outputs hdecl
    · obtain ⟨o, -, rfl, -⟩ := hnotes n hn
      cases hdecl
  · rw [hinUse, hunder, hmanager.outputs]
    intro i hi
    obtain ⟨hsome, -⟩ := h.inUse i hi
    obtain ⟨c, hc⟩ := Option.isSome_iff_exists.mp hsome
    exact ⟨hsome, fun o ho => ⟨c, hc, (hadmits o ho).1 i hi c hc⟩⟩
  · rw [hannounced, hadopted, hmanager.outputs, List.drop_append_of_le_length h.adopted.le]
    intro c hc o ho
    rcases List.mem_append.mp hc with hc | hc
    · exact (hadmits o ho).2 c hc
    · obtain ⟨n, hn, hc⟩ := List.mem_filterMap.mp hc
      obtain ⟨o', ho', rfl, hown⟩ := hnotes n hn
      obtain rfl := Option.some.inj (ho'.symm.trans ho)
      obtain rfl := Option.some.inj hc
      exact hown
  · rw [hannounced, hadopted, List.length_append]
    exact Nat.lt_add_right _ h.adopted

/-- Every turn keeps the invariant under the condition on tokens. -/
theorem inv_step (hlaw : api.Lawful) {x : Provided api} {e : Turn} (h : x.Inv)
    (hfit : x.Fitting e) :
    (x.step e).Inv := by
  cases e with
  | adopts =>
      refine ⟨h.manager, h.history, h.inUse, fun c hc => h.announced c ?_, hfit⟩
      have hdrop : (x.step .adopts).announced.drop (x.step .adopts).adopted =
          (x.announced.drop x.adopted).drop 1 := by
        simp [step]
      rw [hdrop] at hc
      exact List.mem_of_mem_drop hc
  | event e =>
      cases hrun : x.client.running with
      | false =>
          have hsame : x.step (.event e) = x := by simp [step, hrun]
          rw [hsame]
          exact h
      | true =>
          cases e with
          | allocateMiningJobTokenSuccess m => exact inv_token h hfit hrun
          | _ => exact inv_event hlaw h hfit nofun hrun

theorem inv_start {outputs : Bytes} {reserved : Nat}
    (hown : ∀ o ∈ deserializeOutputs outputs, Announceable o) :
    (start outputs reserved : Provided api).Inv where
  manager :=
    { jobs := fun d k c ch hch => by
        obtain ⟨ds, hds, -⟩ := ChannelManager.channel?_eq_some.mp hch
        simp [start, Client.start, ChannelManager.new] at hds
      store := nofun
      ids := nofun
      outputs := rfl
      future := rfl }
  history := nofun
  inUse := nofun
  announced c hc o ho := by
    obtain rfl := List.mem_singleton.mp hc
    have ho' : deserializeOutputs outputs = some o := ho
    rw [ho']
    exact (hown o ho').admits
  adopted := Nat.one_pos

/-- **Coinbases within the constraints.** In a run in which the outputs of every token are admitted
by the constraints of the templates in use and by those the provider may still use, every job,
`DeclareMiningJob` and `SetCustomMiningJob` is within the constraints its template was produced
under. -/
theorem outputs_within_constraints (hlaw : api.Lawful) (outputs : Bytes) (reserved : Nat)
    (es : List Turn)
    (hown : ∀ o ∈ deserializeOutputs outputs, Announceable o)
    (hes : Runs.Along step Fitting (start outputs reserved : Provided api) es) :
    (Runs.exec step (start outputs reserved : Provided api) es).KeepsConstraints :=
  (Runs.exec_induct (fun _ _ h hfit => inv_step hlaw h hfit) (inv_start hown) hes).keepsConstraints

/-- A pay-to-witness-public-key-hash output, of 31 bytes. -/
def keyHashOutputs : Bytes :=
  [1, 0, 0, 0, 0, 0, 0, 0, 0, 22, 0, 20] ++ List.replicate 20 7

/-- The pool's outputs are smaller than the configured ones, and the provider takes their
constraints for the second template. -/
def smallerOutputsRun : List Turn :=
  [.event (.activate .coinbaseOnly), .event .requestInitialTokens,
    .event (.newTemplate (Client.sampleTemplate 1 true)),
    .event (.setNewPrevHash (Client.samplePrevHash 1)),
    .event (.allocateMiningJobTokenSuccess (Client.sampleToken 0)),
    .event (.allocateMiningJobTokenSuccess (Client.sampleToken 1)), .event (.connect false),
    .event (.openMiningChannel (Client.sampleOpen .extended) 0),
    .event (.openExtendedMiningChannelSuccess ⟨5, [], [1, 2], 8⟩ fun _ => 0), .adopts,
    .event (.newTemplate (Client.sampleTemplate 2 false))]

/-- A token whose outputs are smaller than the configured ones. -/
theorem smallerOutputsRun_keepsConstraints :
    ((Runs.exec step (start keyHashOutputs 4 : Provided reference)
        smallerOutputsRun).client.history.filterMap (Note.declared? reference)).length = 1 ∧
      (Runs.exec step (start keyHashOutputs 4 : Provided reference)
        smallerOutputsRun).KeepsConstraints :=
  ⟨by decide +kernel, outputs_within_constraints reference_lawful keyHashOutputs 4 smallerOutputsRun
    (by decide +kernel) (by decide +kernel)⟩

/-- A token brings larger outputs while a template of the first constraints is on its way. -/
def largerOutputsRun : List Turn :=
  [.event (.activate .coinbaseOnly), .event .requestInitialTokens,
    .event (.newTemplate (Client.sampleTemplate 1 true)),
    .event (.setNewPrevHash (Client.samplePrevHash 1)),
    .event (.allocateMiningJobTokenSuccess (Client.sampleToken 0)), .event (.connect false),
    .event (.openMiningChannel (Client.sampleOpen .extended) 0),
    .event (.openExtendedMiningChannelSuccess ⟨5, [], [1, 2], 8⟩ fun _ => 0),
    .event (.allocateMiningJobTokenSuccess ⟨1, [7], keyHashOutputs⟩),
    .event (.newTemplate (Client.sampleTemplate 2 false))]

/-- The custom job has 31 bytes of outputs, and the template room for nine. -/
theorem largerOutputsRun_exceeds :
    ¬ (Runs.exec step (start Client.sampleOutputs 4 : Provided reference)
      largerOutputsRun).KeepsConstraints := by
  intro h
  have hdeclared : ∀ n ∈ (Runs.exec step (start Client.sampleOutputs 4 : Provided reference)
      largerOutputsRun).client.history, ∀ p ∈ n.declared? reference,
      WithinConstraints (Runs.exec step (start Client.sampleOutputs 4 : Provided reference)
        largerOutputsRun).under p.1 p.2 :=
    fun n hn p hp => h.declared n hn p.1 p.2 hp
  revert hdeclared
  decide +kernel

end Provided

end GridPoolSv2.JobDeclaratorClient
