import GridPoolSv2.JobDeclaratorClient.TokenSupply

/-!
# JobDeclaratorClient.FullTemplate: what the handlers declare in full-template mode

In this mode a template is declared in two handlers. The answer to a request for transaction data
takes the template out of the store and builds the declaration; it is sent at once, unless the
template is a future one whose previous hash has not arrived. `handle_set_new_prev_hash` sends what
was built for the last future template.

`Effect` says what a handler does to the `Core` of the manager and which templates it declares. Most
handlers are `Silent`; the others have one lemma each, which says all they can do.
-/

namespace GridPoolSv2.JobDeclaratorClient

open Consensus (Bytes TxOut Transaction)
open Function (update)
open Visit Handler

/-- The id of the template a message declares. -/
def Note.declares? : Note → Option TemplateId
  | .declareMiningJob t _ _ => some t.templateId
  | _ => none

/-- The id of the template a message requests the transactions of. -/
def Note.requests? : Note → Option TemplateId
  | .requestTransactionData t => some t
  | _ => none

/-! ### What the handlers do to the core

`Core.Kept` compares two cores but for the tokens, their outputs and the request ids. A change of
the core has a name (`takeTemplate`, `setPrevHash`, `storeJob`), and the lemma of a handler says
which one it makes. -/

/-- Only tokens, their outputs and the request ids may have changed. -/
structure Core.Kept (c c' : Core) : Prop where
  mode : c'.mode = c.mode
  lastFutureTemplate : c'.lastFutureTemplate = c.lastFutureTemplate
  lastNewPrevHash : c'.lastNewPrevHash = c.lastNewPrevHash
  templateStore : c'.templateStore = c.templateStore
  lastDeclareJobStore : c'.lastDeclareJobStore = c.lastDeclareJobStore
  hasUpstream : c'.hasUpstream = c.hasUpstream
  hasFactory : c'.hasFactory = c.hasFactory

theorem Core.Kept.rfl {c : Core} : c.Kept c :=
  ⟨Eq.refl _, Eq.refl _, Eq.refl _, Eq.refl _, Eq.refl _, Eq.refl _, Eq.refl _⟩

/-- A new template is stored. -/
def Core.takeTemplate (c : Core) (t : NewTemplate) : Core :=
  { c with
    templateStore := update c.templateStore t.templateId (some t)
    lastFutureTemplate := if t.futureTemplate then some t else c.lastFutureTemplate }

/-- A template is taken out of the store. -/
def Core.dropTemplate (c : Core) (id : TemplateId) : Core :=
  { c with templateStore := update c.templateStore id none }

/-- A declaration is stored under a request id. -/
def Core.storeJob (c : Core) (r : RequestId) (job : DeclaredJob) : Core :=
  { c with lastDeclareJobStore := (r, job) :: c.lastDeclareJobStore.filter (·.1 ≠ r) }

/-- A custom job was answered. -/
def Core.removeJob (c : Core) (r : RequestId) : Core :=
  { c with lastDeclareJobStore := c.lastDeclareJobStore.filter (·.1 ≠ r) }

def Core.job? (c : Core) (r : RequestId) : Option DeclaredJob :=
  c.lastDeclareJobStore.lookup r

/-- A job found under its request id is stored. -/
theorem Core.mem_of_job? {c : Core} {r : RequestId} {job : DeclaredJob} (h : c.job? r = some job) :
    (r, job) ∈ c.lastDeclareJobStore := by
  obtain ⟨l₁, l₂, hl, -⟩ := List.lookup_eq_some_iff.mp h
  rw [hl]
  simp

def Core.setPrevHash (c : Core) (m : SetNewPrevHash) : Core :=
  { c with
    lastNewPrevHash := some m
    lastDeclareJobStore := c.lastDeclareJobStore.map fun e => (e.1, e.2.activate m) }

def Core.openUpstream (c : Core) : Core :=
  { c with hasUpstream := true, hasFactory := true }

namespace ChannelManager

variable {api : ChannelsSv2} {s s' : ChannelManager api} {c c' : Core} {o : Handled api}
  {f : ChannelManager api → Handled api} {R : JDCError → Prop}

/-- Nothing is declared, and the core is kept. -/
abbrev Silent (c : Core) (R : JDCError → Prop) (o : Handled api) : Prop :=
  Leaves (fun s => c.Kept s.core) (fun n => n.declares? = none) R o

/-- What does not see the channels is silent. -/
theorem blind_kept (c : Core) :
    Blind (fun s : ChannelManager api => c.Kept s.core) (fun n => n.declares? = none) where
  of_core h hcore := by rwa [hcore]
  note n hn := by cases n <;> first | rfl | cases hn
  request _ := rfl

/-- A handler declares the templates `ids`, and if the loop goes on it leaves the core `c`. -/
structure Effect (c : Core) (ids : List TemplateId) (o : Handled api) : Prop where
  declared : o.notes.filterMap Note.declares? = ids
  lastFutureTemplate : o.value.lastFutureTemplate = c.lastFutureTemplate
  core : Client.goesOn o = true → c.Kept o.value.core

theorem Silent.effect (h : Silent c R o) : Effect c [] o where
  declared := List.filterMap_eq_nil_iff.mpr h.notes
  lastFutureTemplate := h.value.lastFutureTemplate
  core _ := h.value

/-- Messages, and then a silent part. -/
theorem Effect.sayThen {notes : List Note} (h : Silent c R (f s)) :
    Effect c (notes.filterMap Note.declares?) (Outcome.andThen (say notes s) f) := by
  rw [Outcome.andThen_eq_of_ok (say_error _ _)]
  refine ⟨?_, h.value.lastFutureTemplate, fun _ => h.value⟩
  rw [List.filterMap_append, say_value, List.filterMap_eq_nil_iff.mpr h.notes, List.append_nil,
    say_notes]

/-- A token is asked for first. -/
theorem Effect.tokenThen {ids : List TemplateId} (h : Effect c ids (f s.allocateToken.value)) :
    Effect c ids (s.allocateToken.andThen f) :=
  ⟨h.declared, h.lastFutureTemplate, h.core⟩

/-- A handler that ends the loop. -/
theorem Effect.fatal {e : JDCError} {s₀ : ChannelManager api}
    (hs : s₀.lastFutureTemplate = c.lastFutureTemplate) (he : e.IsFatal) :
    Effect c [] (.fail s₀ e : Handled api) where
  declared := rfl
  lastFutureTemplate := hs
  core hgo := by
    rw [goesOn_eq_false (by simpa using he) (by simp)] at hgo
    cases hgo

theorem allocateTokenIf_silent (taken : Bool) (h : c.Kept s.core) :
    Silent c R (s.allocateTokenIf taken) := by
  unfold allocateTokenIf
  split
  · exact .say { h with } (by simp [Note.declares?])
  · exact .keep h

theorem requestInitialTokens_silent (s : ChannelManager api) :
    Silent s.core R s.requestInitialTokens := by
  have h : s.core.Kept ({ s with upstreamState := .noChannel } : ChannelManager api).core := .rfl
  exact (allocateTokenIf_silent true h).andThen fun _ h => allocateTokenIf_silent true h

theorem handleAllocateMiningJobTokenSuccess_silent (m : AllocateMiningJobTokenSuccess)
    (s : ChannelManager api) :
    Silent s.core (fun _ => True) (s.handleAllocateMiningJobTokenSuccess m) := by
  have h : s.core.Kept ({ s with
      coinbaseOutputs := m.coinbaseOutputs
      allocateTokens := s.allocateTokens ++ [m] } : ChannelManager api).core :=
    { Core.Kept.rfl with }
  unfold handleAllocateMiningJobTokenSuccess
  dsimp only
  split
  · split
    · exact .fail h trivial
    · exact .say h (by simp [Note.declares?])
  · exact .keep h

theorem handleDeclareMiningJobError_silent (code : String) (s : ChannelManager api) :
    Silent s.core (fun _ => True) (s.handleDeclareMiningJobError code) := by
  unfold handleDeclareMiningJobError
  split
  · exact .keep .rfl
  · exact .fail .rfl trivial

/-- Without a token there is no custom job. -/
theorem sendCustomJob_none {m : Option SetNewPrevHash} {t : Option NewTemplate}
    {outputs : List TxOut} : s.sendCustomJob none m t outputs = .keep s := rfl

theorem takeToken_false : s.takeToken false = (none, s) := rfl

/-- In full-template mode no token is taken for a custom job. -/
theorem wantsTemplateToken_full {t : NewTemplate} (h : s.mode = .fullTemplate) :
    s.wantsTemplateToken t = false := by
  simp [wantsTemplateToken, h]

theorem wantsUpstreamToken_full (h : s.mode = .fullTemplate) : s.wantsUpstreamToken = false := by
  simp [wantsUpstreamToken, h]

theorem rewardOutputs_fatal {stored : Bytes} {t : NewTemplate} {e : JDCError}
    (h : rewardOutputs stored t = .error e) : e.IsFatal := by
  unfold rewardOutputs at h
  split at h
  · obtain rfl := Except.error.inj h
    exact .inr rfl
  · split at h
    · obtain rfl := Except.error.inj h
      exact .inr rfl
    · cases h

theorem goesOn_fail {e : JDCError} (he : e.IsFatal) :
    Client.goesOn (.fail s e : Handled api) = false :=
  goesOn_eq_false (by simpa using he) (by simp)

theorem handleNewTemplate_silent (t : NewTemplate) (s : ChannelManager api)
    (hmode : s.mode = .fullTemplate) :
    Silent (s.core.takeTemplate t) (fun _ => True) (s.handleNewTemplate t) := by
  unfold handleNewTemplate
  dsimp only
  split
  · exact .fail .rfl trivial
  · rw [wantsTemplateToken_full, takeToken_false]
    swap
    · exact hmode
    refine Leaves.andThen (.say .rfl ?_) fun _ h => ?_
    · split <;> simp [Note.declares?]
    · refine Leaves.collect (.forEach (fun d _ s h => ?_) h) fun _ h => allocateTokenIf_silent _ h
      exact (blind_kept _).newTemplateDownstream (fun _ _ => trivial)
        (fun s h => by rw [sendCustomJob_none]; exact .keep h) h

theorem handleNewTemplate_requests {t : NewTemplate} (hmode : s.mode = .fullTemplate)
    (hgo : Client.goesOn (s.handleNewTemplate t) = true) :
    .requestTransactionData t.templateId ∈ (s.handleNewTemplate t).notes := by
  unfold handleNewTemplate at hgo ⊢
  dsimp only at hgo ⊢
  split
  · rename_i e he
    rw [he, goesOn_fail (rewardOutputs_fatal he)] at hgo
    cases hgo
  · rw [Outcome.andThen_eq_of_ok (say_error _ _)]
    simp [hmode]

/-- What was built for the last future template is declared, or a fatal error comes first. -/
theorem handleSetNewPrevHash_effect (m : SetNewPrevHash) (s : ChannelManager api)
    (hmode : s.mode = .fullTemplate) :
    Effect (s.core.setPrevHash m) (s.declareFuture.filterMap Note.declares?)
        (s.handleSetNewPrevHash m) ∨
      Effect s.core [] (s.handleSetNewPrevHash m) ∧
        Client.goesOn (s.handleSetNewPrevHash m) = false := by
  unfold handleSetNewPrevHash
  split
  · exact .inr ⟨.fatal rfl (.inr rfl), goesOn_fail (.inr rfl)⟩
  · have hwants : (s.mode = .coinbaseOnly && s.lastFutureTemplate.isSome : Bool) = false := by
      simp [hmode]
    dsimp only
    rw [hwants, takeToken_false]
    refine .inl (.sayThen (R := fun _ => True) ?_)
    have hcore : (s.core.setPrevHash m).Kept (s.applyPrevHash m).core :=
      { Core.Kept.rfl with hasUpstream := by simp [core, applyPrevHash, Core.setPrevHash] }
    refine Leaves.collect ?_ fun _ h => allocateTokenIf_silent _ h
    refine Leaves.andThen (.keep hcore) fun _ h => .forEach (fun d _ s h => ?_) h
    exact (blind_kept _).prevHashDownstream (fun _ _ => trivial) h

/-! ### The answers about declared jobs -/

/-- The stored job gets its custom job at most. -/
theorem handleDeclareMiningJobSuccess_silent (r : RequestId) (token : Bytes)
    (s : ChannelManager api) :
    Silent s.core (fun _ => True) (s.handleDeclareMiningJobSuccess r token) ∨
      ∃ job message, s.declaredJob? r = some job ∧
        Silent (s.core.storeJob r { job with setCustomMiningJob := some message }) (fun _ => True)
          (s.handleDeclareMiningJobSuccess r token) := by
  unfold handleDeclareMiningJobSuccess
  split
  · exact .inl (.fail .rfl trivial)
  · rename_i job hjob
    split
    · exact .inl (.fail .rfl trivial)
    · split
      · exact .inl (.fail .rfl trivial)
      · split
        · rename_i u f _ hf
          dsimp only
          split
          · exact .inl (.fail { Core.Kept.rfl with hasFactory := by simp [core, hf] } trivial)
          · rename_i message _
            refine .inr ⟨job, message, hjob, .say ?_ (by simp [Note.declares?])⟩
            have hfactory : (some f).isSome = s.core.hasFactory := by simp [core, hf]
            exact { Core.Kept.rfl with hasFactory := hfactory }
        · exact .inl (.fail .rfl trivial)

theorem handleSetCustomMiningJobSuccess_silent (r : RequestId) (j : JobId)
    (s : ChannelManager api) :
    Silent s.core (fun _ => True) (s.handleSetCustomMiningJobSuccess r j) ∨
      (s.declaredJob? r).isSome ∧
        Silent (s.core.removeJob r) (fun _ => True) (s.handleSetCustomMiningJobSuccess r j) := by
  unfold handleSetCustomMiningJobSuccess
  split
  · exact .inl (.fail .rfl trivial)
  · rename_i job hjob
    refine .inr ⟨by rw [hjob]; rfl, ?_⟩
    dsimp only
    split
    · exact .fail .rfl trivial
    · rename_i u hu
      split
      · exact .fail .rfl trivial
      · have hcore : ∀ u' : api.Upstream, (s.core.removeJob r).Kept
            ({ s.removeDeclaredJob r with
              templateIdToUpstreamJobId :=
                update s.templateIdToUpstreamJobId job.template.templateId (some j)
              cachedShares := update s.cachedShares job.template.templateId none
              upstreamChannel := some u' } : ChannelManager api).core := fun u' =>
          { Core.Kept.rfl with
            hasUpstream := (congrArg Option.isSome hu).symm }
        split
        · exact .fail (hcore _) trivial
        · exact .fail (hcore _) trivial
        · split
          · refine Leaves.collect (.forEach (fun entry _ s h => ?_) (hcore _)) fun _ h => .keep h
            exact (blind_kept _).relayShare h
          · exact .keep (hcore _)

theorem handleSetCustomMiningJobError_silent (r : RequestId) (code : String)
    (s : ChannelManager api) :
    Silent s.core (fun _ => True) (s.handleSetCustomMiningJobError r code) ∨
      (s.declaredJob? r).isSome ∧
        Silent (s.core.removeJob r) (fun _ => True) (s.handleSetCustomMiningJobError r code) := by
  unfold handleSetCustomMiningJobError
  split
  · split
    · exact .inl (.keep .rfl)
    · rename_i job hjob
      exact .inr ⟨by rw [hjob]; rfl, .keep .rfl⟩
  · exact .inl (.fail .rfl trivial)

/-! ### The upstream channel -/

theorem upstreamCustomJob_none {u : api.Upstream} {outputs : List TxOut} :
    s.upstreamCustomJob u none outputs = (s, api.newJobFactory, none) := rfl

/-- The channel of the pool is opened, and the last future template's data is requested again. -/
theorem handleOpenExtendedMiningChannelSuccess_silent (m : OpenExtendedMiningChannelSuccess)
    (slots : Nat → Nat) (s : ChannelManager api) (hmode : s.mode = .fullTemplate) :
    Silent s.core (fun _ => True) (s.handleOpenExtendedMiningChannelSuccess m slots) ∨
      Silent s.core.openUpstream (fun _ => True)
          (s.handleOpenExtendedMiningChannelSuccess m slots) ∧
        ∀ t, s.lastFutureTemplate = some t → .requestTransactionData t.templateId ∈
          (s.handleOpenExtendedMiningChannelSuccess m slots).notes := by
  unfold handleOpenExtendedMiningChannelSuccess
  split
  · exact .inl (.fail .rfl trivial)
  · split
    · exact .inl (.fail .rfl trivial)
    · split
      · exact .inl (.say { Core.Kept.rfl with } (by simp [Note.declares?]))
      · dsimp only
        split
        · exact .inl (.say { Core.Kept.rfl with } (by simp [Note.declares?]))
        · rw [wantsUpstreamToken_full hmode, takeToken_false, upstreamCustomJob_none]
          refine .inr ⟨Leaves.andThen (.say { Core.Kept.rfl with } ?_) fun _ h => ?_,
            fun t ht => ?_⟩
          · intro n hn
            rcases List.mem_append.mp hn with hn | hn
            · split at hn
              · obtain rfl := List.mem_singleton.mp hn
                rfl
              · simp at hn
            · simp at hn
          · refine Leaves.andThen (allocateTokenIf_silent _ h) fun _ h => ?_
            refine .forEach (fun r _ s h => (blind_kept _).handleOpenMiningChannel h) ?_
            exact { h with }
          · rw [Outcome.andThen_eq_of_ok (say_error _ _)]
            refine List.mem_append_left _ (List.mem_append_left _ ?_)
            simp [resizeGroups, hmode, ht]

/-! ### The answer to a request for transaction data

`declareJob_cases` lists what the building of the declaration can lead to, and
`handleRequestTxDataSuccess_cases` adds the two ways in which the handler does not get there. -/

/-- The job factory makes the coinbase of a declaration. -/
def buildsCoinbase (s : ChannelManager api) (t : NewTemplate) : Bool :=
  match s.upstreamChannel, s.jobFactory, rewardOutputs s.coinbaseOutputs t with
  | some u, some f, .ok outputs =>
      (api.newCoinbaseTxPrefixAndSuffix f t outputs (api.upstreamFullSize u)).2.toBool
  | _, _, _ => false

/-- A future template is not declared with its data, unless its previous hash is there. -/
def declaredNow (s : ChannelManager api) (t : NewTemplate) : Bool :=
  !(t.futureTemplate && s.lastNewPrevHash.map (·.templateId) ≠ some t.templateId)

/-- The message that declares a template. -/
def declaration (requestId : RequestId) (token : AllocateMiningJobTokenSuccess) (t : NewTemplate)
    (txs : List Transaction) (coinbaseTxPrefix coinbaseTxSuffix excess : Bytes) :
    DeclareMiningJob :=
  ⟨requestId, token.miningJobToken, t.version, coinbaseTxPrefix, coinbaseTxSuffix,
    txs.map fun tx => Sha256.digestTwice tx.encode, excess⟩

/-- What is stored of it. -/
def declaredJob (message : DeclareMiningJob) (t : NewTemplate) (prevHash : Option SetNewPrevHash)
    (outputs : List TxOut) (transactionList : List Bytes) : DeclaredJob :=
  ⟨some message, t, prevHash, none, TxOut.encodeVec outputs, transactionList⟩

/-- A declaration is built, or the reason why not. -/
theorem declareJob_cases (requestId : RequestId) (token : AllocateMiningJobTokenSuccess)
    {t : NewTemplate} {outputs : List TxOut} (txs : List Bytes) (excess : Bytes)
    (hout : rewardOutputs s.coinbaseOutputs t = .ok outputs) :
    let o := s.declareJob requestId s.lastNewPrevHash token t outputs txs excess
    Effect s.core [] o ∧ (Client.goesOn o = true → s.buildsCoinbase t = false) ∨
      ∃ job : DeclaredJob, job.template = t ∧ job.declareMiningJob.isSome ∧
        s.upstreamChannel.isSome ∧ Effect (s.core.storeJob requestId job)
          (if s.declaredNow t then [t.templateId] else []) o := by
  intro o
  -- a panic ends the loop, and a part that failed built nothing
  have hfatal : ∀ {s₀ : ChannelManager api} {e : JDCError},
      s₀.lastFutureTemplate = s.lastFutureTemplate → e.IsFatal →
      Effect s.core [] (.fail s₀ e : Handled api) ∧
        (Client.goesOn (.fail s₀ e : Handled api) = true → s.buildsCoinbase t = false) := by
    intro s₀ e hs he
    refine ⟨.fatal hs he, fun hgo => ?_⟩
    rw [goesOn_fail he] at hgo
    cases hgo
  have hnone : (s.upstreamChannel = none ∨ s.jobFactory = none) → s.buildsCoinbase t = false := by
    rintro (h | h) <;> simp [buildsCoinbase, h]
  unfold o declareJob
  split
  · exact .inl (hfatal rfl (.inr rfl))
  · rename_i parsed _
    split
    · exact .inl (hfatal rfl (.inr rfl))
    · split
      · rename_i u f hu hf
        dsimp only
        split
        · rename_i e he
          refine .inl ⟨(Silent.effect (R := fun _ => True) (.keep ?_)), fun _ => ?_⟩
          · exact { Core.Kept.rfl with hasFactory := by simp [core, hf] }
          · simp [buildsCoinbase, hu, hf, hout, he, Except.toBool]
        · split
          · exact .inl (hfatal rfl (.inr rfl))
          · rename_i p q hbuilt _
            refine .inr ⟨declaredJob (declaration requestId token t parsed p q excess) t
              s.lastNewPrevHash outputs txs, rfl, rfl, by simp [hu], ?_⟩
            have hlater : (t.futureTemplate &&
                decide (s.lastNewPrevHash.map (·.templateId) ≠ some t.templateId)) =
                !s.declaredNow t := by
              simp only [declaredNow, Bool.not_not]
            have hfactory : (some f).isSome = s.core.hasFactory := by simp [core, hf]
            rw [hlater]
            cases s.declaredNow t with
            | false =>
                exact Silent.effect (R := fun _ => True)
                  (.keep { Core.Kept.rfl with hasFactory := hfactory })
            | true => exact ⟨rfl, rfl, fun _ => { Core.Kept.rfl with hasFactory := hfactory }⟩
      · rename_i hmissing
        refine .inl ⟨Silent.effect (R := fun _ => True) (.keep .rfl), fun _ => hnone ?_⟩
        by_contra h
        obtain ⟨hu, hf⟩ := not_or.mp h
        obtain ⟨u, hu⟩ := Option.ne_none_iff_exists'.mp hu
        obtain ⟨f, hf⟩ := Option.ne_none_iff_exists'.mp hf
        exact hmissing u f hu hf

/-- What the answer to a request for transaction data leads to. -/
theorem handleRequestTxDataSuccess_cases (id : TemplateId) (txs : List Bytes) (excess : Bytes)
    (s : ChannelManager api) :
    let o := s.handleRequestTxDataSuccess id txs excess
    Effect s.core [] o ∧ Client.goesOn o = false ∨
      Effect (s.core.dropTemplate id) [] o ∧ (Client.goesOn o = true →
        ∀ t, s.templateStore id = some t → s.allocateTokens ≠ [] → s.buildsCoinbase t = false) ∨
      ∃ (t : NewTemplate) (job : DeclaredJob), s.templateStore id = some t ∧ job.template = t ∧
        job.declareMiningJob.isSome ∧ s.upstreamChannel.isSome ∧
        Effect ((s.core.dropTemplate id).storeJob s.requestIdFactory job)
          (if s.declaredNow t then [t.templateId] else []) o := by
  intro o
  unfold o handleRequestTxDataSuccess
  split
  · exact .inl ⟨.fatal rfl (.inr rfl), goesOn_fail (.inr rfl)⟩
  · rename_i outputs houtputs
    dsimp only
    cases htoken : s.allocateTokens.head? with
    | none =>
        refine .inr (.inl ⟨.tokenThen (Silent.effect (R := fun _ => True) (.keep ?_)), ?_⟩)
        · exact { Core.Kept.rfl with }
        · intro _ t _ hne
          exact absurd (List.head?_eq_none_iff.mp htoken) hne
    | some token =>
        cases ht : s.templateStore id with
        | none =>
            refine .inr (.inl ⟨.tokenThen (Silent.effect (R := fun _ => True)
              (.fail ?_ trivial)), nofun⟩)
            exact { Core.Kept.rfl with }
        | some t =>
            dsimp only
            cases hreward : withReward t.coinbaseTxValueRemaining outputs with
            | none => exact .inl ⟨.tokenThen (.fatal rfl (.inr rfl)), rfl⟩
            | some outputs' =>
                have hout : rewardOutputs s.coinbaseOutputs t = .ok outputs' := by
                  simp [rewardOutputs, houtputs, hreward]
                have hcases := declareJob_cases s.requestIdFactory token txs excess (s := ({ s with
                    allocateTokens := s.allocateTokens.tail
                    templateStore := update s.templateStore id none
                    requestIdFactory := s.requestIdFactory + 1 } :
                      ChannelManager api).allocateToken.value) hout
                rcases hcases with ⟨heff, hwhy⟩ | ⟨job, hjob, hdecl, hu, heff⟩
                · refine .inr (.inl ⟨.tokenThen ⟨heff.declared, heff.lastFutureTemplate, ?_⟩, ?_⟩)
                  · exact fun hgo => { heff.core hgo with }
                  · intro hgo t' ht' _
                    obtain rfl := Option.some.inj ht'
                    exact hwhy hgo
                · refine .inr (.inr ⟨t, job, rfl, hjob, hdecl, hu, .tokenThen ?_⟩)
                  exact ⟨heff.declared, heff.lastFutureTemplate, fun hgo => { heff.core hgo with }⟩

end ChannelManager

end GridPoolSv2.JobDeclaratorClient
