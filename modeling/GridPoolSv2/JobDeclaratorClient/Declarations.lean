import GridPoolSv2.JobDeclaratorClient.FullTemplate

/-!
# JobDeclaratorClient.Declarations: every template is declared once, and in time

* `Stage` is the life of the last future template: its data is awaited, its declaration is built, it
  is declared, or it is lost, because its data was answered before there was an upstream channel.
* `Live` is the invariant, with one lemma for each change of the core.
* `Tracked` is the client with the requests that are open and the tip each template belongs to.
  `Declares` is what is expected of a step, and `InTurn` the condition.

A future template, its transaction data and its previous hash arrive in this order or with the last
two exchanged. In the first case the declaration is built with the data and sent with the previous
hash, in the second it is built and sent with the data.

Proof shape: what matters of the state is its `Core`, and `FullTemplate` says what the handlers do
to it: a template is taken, the upstream channel is opened, the data is dropped, a declaration is
stored, replaced or removed, a previous hash is set. `Live` has a lemma for each of these. `Keeps`
carries them through the handlers, with what a handler requests and declares, and `inv_step` through
a run. What is expected of a step is then read off the stage: `Stage.once` when the data is in and
the previous hash is, and `Stage.notBefore` until then.
-/

namespace GridPoolSv2.JobDeclaratorClient

open Consensus (Bytes)
open Visit Handler

/-! ### Templates and their tips

The ledger of the node's side: what has been sent, which tip it belongs to, and what has been
requested. -/

/-- What is known about templates from the messages alone. -/
structure Books where
  /-- The requests for transaction data that were not answered. -/
  requested : List TemplateId
  received : List TemplateId
  /-- The templates a `SetNewPrevHash` named. -/
  activated : List TemplateId
  /-- The templates of the current tip, and those of earlier tips. -/
  tip : List TemplateId
  earlier : List TemplateId
  deriving Repr, DecidableEq

namespace Books

def empty : Books := ⟨[], [], [], [], []⟩

/-- A message of the template provider. A future template belongs to the tip that activates it. -/
def enter (g : Books) : Event → Books
  | .newTemplate t =>
      { g with
        received := t.templateId :: g.received
        tip := if t.futureTemplate then g.tip else t.templateId :: g.tip }
  | .setNewPrevHash m =>
      { g with
        activated := m.templateId :: g.activated
        tip := [m.templateId]
        earlier := (g.earlier ++ g.tip).filter (· ≠ m.templateId) }
  | .requestTxDataSuccess id _ _ => { g with requested := g.requested.erase id }
  | _ => g

def request (g : Books) (ids : List TemplateId) : Books :=
  { g with requested := g.requested ++ ids }

end Books

/-! ### The life of the last future template -/

/-- Where the last future template `t` is, when the templates `d` were declared. -/
inductive Stage (c : Core) (g : Books) (d : List TemplateId) (t : NewTemplate) : Prop
  /-- Its transaction data is awaited. -/
  | waiting (stored : c.templateStore t.templateId = some t) (fresh : t.templateId ∉ d)
      (requested : c.hasUpstream = true → t.templateId ∈ g.requested)
      (tip : t.templateId ∈ g.activated →
        c.lastNewPrevHash.map (·.templateId) = some t.templateId)
  /-- Its declaration is built, and waits for the previous hash. -/
  | built (taken : c.templateStore t.templateId = none) (fresh : t.templateId ∉ d)
      (early : t.templateId ∉ g.activated) (r : RequestId) (job : DeclaredJob)
      (stored : c.job? r = some job) (same : job.template.templateId = t.templateId)
  | declared (taken : c.templateStore t.templateId = none) (once : d.count t.templateId = 1)
      (active : t.templateId ∈ g.activated)
  /-- Its data was answered when there was no upstream channel. -/
  | lost (taken : c.templateStore t.templateId = none) (fresh : t.templateId ∉ d)
      (closed : c.hasUpstream = false)
      (none : ∀ e ∈ c.lastDeclareJobStore, e.2.template.templateId ≠ t.templateId)

/-- The invariant of the loop, while it goes on. -/
structure Live (c : Core) (g : Books) (d : List TemplateId) : Prop where
  mode : c.mode = .fullTemplate
  declared : ∀ id ∈ d, id ∈ g.received
  stored : ∀ id t, c.templateStore id = some t → t.templateId = id ∧ id ∈ g.received
  jobs : ∀ e ∈ c.lastDeclareJobStore, e.2.template.templateId ∈ g.received ∧
    c.templateStore e.2.template.templateId = none ∧ e.2.declareMiningJob.isSome
  tip : ∀ m, c.lastNewPrevHash = some m → m.templateId ∈ g.activated ∧ m.templateId ∉ g.earlier
  future : ∀ t, c.lastFutureTemplate = some t →
    t.futureTemplate = true ∧ t.templateId ∈ g.received ∧ Stage c g d t

section Live

variable {c c' : Core} {g g' : Books} {d : List TemplateId} {t : NewTemplate}

/-- A stage depends on few cells. -/
theorem Stage.congr (h : Stage c g d t)
    (hstore : c'.templateStore t.templateId = c.templateStore t.templateId)
    (hjobs : c'.lastDeclareJobStore = c.lastDeclareJobStore)
    (htip : c'.lastNewPrevHash = c.lastNewPrevHash) (hup : c'.hasUpstream = c.hasUpstream)
    (hreq : t.templateId ∈ g.requested → t.templateId ∈ g'.requested)
    (hact : g'.activated = g.activated) : Stage c' g' d t := by
  cases h with
  | waiting stored fresh requested tip =>
      refine .waiting (hstore.trans stored) fresh (fun hu => hreq (requested ?_)) ?_
      · rwa [hup] at hu
      · rwa [hact, htip]
  | built taken fresh early r job stored same =>
      refine .built (hstore.trans taken) fresh (by rwa [hact]) r job ?_ same
      rwa [Core.job?, hjobs]
  | declared taken once active => exact .declared (hstore.trans taken) once (by rwa [hact])
  | lost taken fresh closed none =>
      exact .lost (hstore.trans taken) fresh (hup.trans closed) (by rwa [hjobs])

theorem Live.kept (h : Live c g d) (hk : c.Kept c') : Live c' g d where
  mode := hk.mode.trans h.mode
  declared := h.declared
  stored := by rw [hk.templateStore]; exact h.stored
  jobs := by rw [hk.lastDeclareJobStore, hk.templateStore]; exact h.jobs
  tip := by rw [hk.lastNewPrevHash]; exact h.tip
  future := by
    rw [hk.lastFutureTemplate]
    intro t ht
    obtain ⟨hf, hr, hstage⟩ := h.future t ht
    exact ⟨hf, hr, hstage.congr (by rw [hk.templateStore]) hk.lastDeclareJobStore
      hk.lastNewPrevHash hk.hasUpstream id rfl⟩

/-- More open requests. -/
theorem Live.request (h : Live c g d) (ids : List TemplateId) : Live c (g.request ids) d :=
  { h with
    future := fun t ht => by
      obtain ⟨hf, hr, hstage⟩ := h.future t ht
      exact ⟨hf, hr, hstage.congr rfl rfl rfl rfl (List.mem_append_left _) rfl⟩ }

/-- Once the last future template is activated, the channel is open and no data is awaited, it has
been declared exactly once. -/
theorem Stage.once (h : Stage c g d t) (hup : c.hasUpstream = true)
    (hact : t.templateId ∈ g.activated) (hreq : g.requested = []) : d.count t.templateId = 1 := by
  cases h with
  | waiting stored fresh requested tip =>
      have hmem := requested hup
      simp [hreq] at hmem
  | built taken fresh early => exact absurd hact early
  | declared taken once active => exact once
  | lost taken fresh closed =>
      rw [closed] at hup
      cases hup

/-- Until its previous hash has come, the last future template is not declared. -/
theorem Stage.notBefore (h : Stage c g d t) (hact : t.templateId ∉ g.activated) :
    t.templateId ∉ d := by
  cases h with
  | waiting stored fresh => exact fresh
  | built taken fresh => exact fresh
  | declared taken once active => exact absurd active hact
  | lost taken fresh => exact fresh

/-! ### One lemma for each change of the core

The changes are those of `FullTemplate`. What a change does to the stage is the only thing that
differs. -/

/-- A new template, whose data is requested at once. -/
theorem Live.takeTemplate (h : Live c g d) {ids : List TemplateId}
    (hnew : t.templateId ∉ g.received)
    (htip : t.futureTemplate = true → t.templateId ∈ g.activated →
      c.lastNewPrevHash.map (·.templateId) = some t.templateId)
    (hreq : t.templateId ∈ ids) :
    Live (c.takeTemplate t) ((g.enter (.newTemplate t)).request ids) d where
  mode := h.mode
  declared id hid := List.mem_cons_of_mem _ (h.declared id hid)
  stored id t' ht' := by
    simp only [Core.takeTemplate, Function.update_apply] at ht'
    split at ht'
    · obtain rfl := Option.some.inj ht'
      exact ⟨(‹id = _›).symm, by simp [Books.enter, Books.request, ‹id = _›]⟩
    · obtain ⟨hid, hr⟩ := h.stored id t' ht'
      exact ⟨hid, List.mem_cons_of_mem _ hr⟩
  jobs e he := by
    obtain ⟨hr, hs, hsome⟩ := h.jobs e he
    have hne : e.2.template.templateId ≠ t.templateId := fun heq => hnew (heq ▸ hr)
    exact ⟨List.mem_cons_of_mem _ hr, by simpa [Core.takeTemplate, hne] using hs, hsome⟩
  tip := h.tip
  future t' ht' := by
    simp only [Core.takeTemplate] at ht'
    split at ht'
    · rename_i hf
      obtain rfl := Option.some.inj ht'
      refine ⟨hf, List.mem_cons_self, .waiting (by simp [Core.takeTemplate]) ?_ ?_ (htip hf)⟩
      · exact fun hmem => hnew (h.declared _ hmem)
      · exact fun _ => List.mem_append_right _ hreq
    · obtain ⟨hf, hr, hstage⟩ := h.future t' ht'
      have hne : t'.templateId ≠ t.templateId := fun heq => hnew (heq ▸ hr)
      refine ⟨hf, List.mem_cons_of_mem _ hr, ?_⟩
      exact hstage.congr (by simp [Core.takeTemplate, hne]) rfl rfl rfl
        (fun hmem => List.mem_append_left _ hmem) rfl

/-- The pool's channel opens, and the data of the last future template is not answered yet. -/
theorem Live.openUpstream (h : Live c g d) {ids : List TemplateId}
    (hreq : ∀ t, c.lastFutureTemplate = some t → t.templateId ∈ ids)
    (hwaits : c.hasUpstream = false → ∀ t, c.lastFutureTemplate = some t →
      c.templateStore t.templateId ≠ none) :
    Live c.openUpstream (g.request ids) d :=
  { h with
    future := fun t ht => by
      obtain ⟨hf, hr, hstage⟩ := h.future t ht
      refine ⟨hf, hr, ?_⟩
      cases hstage with
      | waiting stored fresh requested tip =>
          exact .waiting stored fresh (fun _ => List.mem_append_right _ (hreq t ht)) tip
      | built taken fresh early r job stored same =>
          exact .built taken fresh early r job stored same
      | declared taken once active => exact .declared taken once active
      | lost taken fresh closed => exact absurd taken (hwaits closed t ht) }

/-- Data that is answered without a declaration: of another template, or without a channel. -/
theorem Live.dropTemplate (h : Live c g d) {id : TemplateId} {txs : List Bytes} {excess : Bytes}
    (hclosed : ∀ t, c.lastFutureTemplate = some t → t.templateId = id →
      c.templateStore id = some t → c.hasUpstream = false) :
    Live (c.dropTemplate id) (g.enter (.requestTxDataSuccess id txs excess)) d where
  mode := h.mode
  declared := h.declared
  stored id' t ht := by
    simp only [Core.dropTemplate, Function.update_apply] at ht
    split at ht
    · cases ht
    · exact h.stored id' t ht
  jobs e he := by
    obtain ⟨hr, hs, hsome⟩ := h.jobs e he
    exact ⟨hr, by simp [Core.dropTemplate, Function.update_apply, hs], hsome⟩
  tip := h.tip
  future t ht := by
    obtain ⟨hf, hr, hstage⟩ := h.future t ht
    refine ⟨hf, hr, ?_⟩
    by_cases hid : t.templateId = id
    · subst hid
      have htaken : (c.dropTemplate t.templateId).templateStore t.templateId = none := by
        simp [Core.dropTemplate]
      cases hstage with
      | waiting stored fresh =>
          refine .lost htaken fresh (hclosed t ht rfl stored) fun e he heq => ?_
          have hs := (h.jobs e he).2.1
          rw [heq, stored] at hs
          cases hs
      | built taken fresh early r job stored same =>
          exact .built htaken fresh early r job stored same
      | declared taken once active => exact .declared htaken once active
      | lost taken fresh closed none => exact .lost htaken fresh closed none
    · exact hstage.congr (by simp [Core.dropTemplate, hid]) rfl rfl rfl
        (fun hmem => (List.mem_erase_of_ne hid).mpr hmem) rfl

/-- The job stored last is found under its request id. -/
theorem Core.job?_storeJob_self {r : RequestId} {job : DeclaredJob} :
    (c.storeJob r job).job? r = some job :=
  List.lookup_cons_self

theorem lookup_filter_ne {l : List (RequestId × DeclaredJob)} {r r' : RequestId} (h : r' ≠ r) :
    (l.filter (·.1 ≠ r)).lookup r' = l.lookup r' := by
  induction l with
  | nil => rfl
  | cons e l ih =>
      by_cases he : e.1 = r
      · have hne : (r' == e.1) = false := by simpa [he] using h
        rw [List.filter_cons_of_neg (by simpa using he), ih, List.lookup_cons, hne]
      · rw [List.filter_cons_of_pos (by simpa using he), List.lookup_cons, List.lookup_cons, ih]

theorem Core.job?_storeJob_ne {r r' : RequestId} {job : DeclaredJob} (h : r' ≠ r) :
    (c.storeJob r job).job? r' = c.job? r' := by
  have hne : (r' == r) = false := by simpa using h
  rw [Core.job?, Core.storeJob, List.lookup_cons, hne]
  exact lookup_filter_ne h

/-- The jobs of the store after `storeJob`. -/
theorem Core.mem_storeJob {r : RequestId} {job : DeclaredJob} {e : RequestId × DeclaredJob}
    (he : e ∈ (c.storeJob r job).lastDeclareJobStore) :
    e = (r, job) ∨ e ∈ c.lastDeclareJobStore :=
  (List.mem_cons.mp he).imp_right fun h => (List.mem_filter.mp h).1

/-- The custom job of a declared job was sent. -/
theorem Live.replaceJob (h : Live c g d) {r : RequestId} {job : DeclaredJob}
    (hjob : c.job? r = some job) {message : SetCustomMiningJob} :
    Live (c.storeJob r { job with setCustomMiningJob := some message }) g d :=
  { h with
    jobs := fun e he => by
      rcases Core.mem_storeJob he with rfl | he
      · exact h.jobs (r, job) (Core.mem_of_job? hjob)
      · exact h.jobs e he
    future := fun t ht => by
      obtain ⟨hf, hr, hstage⟩ := h.future t ht
      refine ⟨hf, hr, ?_⟩
      cases hstage with
      | waiting stored fresh requested tip => exact .waiting stored fresh requested tip
      | built taken fresh early r' job' stored same =>
          by_cases hr' : r' = r
          · subst hr'
            obtain rfl := Option.some.inj (hjob.symm.trans stored)
            exact .built taken fresh early r' _ Core.job?_storeJob_self same
          · exact .built taken fresh early r' job' ((Core.job?_storeJob_ne hr').trans stored) same
      | declared taken once active => exact .declared taken once active
      | lost taken fresh closed none =>
          refine .lost taken fresh closed fun e he => ?_
          rcases Core.mem_storeJob he with rfl | he
          · exact none (r, job) (Core.mem_of_job? hjob)
          · exact none e he }

/-- A custom job was answered, and if it was for the last future template, that is active. -/
theorem Live.removeJob (h : Live c g d) {r : RequestId}
    (hactive : ∀ t job, c.lastFutureTemplate = some t → c.job? r = some job →
      job.template.templateId = t.templateId → t.templateId ∈ g.activated) :
    Live (c.removeJob r) g d :=
  { h with
    jobs := fun e he => h.jobs e (List.mem_filter.mp he).1
    future := fun t ht => by
      obtain ⟨hf, hr, hstage⟩ := h.future t ht
      refine ⟨hf, hr, ?_⟩
      cases hstage with
      | waiting stored fresh requested tip => exact .waiting stored fresh requested tip
      | built taken fresh early r' job stored same =>
          have hne : r' ≠ r := by
            rintro rfl
            exact early (hactive t job ht stored same)
          exact .built taken fresh early r' job ((lookup_filter_ne hne).trans stored) same
      | declared taken once active => exact .declared taken once active
      | lost taken fresh closed none =>
          exact .lost taken fresh closed fun e he => none e (List.mem_filter.mp he).1 }

/-- Data that is answered with a declaration, which is sent now or with the previous hash. -/
theorem Live.storeJob (h : Live c g d) {id : TemplateId} {txs : List Bytes} {excess : Bytes}
    {r : RequestId} {job : DeclaredJob} {t₀ : NewTemplate} (hstored : c.templateStore id = some t₀)
    (hup : c.hasUpstream = true) (hr : c.job? r = none) (hjob : job.template = t₀)
    (hsome : job.declareMiningJob.isSome) {now : Bool}
    (hnow : now = true ↔ (t₀.futureTemplate = true →
      c.lastNewPrevHash.map (·.templateId) = some id)) :
    Live ((c.dropTemplate id).storeJob r job) (g.enter (.requestTxDataSuccess id txs excess))
      (d ++ if now then [id] else []) where
  mode := h.mode
  declared id' hid := by
    rcases List.mem_append.mp hid with hid | hid
    · exact h.declared id' hid
    · split at hid
      · obtain rfl := List.mem_singleton.mp hid
        exact (h.stored _ t₀ hstored).2
      · cases hid
  stored id' t ht := by
    simp only [Core.storeJob, Core.dropTemplate, Function.update_apply] at ht
    split at ht
    · cases ht
    · exact h.stored id' t ht
  jobs e he := by
    obtain ⟨hid, hrec⟩ := h.stored id t₀ hstored
    rcases Core.mem_storeJob he with rfl | he
    · rw [hjob, hid]
      exact ⟨hrec, by simp [Core.storeJob, Core.dropTemplate], hsome⟩
    · obtain ⟨hr, hs, hsome⟩ := h.jobs e he
      exact ⟨hr, by simp [Core.storeJob, Core.dropTemplate, Function.update_apply, hs], hsome⟩
  tip := h.tip
  future t ht := by
    obtain ⟨hf, hrec, hstage⟩ := h.future t ht
    refine ⟨hf, hrec, ?_⟩
    by_cases hid : t.templateId = id
    · subst hid
      have htaken : ((c.dropTemplate t.templateId).storeJob r job).templateStore t.templateId =
          none := by
        simp [Core.storeJob, Core.dropTemplate]
      cases hstage with
      | waiting stored fresh requested tip =>
          obtain rfl := Option.some.inj (stored.symm.trans hstored)
          cases now with
          | true =>
              have htip := hnow.mp rfl hf
              obtain ⟨m, hm, hmid⟩ := Option.map_eq_some_iff.mp htip
              refine .declared htaken ?_ (hmid ▸ (h.tip m hm).1)
              simp [List.count_eq_zero_of_not_mem fresh]
          | false =>
              have hearly : t.templateId ∉ g.activated := fun hmem => by
                have hcontra := hnow.mpr fun _ => tip hmem
                cases hcontra
              exact .built htaken (by simpa using fresh) hearly r job Core.job?_storeJob_self
                (by rw [hjob])
      | built taken => simp [taken] at hstored
      | declared taken => simp [taken] at hstored
      | lost taken => simp [taken] at hstored
    · have hkeep : ((c.dropTemplate id).storeJob r job).templateStore t.templateId =
          c.templateStore t.templateId := by
        simp [Core.storeJob, Core.dropTemplate, hid]
      have hother : t.templateId ∉ (if now then [id] else [] : List TemplateId) := by
        split <;> simp [hid]
      cases hstage with
      | waiting stored fresh requested tip =>
          refine .waiting (hkeep.trans stored) (by simp [fresh, hother]) (fun hu => ?_) tip
          exact (List.mem_erase_of_ne hid).mpr (requested hu)
      | built taken fresh early r' job' stored same =>
          have hne : r' ≠ r := by
            rintro rfl
            rw [hr] at stored
            cases stored
          exact .built (hkeep.trans taken) (by simp [fresh, hother]) early r' job'
            ((Core.job?_storeJob_ne hne).trans stored) same
      | declared taken once active =>
          refine .declared (hkeep.trans taken) ?_ active
          rw [List.count_append, once, List.count_eq_zero_of_not_mem hother]
      | lost taken fresh closed =>
          rw [closed] at hup
          cases hup

/-- The template a previous hash declares: the last future one, if it is built. -/
def Core.futureDeclaration (c : Core) : List TemplateId :=
  match c.lastFutureTemplate with
  | none => []
  | some t =>
      if c.lastDeclareJobStore.any fun e => e.2.template.templateId = t.templateId then
        [t.templateId]
      else []

theorem Core.futureDeclaration_eq_nil (ht : c.lastFutureTemplate = some t) :
    c.futureDeclaration = [] ↔
      ∀ e ∈ c.lastDeclareJobStore, e.2.template.templateId ≠ t.templateId := by
  simp [Core.futureDeclaration, ht]

theorem Core.futureDeclaration_eq (ht : c.lastFutureTemplate = some t)
    (h : c.futureDeclaration ≠ []) : c.futureDeclaration = [t.templateId] := by
  simp only [Core.futureDeclaration, ht] at h ⊢
  split at h
  · rw [if_pos ‹_›]
  · exact absurd rfl h

theorem DeclaredJob.activate_templateId (m : SetNewPrevHash) (job : DeclaredJob) :
    (job.activate m).template.templateId = job.template.templateId := by
  unfold DeclaredJob.activate
  split <;> rfl

theorem DeclaredJob.activate_declareMiningJob (m : SetNewPrevHash) (job : DeclaredJob) :
    (job.activate m).declareMiningJob = job.declareMiningJob := by
  unfold DeclaredJob.activate
  split <;> rfl

/-- The store keeps its keys and the templates. -/
theorem Core.mem_setPrevHash {m : SetNewPrevHash} {e : RequestId × DeclaredJob}
    (he : e ∈ (c.setPrevHash m).lastDeclareJobStore) :
    ∃ job, (e.1, job) ∈ c.lastDeclareJobStore ∧ e.2 = job.activate m := by
  obtain ⟨e₀, he₀, rfl⟩ := List.mem_map.mp he
  exact ⟨e₀.2, he₀, rfl⟩

/-- The previous hash of the last future template, or one that finds nothing built for it. -/
theorem Live.setPrevHash (h : Live c g d) {m : SetNewPrevHash}
    (hturn : ∀ t, c.lastFutureTemplate = some t →
      m.templateId = t.templateId ∧ t.templateId ∉ g.activated ∨
        c.futureDeclaration = [] ∧ (m.templateId = t.templateId ∨ t.templateId ∉ g.activated ∨
          c.templateStore t.templateId = none)) :
    Live (c.setPrevHash m) (g.enter (.setNewPrevHash m)) (d ++ c.futureDeclaration) where
  mode := h.mode
  declared id hid := by
    rcases List.mem_append.mp hid with hid | hid
    · exact h.declared id hid
    · cases ht : c.lastFutureTemplate with
      | none => simp [Core.futureDeclaration, ht] at hid
      | some t =>
          rw [Core.futureDeclaration_eq ht (List.ne_nil_of_mem hid)] at hid
          obtain rfl := List.mem_singleton.mp hid
          exact (h.future t ht).2.1
  stored := h.stored
  jobs e he := by
    obtain ⟨job, hmem, heq⟩ := Core.mem_setPrevHash he
    rw [heq, DeclaredJob.activate_templateId, DeclaredJob.activate_declareMiningJob]
    exact h.jobs _ hmem
  tip m' hm' := by
    obtain rfl := Option.some.inj hm'
    exact ⟨List.mem_cons_self, by simp [Books.enter]⟩
  future t (ht : c.lastFutureTemplate = some t) := by
    obtain ⟨hf, hrec, hstage⟩ := h.future t ht
    refine ⟨hf, hrec, ?_⟩
    cases hstage with
    | waiting stored fresh requested tip =>
        -- nothing is built for a template that is still in the store
        have hnone : c.futureDeclaration = [] := by
          refine (Core.futureDeclaration_eq_nil ht).mpr fun e he heq => ?_
          have hs := (h.jobs e he).2.1
          rw [heq, stored] at hs
          cases hs
        rw [hnone, List.append_nil]
        refine .waiting stored fresh requested fun hmem => ?_
        rcases List.mem_cons.mp hmem with hm | hact
        · simp [Core.setPrevHash, hm]
        · rcases hturn t ht with ⟨hm, -⟩ | ⟨-, hm | hnot | htaken⟩
          · simp [Core.setPrevHash, hm]
          · simp [Core.setPrevHash, hm]
          · exact absurd hact hnot
          · simp [stored] at htaken
    | built taken fresh early r job stored same =>
        have hsome : c.futureDeclaration ≠ [] := fun hnil =>
          (Core.futureDeclaration_eq_nil ht).mp hnil _ (Core.mem_of_job? stored) same
        rcases hturn t ht with ⟨hm, -⟩ | ⟨hnone, -⟩
        · refine .declared taken ?_ (hm ▸ List.mem_cons_self)
          rw [Core.futureDeclaration_eq ht hsome, List.count_append,
            List.count_eq_zero_of_not_mem fresh, List.count_singleton_self]
        · exact absurd hnone hsome
    | declared taken once active =>
        rcases hturn t ht with ⟨-, hnot⟩ | ⟨hnone, -⟩
        · exact absurd active hnot
        · rw [hnone, List.append_nil]
          exact .declared taken once (List.mem_cons_of_mem _ active)
    | lost taken fresh closed none =>
        rw [(Core.futureDeclaration_eq_nil ht).mpr none, List.append_nil]
        refine .lost taken fresh closed fun e he => ?_
        obtain ⟨job, hmem, heq⟩ := Core.mem_setPrevHash he
        rw [heq, DeclaredJob.activate_templateId]
        exact none _ hmem

end Live

/-! ### One handler

`Keeps` is what a handler does to the invariant, and which declarations it may make. The lemmas
follow the cases of `FullTemplate`. -/

theorem Live.notBefore {c : Core} {g : Books} {d : List TemplateId} {t : NewTemplate}
    (h : Live c g d) (ht : c.lastFutureTemplate = some t) (hact : t.templateId ∉ g.activated) :
    t.templateId ∉ d :=
  (h.future t ht).2.2.notBefore hact

namespace ChannelManager

variable {api : ChannelsSv2}

/-- The messages come in an order in which each future template can be declared once, with its
previous hash. -/
def InTurn (s : ChannelManager api) (g : Books) : Event → Prop
  | .activate mode => mode = .fullTemplate
  -- a template id is used once
  | .newTemplate t =>
      t.templateId ∉ g.received ∧ (t.futureTemplate = true → t.templateId ∈ g.activated →
        s.lastNewPrevHash.map (·.templateId) = some t.templateId)
  -- a declaration that is built is sent by the previous hash of its template
  | .setNewPrevHash m =>
      ∀ t ∈ s.lastFutureTemplate,
        m.templateId = t.templateId ∧ t.templateId ∉ g.activated ∨
          s.futureDeclaredJob = none ∧ (m.templateId = t.templateId ∨ t.templateId ∉ g.activated ∨
            s.templateStore t.templateId = none)
  -- with an upstream channel the data of the last future template leads to a declaration, and a
  -- template that is not a future one is of the current tip
  | .requestTxDataSuccess id _ _ =>
      s.upstreamChannel.isSome = true → ∀ t ∈ s.templateStore id,
        s.declaredJob? s.requestIdFactory = none ∧
          (s.lastFutureTemplate = some t → s.allocateTokens ≠ [] ∧ s.buildsCoinbase t = true) ∧
          (t.futureTemplate = false → id ∉ g.earlier)
  -- the data of the last future template was not answered before
  | .openExtendedMiningChannelSuccess _ _ =>
      s.upstreamChannel.isSome = false → ∀ t ∈ s.lastFutureTemplate,
        s.templateStore t.templateId ≠ none
  -- a custom job that is answered was declared
  | .setCustomMiningJobSuccess r _ | .setCustomMiningJobError r _ =>
      ∀ t ∈ s.lastFutureTemplate, ∀ job ∈ s.declaredJob? r,
        job.template.templateId = t.templateId → t.templateId ∈ g.activated
  | _ => True

instance (s : ChannelManager api) (g : Books) (e : Event) : Decidable (s.InTurn g e) :=
  match e with
  | .activate _ => inferInstanceAs (Decidable (_ = _))
  | .newTemplate _ => inferInstanceAs (Decidable (_ ∧ _))
  | .setNewPrevHash _ => inferInstanceAs (Decidable (∀ t ∈ s.lastFutureTemplate, _))
  | .requestTxDataSuccess _ _ _ | .openExtendedMiningChannelSuccess _ _ =>
      inferInstanceAs (Decidable (_ → _))
  | .setCustomMiningJobSuccess _ _ | .setCustomMiningJobError _ _ =>
      inferInstanceAs (Decidable (∀ t ∈ s.lastFutureTemplate, _))
  | .requestInitialTokens | .connect _ | .disconnect _ | .allocateMiningJobTokenSuccess _
  | .declareMiningJobSuccess _ _ | .declareMiningJobError _ | .openStandardMiningChannelSuccess
  | .openMiningChannelError | .closeUpstreamChannel | .setExtranoncePrefix _ _
  | .openMiningChannel _ _ | .closeChannel _ _ | .submitSharesStandard _ _
  | .submitSharesExtended _ _ => isTrue trivial

/-- The templates the notes of a handler declare, and those whose data they request. -/
def declares (o : Handled api) : List TemplateId :=
  o.notes.filterMap Note.declares?

def requests (o : Handled api) : List TemplateId :=
  o.notes.filterMap Note.requests?

/-- What one handler keeps. -/
structure Keeps (g : Books) (d : List TemplateId) (o : Handled api) : Prop where
  live : Client.goesOn o = true → Live o.value.core (g.request (requests o)) (d ++ declares o)
  notBefore : ∀ t, o.value.lastFutureTemplate = some t → t.templateId ∉ g.activated →
    t.templateId ∉ d ++ declares o
  notLater : ∀ id ∈ declares o, id ∉ g.earlier

section Keeps

variable {s : ChannelManager api} {c c' : Core} {g : Books} {d ids : List TemplateId}
  {o : Handled api} {R : JDCError → Prop}

/-- A handler keeps the invariant if the core after its change has it, with what it requests and
declares. -/
theorem Keeps.of_effect (h : Effect c' ids o)
    (hlive : Client.goesOn o = true → Live c' (g.request (requests o)) (d ++ ids))
    (hbefore : ∀ t, c'.lastFutureTemplate = some t → t.templateId ∉ g.activated →
      t.templateId ∉ d ++ ids)
    (hlater : ∀ id ∈ ids, id ∉ g.earlier) : Keeps g d o where
  live hgo := by
    rw [declares, h.declared]
    exact (hlive hgo).kept (h.core hgo)
  notBefore t ht := by
    rw [declares, h.declared]
    exact hbefore t (h.lastFutureTemplate ▸ ht)
  notLater := by
    rw [declares, h.declared]
    exact hlater

theorem Keeps.of_live (h : Effect c' ids o) (hlive : Live c' g (d ++ ids))
    (hlater : ∀ id ∈ ids, id ∉ g.earlier) : Keeps g d o :=
  .of_effect h (fun _ => hlive.request _) (fun _ ht hact => hlive.notBefore ht hact) hlater

theorem Keeps.of_silent (h : Silent c' R o) (hlive : Live c' g d) : Keeps g d o :=
  .of_live h.effect (by rwa [List.append_nil]) nofun

/-- A handler that ends the loop, and leaves the last future template alone. -/
theorem Keeps.of_stopped {g₀ : Books} (h : Effect c [] o) (hgo : Client.goesOn o = false)
    (hlive : Live c g₀ d) (hact : ∀ id ∈ g₀.activated, id ∈ g.activated) : Keeps g d o := by
  refine .of_effect h (fun hgo' => ?_) (fun t ht hnot => ?_) nofun
  · rw [hgo] at hgo'
    cases hgo'
  · rw [List.append_nil]
    exact hlive.notBefore ht fun hmem => hnot (hact _ hmem)

theorem mem_requests {id : TemplateId} (h : .requestTransactionData id ∈ o.notes) :
    id ∈ requests o :=
  List.mem_filterMap.mpr ⟨_, h, rfl⟩

/-- A future template becomes the one to be declared. -/
theorem handleNewTemplate_keeps {t : NewTemplate} (h : Live s.core g d)
    (hturn : s.InTurn g (.newTemplate t)) :
    Keeps (g.enter (.newTemplate t)) d (s.handleNewTemplate t) := by
  have hsilent := handleNewTemplate_silent t s h.mode
  refine .of_effect hsilent.effect (fun hgo => ?_) (fun t' ht' hact => ?_) nofun
  · rw [List.append_nil]
    exact h.takeTemplate hturn.1 hturn.2 (mem_requests (handleNewTemplate_requests h.mode hgo))
  · rw [List.append_nil]
    exact (h.takeTemplate hturn.1 hturn.2 (List.mem_singleton_self _)).notBefore ht' hact

/-- What is sent under the previous hash is what was built. -/
theorem declareFuture_declares (h : Live s.core g d) :
    s.declareFuture.filterMap Note.declares? = s.core.futureDeclaration := by
  have hmode : s.mode = .fullTemplate := h.mode
  unfold declareFuture
  rw [if_pos hmode]
  cases ht : s.lastFutureTemplate with
  | none =>
      have hnone : s.futureDeclaredJob = none := futureDeclaredJob_eq_none.mpr (by simp [ht])
      rw [hnone]
      simp [Core.futureDeclaration, core, ht]
  | some t =>
      have ht' : s.core.lastFutureTemplate = some t := ht
      cases hjob : s.futureDeclaredJob with
      | none =>
          rw [(Core.futureDeclaration_eq_nil ht').mpr fun e he heq =>
            futureDeclaredJob_eq_none.mp hjob e he (by rw [heq, ht]; rfl)]
          rfl
      | some job =>
          obtain ⟨r, hmem, hid⟩ := mem_futureDeclaredJob hjob
          have hid' : job.template.templateId = t.templateId := by simpa [ht] using hid
          obtain ⟨message, hmessage⟩ := Option.isSome_iff_exists.mp (h.jobs _ hmem).2.2
          obtain ⟨decl, template, prevHash, custom, output, txs⟩ := job
          obtain rfl : decl = some message := hmessage
          rw [Core.futureDeclaration_eq ht' fun hnil =>
            (Core.futureDeclaration_eq_nil ht').mp hnil _ hmem hid']
          simpa [Note.declares?] using hid'

/-- The last future template is declared, if its declaration is built. -/
theorem handleSetNewPrevHash_keeps {m : SetNewPrevHash} (h : Live s.core g d)
    (hturn : s.InTurn g (.setNewPrevHash m)) :
    Keeps (g.enter (.setNewPrevHash m)) d (s.handleSetNewPrevHash m) := by
  rcases handleSetNewPrevHash_effect m s h.mode with heff | ⟨heff, hgo⟩
  · rw [declareFuture_declares h] at heff
    have hturn' : ∀ t, s.core.lastFutureTemplate = some t →
        m.templateId = t.templateId ∧ t.templateId ∉ g.activated ∨
          s.core.futureDeclaration = [] ∧ (m.templateId = t.templateId ∨
            t.templateId ∉ g.activated ∨ s.core.templateStore t.templateId = none) := by
      intro t (ht : s.lastFutureTemplate = some t)
      refine (hturn t ht).imp_right fun ⟨hnone, hrest⟩ => ⟨?_, hrest⟩
      refine (Core.futureDeclaration_eq_nil ht).mpr fun e he heq => ?_
      exact futureDeclaredJob_eq_none.mp hnone e he (by rw [heq, ht]; rfl)
    refine .of_live heff (h.setPrevHash hturn') fun id hid => ?_
    -- what is declared is the template of this previous hash
    cases ht : s.core.lastFutureTemplate with
    | none => simp [Core.futureDeclaration, ht] at hid
    | some t =>
        have hne := List.ne_nil_of_mem hid
        rw [Core.futureDeclaration_eq ht hne] at hid
        obtain rfl := List.mem_singleton.mp hid
        rcases hturn' t ht with ⟨hm, -⟩ | ⟨hnil, -⟩
        · simp [Books.enter, hm]
        · exact absurd hnil hne
  · exact .of_stopped heff hgo h fun id hid => List.mem_cons_of_mem _ hid

/-- The data comes before the previous hash, or after it. -/
theorem handleRequestTxDataSuccess_keeps {id : TemplateId} {txs : List Bytes} {excess : Bytes}
    (h : Live s.core g d) (hturn : s.InTurn g (.requestTxDataSuccess id txs excess)) :
    Keeps (g.enter (.requestTxDataSuccess id txs excess)) d
      (s.handleRequestTxDataSuccess id txs excess) := by
  rcases handleRequestTxDataSuccess_cases id txs excess s with
    ⟨heff, hgo⟩ | ⟨heff, hwhy⟩ | ⟨t, job, ht, hjob, hsome, hu, heff⟩
  · exact .of_stopped heff hgo h fun _ hid => hid
  · refine .of_effect heff (fun hgo => ?_) (fun t ht hact => ?_) nofun
    · rw [List.append_nil]
      refine (h.dropTemplate fun t hlast hid ht => ?_).request _
      -- with a channel the last future template would have been declared
      by_contra hu
      obtain ⟨-, hbuilds, -⟩ := hturn ((Bool.not_eq_false _).mp hu) t ht
      obtain ⟨htokens, hbuilds⟩ := hbuilds hlast
      rw [hwhy hgo t ht htokens] at hbuilds
      cases hbuilds
    · rw [List.append_nil]
      exact h.notBefore ht hact
  · obtain ⟨hfresh, -, hearlier⟩ := hturn hu t ht
    obtain ⟨hid, hrec⟩ := h.stored id t ht
    have hnow : s.declaredNow t = true ↔ (t.futureTemplate = true →
        s.core.lastNewPrevHash.map (·.templateId) = some id) := by
      rw [declaredNow, hid]
      cases t.futureTemplate <;> simp [core]
    rw [hid] at heff
    refine .of_live heff (h.storeJob ht hu hfresh hjob hsome hnow) fun id' hmem => ?_
    split at hmem
    · rename_i hdecl
      obtain rfl := List.mem_singleton.mp hmem
      cases hf : t.futureTemplate with
      | false => exact hearlier hf
      | true =>
          obtain ⟨m, hm, hmid⟩ := Option.map_eq_some_iff.mp (hnow.mp hdecl hf)
          exact hmid ▸ (h.tip m hm).2
    · cases hmem

theorem handleOpenExtendedMiningChannelSuccess_keeps {m : OpenExtendedMiningChannelSuccess}
    {slots : Nat → Nat} (h : Live s.core g d)
    (hturn : s.InTurn g (.openExtendedMiningChannelSuccess m slots)) :
    Keeps g d (s.handleOpenExtendedMiningChannelSuccess m slots) := by
  rcases handleOpenExtendedMiningChannelSuccess_silent m slots s h.mode with hs | ⟨hs, hreq⟩
  · exact .of_silent hs h
  · have hlive : Live s.core.openUpstream
        (g.request (requests (s.handleOpenExtendedMiningChannelSuccess m slots))) d :=
      h.openUpstream (fun t ht => mem_requests (hreq t ht)) hturn
    refine .of_effect hs.effect (fun _ => ?_) (fun t ht hact => ?_) nofun
    · rwa [List.append_nil]
    · rw [List.append_nil]
      exact hlive.notBefore ht hact

/-- The other handlers keep the core, or change one entry of the job store. -/
theorem handler_keeps {e : Event} (h : Live s.core g d) (hturn : s.InTurn g e) :
    Keeps (g.enter e) d (handler e s) := by
  have hb := @blind_kept api s.core
  have hk : s.core.Kept s.core := .rfl
  cases e with
  | activate mode =>
      obtain rfl : mode = .fullTemplate := hturn
      have hmode : JDMode.fullTemplate = s.core.mode := h.mode.symm
      exact .of_silent (R := fun _ => True) (.keep { hk with mode := hmode }) h
  | requestInitialTokens =>
      exact .of_silent (R := fun _ => True) (requestInitialTokens_silent s) h
  | connect r => exact .of_silent (hb.connect hk) h
  | disconnect d => exact .of_silent (R := fun _ => True) (.keep hk) h
  | newTemplate t => exact handleNewTemplate_keeps h hturn
  | requestTxDataSuccess id txs excess => exact handleRequestTxDataSuccess_keeps h hturn
  | setNewPrevHash m => exact handleSetNewPrevHash_keeps h hturn
  | allocateMiningJobTokenSuccess m =>
      exact .of_silent (handleAllocateMiningJobTokenSuccess_silent m s) h
  | declareMiningJobSuccess r token =>
      rcases handleDeclareMiningJobSuccess_silent r token s with hs | ⟨job, message, hjob, hs⟩
      · exact .of_silent hs h
      · exact .of_silent hs (h.replaceJob hjob)
  | declareMiningJobError code => exact .of_silent (handleDeclareMiningJobError_silent code s) h
  | openExtendedMiningChannelSuccess m slots =>
      exact handleOpenExtendedMiningChannelSuccess_keeps h hturn
  | openStandardMiningChannelSuccess =>
      exact .of_silent (R := fun _ => True) (.fail hk trivial) h
  | openMiningChannelError => exact .of_silent (R := fun _ => True) (.fail hk trivial) h
  | closeUpstreamChannel => exact .of_stopped (.fatal rfl (.inl rfl)) rfl h fun _ hid => hid
  | setExtranoncePrefix p slots => exact .of_silent (hb.handleSetExtranoncePrefix hk) h
  | setCustomMiningJobSuccess r j =>
      rcases handleSetCustomMiningJobSuccess_silent r j s with hs | ⟨-, hs⟩
      · exact .of_silent hs h
      · exact .of_silent hs (h.removeJob fun t job ht hjob hid => hturn t ht job hjob hid)
  | setCustomMiningJobError r code =>
      rcases handleSetCustomMiningJobError_silent r code s with hs | ⟨-, hs⟩
      · exact .of_silent hs h
      · exact .of_silent hs (h.removeJob fun t job ht hjob hid => hturn t ht job hjob hid)
  | openMiningChannel r slot => exact .of_silent (hb.handleDownstreamOpen hk) h
  | closeChannel d c => exact .of_silent (hb.handleCloseChannel hk) h
  | submitSharesStandard d m => exact .of_silent (hb.submitShares hk) h
  | submitSharesExtended d m => exact .of_silent (hb.submitShares hk) h

theorem handle_keeps {e : Event} (h : Live s.core g d) (hturn : s.InTurn g e) :
    Keeps (g.enter e) d (handle e s) := by
  have hmode : s.mode = .fullTemplate := h.mode
  have hread : (s.mode = .soloMining && e.fromUpstream : Bool) = false := by simp [hmode]
  rw [handle, hread]
  exact handler_keeps h hturn

end Keeps

end ChannelManager

/-! ### Runs -/

/-- The client and its books. -/
structure Tracked (api : ChannelsSv2) where
  client : Client api
  books : Books

namespace Tracked

variable {api : ChannelsSv2}

/-- A client whose mode is activated. -/
def start (coinbaseOutputs : Bytes) (reserved : Nat) : Tracked api :=
  ⟨(Client.start coinbaseOutputs reserved).step (.activate .fullTemplate), .empty⟩

def step (x : Tracked api) (e : Event) : Tracked api :=
  if x.client.running then
    let client := x.client.step e
    let sent := client.history.drop x.client.history.length
    ⟨client, (x.books.enter e).request (sent.filterMap Note.requests?)⟩
  else x

/-- The templates that were declared. -/
def declared (x : Tracked api) : List TemplateId :=
  x.client.history.filterMap Note.declares?

/-- Those of them that were not declared in an earlier state. -/
def declaredSince (x' x : Tracked api) : List TemplateId :=
  (x'.client.history.drop x.client.history.length).filterMap Note.declares?

/-- What is expected of a step from `x` to `x'`. -/
structure Declares (x x' : Tracked api) : Prop where
  once : ∀ t, x'.client.running = true → x'.client.manager.lastFutureTemplate = some t →
    x'.client.manager.upstreamChannel.isSome = true → t.templateId ∈ x'.books.activated →
    x'.books.requested = [] → x'.declared.count t.templateId = 1
  notBefore : ∀ t, x'.client.manager.lastFutureTemplate = some t →
    t.templateId ∉ x'.books.activated → t.templateId ∉ x'.declared
  notLater : ∀ id ∈ x'.declaredSince x, id ∉ x'.books.earlier

def InTurn (x : Tracked api) (e : Event) : Prop :=
  x.client.manager.InTurn x.books e

instance (x : Tracked api) (e : Event) : Decidable (x.InTurn e) :=
  inferInstanceAs (Decidable (ChannelManager.InTurn _ _ _))

/-- The last future template is not declared early, and while the loop goes on, its stage is
known. -/
structure Inv (x : Tracked api) : Prop where
  live : x.client.running = true → Live x.client.manager.core x.books x.declared
  notBefore : ∀ t, x.client.manager.lastFutureTemplate = some t →
    t.templateId ∉ x.books.activated → t.templateId ∉ x.declared

theorem inv_start (outputs : Bytes) (reserved : Nat) :
    (start outputs reserved : Tracked api).Inv where
  live _ :=
    { mode := rfl
      declared := nofun
      stored := nofun
      jobs := nofun
      tip := nofun
      future := nofun }
  notBefore := nofun

/-- What a step does, in terms of the handler. -/
theorem step_eq {x : Tracked api} (hrun : x.client.running = true) (e : Event) :
    let o := ChannelManager.handle e x.client.manager
    (x.step e).client.running = Client.goesOn o ∧
      (x.step e).client.manager.core = o.value.core ∧
      (x.step e).books = (x.books.enter e).request (ChannelManager.requests o) ∧
      (x.step e).declared = x.declared ++ ChannelManager.declares o ∧
      (x.step e).declaredSince x = ChannelManager.declares o := by
  intro o
  have hsent : (x.client.step e).history.drop x.client.history.length = o.notes := by
    simp [Client.step, hrun, o]
  have hstep : x.step e = ⟨x.client.step e, (x.books.enter e).request (o.notes.filterMap
      Note.requests?)⟩ := by
    rw [step, if_pos hrun, ← hsent]
  rw [declaredSince, declared, hstep]
  dsimp only
  rw [hsent]
  refine ⟨?_, ?_, rfl, ?_, rfl⟩
  · simp [Client.step, hrun, o]
  · simp [Client.step, hrun, o, Client.managerAfter_core]
  · simp [Client.step, hrun, o, declared, ChannelManager.declares]

/-- One event in its turn. -/
theorem inv_step {x : Tracked api} {e : Event} (h : x.Inv) (hturn : x.InTurn e) :
    (x.step e).Inv ∧ x.Declares (x.step e) := by
  cases hrun : x.client.running with
  | false =>
      have hsame : x.step e = x := by simp [step, hrun]
      rw [hsame]
      refine ⟨h, fun t hgo => ?_, h.notBefore, by simp [declaredSince]⟩
      rw [hrun] at hgo
      cases hgo
  | true =>
      obtain ⟨hgo, hcore, hbooks, hdeclared, hsince⟩ := step_eq hrun e
      have hkeeps := ChannelManager.handle_keeps (h.live hrun) hturn
      have hlast : (x.step e).client.manager.lastFutureTemplate =
          (ChannelManager.handle e x.client.manager).value.lastFutureTemplate :=
        congrArg Core.lastFutureTemplate hcore
      have hinv : (x.step e).Inv := by
        refine ⟨fun hrun' => ?_, fun t ht hact => ?_⟩
        · rw [hcore, hbooks, hdeclared]
          exact hkeeps.live (hgo ▸ hrun')
        · rw [hdeclared]
          rw [hbooks] at hact
          exact hkeeps.notBefore t (hlast ▸ ht) hact
      refine ⟨hinv, fun t hrun' ht hup hact hreq => ?_, hinv.notBefore, ?_⟩
      · exact ((hinv.live hrun').future t ht).2.2.once hup hact hreq
      · rw [hsince, hbooks]
        exact hkeeps.notLater

/-- **Every future template is declared once, and with its previous hash.** In a run of messages in
turn, every step declares what is expected: an activated future template exactly once when its data
was answered, none before its previous hash, and none of an earlier tip. -/
theorem declares_along (outputs : Bytes) (reserved : Nat) (es : List Event)
    (hes : Runs.Along step (fun x e => x.InTurn e) (start outputs reserved : Tracked api) es) :
    Runs.Along step (fun x e => x.Declares (x.step e)) (start outputs reserved : Tracked api) es :=
  Runs.Along.of_invariant (fun _ _ h hturn => inv_step h hturn) (inv_start _ _) hes

open Client (sampleOutputs sampleToken sampleTemplate samplePrevHash sampleOpen)

/-- Two blocks. The data of the first template is answered once the upstream channel is open, the
data of the second one before its previous hash. -/
def twoBlocksRun : List Event :=
  [.requestInitialTokens, .newTemplate (sampleTemplate 1 true), .setNewPrevHash (samplePrevHash 1),
    .allocateMiningJobTokenSuccess (sampleToken 0), .allocateMiningJobTokenSuccess (sampleToken 1),
    .connect false, .openMiningChannel (sampleOpen .extended) 0,
    .openExtendedMiningChannelSuccess ⟨5, [], [1, 2], 8⟩ fun _ => 0,
    .requestTxDataSuccess 1 [] [], .requestTxDataSuccess 1 [] [],
    .allocateMiningJobTokenSuccess (sampleToken 3), .newTemplate (sampleTemplate 2 true),
    .requestTxDataSuccess 2 [] [], .setNewPrevHash (samplePrevHash 2)]

theorem twoBlocksRun_declares :
    (Runs.exec step (start sampleOutputs 4 : Tracked reference) twoBlocksRun).declared = [1, 2] ∧
      Runs.Along step (fun x e => x.Declares (x.step e))
        (start sampleOutputs 4 : Tracked reference) twoBlocksRun :=
  ⟨by decide +kernel, declares_along _ _ _ (by decide +kernel)⟩

/-- A start whose template data is answered before the first miner opens a channel. -/
def promptDataRun : List Event :=
  [.requestInitialTokens, .newTemplate (sampleTemplate 1 true), .setNewPrevHash (samplePrevHash 1),
    .allocateMiningJobTokenSuccess (sampleToken 0), .allocateMiningJobTokenSuccess (sampleToken 1),
    .requestTxDataSuccess 1 [] [], .connect false, .openMiningChannel (sampleOpen .extended) 0,
    .openExtendedMiningChannelSuccess ⟨5, [], [1, 2], 8⟩ fun _ => 0]

/-- The upstream channel asks for the data again, but the template is not in the store any more. -/
theorem promptDataRun_never_declares :
    ¬ Runs.Along step (fun x e => x.Declares (x.step e)) (start sampleOutputs 4 : Tracked reference)
      (promptDataRun ++ [.requestTxDataSuccess 1 [] []]) := by
  intro h
  have hlast := (Runs.along_append.mp h).2.1
  have hrun : (step (Runs.exec step (start sampleOutputs 4 : Tracked reference) promptDataRun)
      (.requestTxDataSuccess 1 [] [])).client.running = true := by decide +kernel
  have honce := hlast.once (sampleTemplate 1 true) hrun (by decide +kernel) (by decide +kernel)
    (by decide +kernel) (by decide +kernel)
  revert honce
  decide +kernel

end Tracked

end GridPoolSv2.JobDeclaratorClient
