import GridPoolSv2.BitcoinCoreSv2.TemplateDistribution
import GridPoolSv2.Lib.Retention
import GridPoolSv2.Lib.Runs

/-!
# BitcoinCoreSv2.StaleTemplates: templates of earlier tips

A tip change that the monitor sees starts a task that sleeps, and then removes the templates that
were stored before the tip change. A template that moves the tip after a constraints update starts
no such task, and each task replaces the set of stale ids by its own.

* `step_cases` is the step lemma: a step stores a template, removes one scheduled set, or does
  neither.
* `Sound` is the invariant: what is scheduled or marked is behind a tip change, and what is not is
  still stored.
* `Kept` is what is expected of a step, `Accounts` when a step does it, and
  `kept_along_iff` says so of runs.

The ghost list `publications` has every template ever stored, with whether it changed the tip,
so that "behind a tip change" is a property of a template that is already gone. The equivalence
for one step, `kept_iff`, needs the invariant `Sound` and the account of the steps before,
`Accounted`; both are carried along the run.
-/

namespace GridPoolSv2.BitcoinCoreSv2.BitcoinCoreSv2TDP

open Consensus (Bytes Transaction)
open Runs

variable {s s' : BitcoinCoreSv2TDP}

/-- A template with this id was stored, and sent if anybody receives. -/
def Published (s : BitcoinCoreSv2TDP) (id : TemplateId) : Prop :=
  ∃ p ∈ s.publications, p.templateId = id

/-- A tip change was published after the template. -/
def Superseded (s : BitcoinCoreSv2TDP) (id : TemplateId) : Prop :=
  ∃ pre p post, s.publications = pre ++ p :: post ∧ p.tipChange = true ∧
    ∃ q ∈ pre, q.templateId = id

/-- Transaction data can be requested for the template, and solutions are handed to Bitcoin Core. -/
def Resolved (s : BitcoinCoreSv2TDP) (id : TemplateId) : Prop :=
  (∀ transactionList,
    s.answer id (some transactionList) =
      .ok (.requestTransactionDataSuccess id transactionList [])) ∧
  ∃ d : TemplateData, d.templateId = id ∧ ∀ (m : SubmitSolution) (accepted : Bool),
    m.templateId = id → (Transaction.deserialize m.coinbaseTx).isSome →
      (s.handleSubmitSolution m true accepted).1.solutions = s.solutions ++ [(d, m)]

/-- A task that sleeps will remove the template. -/
def Scheduled (s : BitcoinCoreSv2TDP) (id : TemplateId) : Prop :=
  ∃ ids ∈ s.removals, id ∈ ids

/-- Every stored template is one of the current previous hash, or will be removed. -/
def Accounted (s : BitcoinCoreSv2TDP) : Prop :=
  ∀ id d, s.templateData.lookup id = some d →
    s.currentPrevHash = some d.prevHash ∨ s.Scheduled id

/-! ### What a step can do

Three kinds of steps, and `step_cases` says that there is no fourth. `Moves` picks out the steps
that store a template with another previous hash. -/

/-- The cells about templates are the same. -/
structure SameTemplates (s s' : BitcoinCoreSv2TDP) : Prop where
  currentPrevHash : s'.currentPrevHash = s.currentPrevHash
  templateData : s'.templateData = s.templateData
  staleTemplateIds : s'.staleTemplateIds = s.staleTemplateIds
  removals : s'.removals = s.removals
  publications : s'.publications = s.publications
  marked : s'.marked = s.marked

/-- The template was stored. If a removal is scheduled, this was a tip change, and the removal is of
all templates before it. -/
structure Stores (s s' : BitcoinCoreSv2TDP) (d : TemplateData) : Prop where
  currentPrevHash : s'.currentPrevHash = some d.prevHash
  templateData : s'.templateData = s.templateData.insert d.templateId d
  staleTemplateIds : s'.staleTemplateIds = s.staleTemplateIds
  marked : s'.marked = s.marked
  removals : (s'.removals = s.removals ∧
      ∃ tipChange, s'.publications = s.publications ++ [⟨d.templateId, d.prevHash, tipChange⟩]) ∨
    s'.removals = s.removals ++ [s.currentTemplateIds] ∧
      s'.publications = s.publications ++ [⟨d.templateId, d.prevHash, true⟩]

/-- A scheduled set of templates was removed. -/
structure Removes (s s' : BitcoinCoreSv2TDP) (ids : List TemplateId) : Prop where
  scheduled : ids ∈ s.removals
  currentPrevHash : s'.currentPrevHash = s.currentPrevHash
  templateData : s'.templateData = ids.foldl (fun m id => m.erase id) s.templateData
  staleTemplateIds : s'.staleTemplateIds = ids
  removals : ∀ ids', ids' ∈ s.removals → ids' = ids ∨ ids' ∈ s'.removals
  removals_subset : ∀ ids', ids' ∈ s'.removals → ids' ∈ s.removals
  publications : s'.publications = s.publications
  marked : s'.marked = s.marked ++ ids

theorem SameTemplates.refl (s : BitcoinCoreSv2TDP) : SameTemplates s s :=
  ⟨rfl, rfl, rfl, rfl, rfl, rfl⟩

/-- A template that cannot be sent changes nothing. Any other is stored, and there is an error
exactly when nobody receives it. -/
theorem publishTemplate_cases (d : TemplateData) (f b : Bool) (s : BitcoinCoreSv2TDP) :
    ((d.getNewTemplateMessage true).isOk = false ∧
        s.publishTemplate d f b = (s, .error .failedToSendNewTemplateMessage)) ∨
      (d.getNewTemplateMessage true).isOk = true ∧
        ∃ outgoing r, s.publishTemplate d f b =
          ({ s.storeTemplateData d with
            currentPrevHash := if b then some d.prevHash else s.currentPrevHash
            publications := s.publications ++ [⟨d.templateId, d.prevHash, s.changesTip d b⟩]
            outgoing := outgoing }, r) ∧ r.isOk = s.outgoingOpen := by
  rw [d.getNewTemplateMessage_isOk true f]
  unfold publishTemplate
  cases hm : d.getNewTemplateMessage f with
  | error e => exact .inl ⟨rfl, rfl⟩
  | ok m =>
      refine .inr ⟨rfl, ?_⟩
      dsimp only
      cases hopen : s.outgoingOpen with
      | false =>
          refine ⟨s.outgoing, .error .failedToSendNewTemplateMessage, ?_, rfl⟩
          simp [send, storeTemplateData, hopen]
      | true =>
          cases b with
          | false =>
              refine ⟨s.outgoing ++ [.newTemplate m], .ok (), ?_, rfl⟩
              simp [send, storeTemplateData, hopen]
          | true =>
              refine ⟨s.outgoing ++ [.newTemplate m, .setNewPrevHash d.getSetNewPrevHashMessage],
                .ok (), ?_, rfl⟩
              simp [send, storeTemplateData, hopen]

/-- The event stores the template and schedules no removal, although the template may be of another
previous hash: the monitor only does so when nobody receives it. -/
def Moves (s : BitcoinCoreSv2TDP) (d : TemplateData) : Event → Prop
  | .bootstrapFetched (some b) =>
      ∃ id, s.incoming = .fetching id ∧ d = { b with templateId := id } ∧
        (d.getNewTemplateMessage true).isOk = true
  | .monitorFetched (some b) =>
      ∃ id, s.monitor = .fetching id ∧ d = { b with templateId := id } ∧
        (d.getNewTemplateMessage true).isOk = true ∧ s.outgoingOpen = false ∧
        ∃ old, s.currentPrevHash = some old ∧ old ≠ d.prevHash
  | _ => False

/-- The bootstrap stores a template without scheduling a removal. -/
theorem bootstrapTemplate_cases (id : TemplateId) (b : BlockTemplate) (s : BitcoinCoreSv2TDP) :
    let d : TemplateData := { b with templateId := id }
    ((d.getNewTemplateMessage true).isOk = false ∧
        SameTemplates s (s.bootstrapTemplate id (some b))) ∨
      (d.getNewTemplateMessage true).isOk = true ∧ Stores s (s.bootstrapTemplate id (some b)) d ∧
        (s.bootstrapTemplate id (some b)).removals = s.removals := by
  dsimp only [bootstrapTemplate]
  rcases publishTemplate_cases { b with templateId := id } true true s with
    ⟨hbad, heq⟩ | ⟨hok, outgoing, r, heq, -⟩
  · rw [heq]
    exact .inl ⟨hbad, rfl, rfl, rfl, rfl, rfl, rfl⟩
  · rw [heq]
    refine .inr ⟨hok, ?_⟩
    cases r <;> exact ⟨⟨rfl, rfl, rfl, rfl, .inl ⟨rfl, _, rfl⟩⟩, rfl⟩

/-- The monitor stores a template and, if the tip changed, schedules what was stored before. -/
theorem monitorTemplate_cases (id : TemplateId) (fetched : Option BlockTemplate)
    (s : BitcoinCoreSv2TDP) :
    (SameTemplates s (s.monitorTemplate id fetched) ∧
        ∀ b, fetched = some b → s.currentPrevHash ≠ none →
          (TemplateData.getNewTemplateMessage { b with templateId := id } true).isOk = false) ∨
      ∃ b old, fetched = some b ∧ s.currentPrevHash = some old ∧
        let d : TemplateData := { b with templateId := id }
        (d.getNewTemplateMessage true).isOk = true ∧
        Stores s (s.monitorTemplate id fetched) d ∧
        (old = d.prevHash ∧ (s.monitorTemplate id fetched).removals = s.removals ∨
          old ≠ d.prevHash ∧ s.outgoingOpen = true ∧
            (s.monitorTemplate id fetched).removals = s.removals ++ [s.currentTemplateIds] ∨
          old ≠ d.prevHash ∧ s.outgoingOpen = false ∧
            (s.monitorTemplate id fetched).removals = s.removals) := by
  cases fetched with
  | none => exact .inl ⟨⟨rfl, rfl, rfl, rfl, rfl, rfl⟩, nofun⟩
  | some b =>
      cases hold : s.currentPrevHash with
      | none =>
          simp only [monitorTemplate, hold]
          exact .inl ⟨⟨rfl, rfl, rfl, rfl, rfl, rfl⟩, fun _ _ h => absurd rfl h⟩
      | some old =>
          simp only [monitorTemplate, hold]
          split
          · rename_i hne
            rcases publishTemplate_cases { b with templateId := id } true true s with
              ⟨hbad, heq⟩ | ⟨hok, outgoing, r, heq, hopen⟩
            · rw [heq]
              refine .inl ⟨⟨rfl, rfl, rfl, rfl, rfl, rfl⟩, ?_⟩
              rintro b' ⟨⟩ -
              exact hbad
            · rw [heq]
              refine .inr ⟨b, old, rfl, rfl, hok, ?_⟩
              cases r with
              | error e =>
                  exact ⟨⟨rfl, rfl, rfl, rfl, .inl ⟨rfl, _, rfl⟩⟩,
                    .inr (.inr ⟨Ne.symm hne, hopen.symm, rfl⟩)⟩
              | ok u =>
                  have htip : s.changesTip { b with templateId := id } true = true := by
                    have hopen : s.outgoingOpen = true := hopen.symm
                    simp [changesTip, hopen, hold, Ne.symm hne]
                  refine ⟨⟨rfl, rfl, rfl, rfl, .inr ⟨rfl, ?_⟩⟩,
                    .inr (.inl ⟨Ne.symm hne, hopen.symm, rfl⟩)⟩
                  rw [htip]
                  rfl
          · rename_i hsame
            have hsame : old = b.prevHash := (not_not.mp hsame).symm
            rcases publishTemplate_cases { b with templateId := id } false false s with
              ⟨hbad, heq⟩ | ⟨hok, outgoing, r, heq, hopen⟩
            · rw [heq]
              refine .inl ⟨⟨rfl, rfl, rfl, rfl, rfl, rfl⟩, ?_⟩
              rintro b' ⟨⟩ -
              exact hbad
            · rw [heq]
              refine .inr ⟨b, old, rfl, rfl, hok, ?_⟩
              have hcurrent : s.currentPrevHash = some b.prevHash :=
                hold.trans (congrArg some hsame)
              cases r <;>
                exact ⟨⟨hcurrent, rfl, rfl, rfl, .inl ⟨rfl, _, rfl⟩⟩, .inl ⟨hsame, rfl⟩⟩

/-- A removal task deletes the set it was given. -/
theorem removeStale_cases (i : Nat) (destroyed : Bool) (s : BitcoinCoreSv2TDP) :
    SameTemplates s (s.removeStale i destroyed) ∨
      ∃ ids, Removes s (s.removeStale i destroyed) ids := by
  unfold removeStale
  cases hids : s.removals[i]? with
  | none => exact .inl (.refl s)
  | some ids =>
      refine .inr ⟨ids, List.mem_of_getElem? hids, rfl, rfl, rfl, fun ids' hmem => ?_,
        fun ids' hmem => List.mem_of_mem_eraseIdx hmem, rfl, rfl⟩
      obtain ⟨j, hj⟩ := List.mem_iff_getElem?.mp hmem
      by_cases hij : j = i
      · rw [hij, hids] at hj
        exact .inl (Option.some.inj hj).symm
      · exact .inr (List.mem_eraseIdx_iff_getElem?.mpr ⟨j, hij, hj⟩)

/-- A request changes no cell about templates. -/
theorem handleRequestTransactionData_same (id : TemplateId) (fetched : Option (List Bytes))
    (s : BitcoinCoreSv2TDP) : SameTemplates s (s.handleRequestTransactionData id fetched).1 := by
  unfold handleRequestTransactionData
  split
  · exact .refl s
  · unfold send
    split
    · exact .refl s
    · rename_i hsend
      split at hsend
      · obtain rfl := Option.some.inj hsend
        exact ⟨rfl, rfl, rfl, rfl, rfl, rfl⟩
      · cases hsend

theorem handleSubmitSolution_same (m : SubmitSolution) (solutionsDir accepted : Bool)
    (s : BitcoinCoreSv2TDP) :
    SameTemplates s (s.handleSubmitSolution m solutionsDir accepted).1 := by
  unfold handleSubmitSolution
  split
  · exact .refl s
  · split
    · split
      · exact .refl s
      · exact ⟨rfl, rfl, rfl, rfl, rfl, rfl⟩
    · exact .refl s

/-- What an event does to the templates: nothing; it stores one, and those before are of the same
previous hash or scheduled; it stores one and schedules nothing; or it removes what is scheduled. -/
theorem step_cases (s : BitcoinCoreSv2TDP) (e : Event) :
    SameTemplates s (s.step e) ∨
      (∃ d, Stores s (s.step e) d ∧
        ((s.step e).removals = s.removals ++ [s.currentTemplateIds] ∨
          s.currentPrevHash = some d.prevHash ∧ (s.step e).removals = s.removals)) ∨
      (∃ d, s.Moves d e) ∨ ∃ ids, Removes s (s.step e) ids := by
  cases e with
  | coinbaseOutputConstraints =>
      refine .inl ?_
      simp only [step]
      split <;> exact ⟨rfl, rfl, rfl, rfl, rfl, rfl⟩
  | createNewBlock created =>
      refine .inl ?_
      simp only [step]
      split
      · split <;> exact ⟨rfl, rfl, rfl, rfl, rfl, rfl⟩
      · exact .refl s
  | bootstrapFetched fetched =>
      simp only [step]
      split
      · rename_i id hid
        cases fetched with
        | none => exact .inl ⟨rfl, rfl, rfl, rfl, rfl, rfl⟩
        | some b =>
            rcases bootstrapTemplate_cases id b s with ⟨-, hsame⟩ | ⟨hok, -, -⟩
            · exact .inl hsame
            · exact .inr (.inr (.inl ⟨_, id, hid, rfl, hok⟩))
      · exact .inl (.refl s)
  | waitNext result =>
      refine .inl ?_
      simp only [step]
      split <;> exact ⟨rfl, rfl, rfl, rfl, rfl, rfl⟩
  | monitorFetched fetched =>
      simp only [step]
      split
      · rename_i id hid
        rcases monitorTemplate_cases id fetched s with
          ⟨hsame, -⟩ | ⟨b, old, rfl, hold, hok, hstores, hrest⟩
        · exact .inl hsame
        · rcases hrest with ⟨hsame, hremovals⟩ | ⟨-, -, hremovals⟩ | ⟨hne, hopen, -⟩
          · exact .inr (.inl ⟨_, hstores, .inr ⟨hold.trans (congrArg some hsame), hremovals⟩⟩)
          · exact .inr (.inl ⟨_, hstores, .inl hremovals⟩)
          · exact .inr (.inr (.inl ⟨_, id, hid, rfl, hok, hopen, old, hold, hne⟩))
      · exact .inl (.refl s)
  | monitorCancelled interrupted =>
      refine .inl ?_
      simp only [step]
      split <;> exact ⟨rfl, rfl, rfl, rfl, rfl, rfl⟩
  | requestTransactionData id fetched =>
      refine .inl ?_
      simp only [step]
      split
      · have hsame := handleRequestTransactionData_same id fetched s
        split <;> rename_i heq <;> rw [heq] at hsame
        · exact hsame
        · exact ⟨hsame.1, hsame.2, hsame.3, hsame.4, hsame.5, hsame.6⟩
      · exact .refl s
  | submitSolution m solutionsDir accepted =>
      refine .inl ?_
      simp only [step]
      split
      · exact handleSubmitSolution_same m solutionsDir accepted s
      · exact .refl s
  | removeStale i destroyed =>
      rcases removeStale_cases i destroyed s with hsame | hremoves
      · exact .inl hsame
      · exact .inr (.inr (.inr hremoves))
  | cancel | receiverDropped => exact .inl ⟨rfl, rfl, rfl, rfl, rfl, rfl⟩

/-- An event that moves the tip like this stores the template. -/
theorem Moves.stores {d : TemplateData} {e : Event} (h : s.Moves d e) :
    Stores s (s.step e) d ∧ (s.step e).removals = s.removals := by
  cases e with
  | bootstrapFetched fetched =>
      cases fetched with
      | none => exact h.elim
      | some b =>
          obtain ⟨id, hid, rfl, hok⟩ := h
          simp only [step, hid]
          rcases bootstrapTemplate_cases id b s with ⟨hbad, -⟩ | ⟨-, hstores⟩
          · rw [hok] at hbad
            cases hbad
          · exact hstores
  | monitorFetched fetched =>
      cases fetched with
      | none => exact h.elim
      | some b =>
          obtain ⟨id, hid, rfl, hok, hopen, old, hold, hne⟩ := h
          simp only [step, hid]
          rcases monitorTemplate_cases id (some b) s with
            ⟨-, hbad⟩ | ⟨b', old', hb, hold', -, hstores, hrest⟩
          · have hbad := hbad b rfl (by simp [hold])
            rw [hok] at hbad
            cases hbad
          · obtain rfl := Option.some.inj hb
            obtain rfl := Option.some.inj (hold.symm.trans hold')
            rcases hrest with ⟨hsame, -⟩ | ⟨-, hopen', -⟩ | ⟨-, -, hremovals⟩
            · exact absurd hsame hne
            · rw [hopen] at hopen'
              cases hopen'
            · exact ⟨hstores, hremovals⟩
  | _ => exact h.elim

/-! ### The invariant -/

/-- What is scheduled, or was ever marked stale, is behind a tip change. What is not is stored. -/
structure Sound (s : BitcoinCoreSv2TDP) : Prop where
  keyed : ∀ id d, s.templateData.lookup id = some d → d.templateId = id
  published : ∀ id, id ∈ s.templateData → s.Published id
  scheduled : ∀ id, s.Scheduled id → s.Superseded id
  stale : ∀ id, id ∈ s.staleTemplateIds → id ∈ s.marked
  marked : ∀ id, id ∈ s.marked → s.Superseded id
  stored : ∀ id, s.Published id → id ∈ s.templateData ∨ s.Superseded id

theorem sound_new : Sound new where
  keyed _ _ h := by cases h
  published _ h := absurd h (AList.notMem_empty _)
  scheduled _ h := by
    obtain ⟨ids, hids, -⟩ := h
    cases hids
  stale _ h := by cases h
  marked _ h := by cases h
  stored _ h := by
    obtain ⟨p, hp, -⟩ := h
    cases hp

theorem Published.congr {id : TemplateId} (h : s'.publications = s.publications) :
    s'.Published id ↔ s.Published id := by
  rw [Published, Published, h]

theorem Superseded.congr {id : TemplateId} (h : s'.publications = s.publications) :
    s'.Superseded id ↔ s.Superseded id := by
  rw [Superseded, Superseded, h]

/-- A tip change stays one when more is published. -/
theorem Superseded.mono {id : TemplateId} {p : Publication}
    (h : s'.publications = s.publications ++ [p]) (hold : s.Superseded id) : s'.Superseded id := by
  obtain ⟨pre, q, post, hsplit, hq⟩ := hold
  exact ⟨pre, q, post ++ [p], by rw [h, hsplit, List.append_assoc, List.cons_append], hq⟩

/-- A tip change supersedes everything that was published before it. -/
theorem superseded_of_tipChange {id : TemplateId} {p : Publication}
    (h : s'.publications = s.publications ++ [p]) (hp : p.tipChange = true) (hid : s.Published id) :
    s'.Superseded id :=
  ⟨s.publications, p, [], h, hp, hid⟩

theorem SameTemplates.sound (h : SameTemplates s s') (hs : Sound s) : Sound s' where
  keyed := by
    rw [h.templateData]
    exact hs.keyed
  published id hid := by
    rw [h.templateData] at hid
    exact (Published.congr h.publications).mpr (hs.published id hid)
  scheduled id hid := by
    rw [Scheduled, h.removals] at hid
    exact (Superseded.congr h.publications).mpr (hs.scheduled id hid)
  stale := by
    rw [h.staleTemplateIds, h.marked]
    exact hs.stale
  marked id hid := by
    rw [h.marked] at hid
    exact (Superseded.congr h.publications).mpr (hs.marked id hid)
  stored id hid := by
    rw [h.templateData, Superseded.congr h.publications]
    exact hs.stored id ((Published.congr h.publications).mp hid)

/-- The publication that a stored template is entered with. -/
theorem Stores.publications {d : TemplateData} (h : Stores s s' d) :
    ∃ p, p.templateId = d.templateId ∧ s'.publications = s.publications ++ [p] := by
  rcases h.removals with ⟨-, tipChange, hp⟩ | ⟨-, hp⟩
  · exact ⟨_, rfl, hp⟩
  · exact ⟨_, rfl, hp⟩

theorem Stores.sound {d : TemplateData} (h : Stores s s' d) (hs : Sound s) : Sound s' := by
  obtain ⟨p, hid, hp⟩ := h.publications
  have hpublished : ∀ id, s.Published id → s'.Published id := by
    rintro id ⟨q, hq, rfl⟩
    exact ⟨q, by rw [hp]; exact List.mem_append_left _ hq, rfl⟩
  constructor
  case keyed =>
    intro id d' hd'
    rw [h.templateData] at hd'
    by_cases hne : id = d.templateId
    · rw [hne, AList.lookup_insert] at hd'
      rw [← Option.some.inj hd', hne]
    · rw [AList.lookup_insert_ne hne] at hd'
      exact hs.keyed id d' hd'
  case published =>
    intro id hmem
    rw [h.templateData, AList.mem_insert] at hmem
    rcases hmem with rfl | hmem
    · exact ⟨p, by rw [hp]; exact List.mem_append_right _ List.mem_cons_self, hid⟩
    · exact hpublished id (hs.published id hmem)
  case scheduled =>
    rintro id ⟨ids, hids, hmem⟩
    rcases h.removals with ⟨hremovals, -⟩ | ⟨hremovals, htip⟩
    · rw [hremovals] at hids
      exact (hs.scheduled id ⟨ids, hids, hmem⟩).mono hp
    · rw [hremovals] at hids
      rcases List.mem_append.mp hids with hids | hids
      · exact (hs.scheduled id ⟨ids, hids, hmem⟩).mono hp
      · -- the templates before the tip change
        obtain rfl := List.mem_singleton.mp hids
        exact superseded_of_tipChange htip rfl (hs.published id (AList.mem_keys.mpr hmem))
  case stale =>
    rw [h.staleTemplateIds, h.marked]
    exact hs.stale
  case marked =>
    intro id hmem
    rw [h.marked] at hmem
    exact (hs.marked id hmem).mono hp
  case stored =>
    rintro id ⟨q, hq, rfl⟩
    rw [hp] at hq
    rw [h.templateData, AList.mem_insert]
    rcases List.mem_append.mp hq with hq | hq
    · rcases hs.stored q.templateId ⟨q, hq, rfl⟩ with hmem | hsup
      · exact .inl (.inr hmem)
      · exact .inr (hsup.mono hp)
    · rw [List.mem_singleton.mp hq]
      exact .inl (.inl hid)

theorem Removes.sound {ids : List TemplateId} (h : Removes s s' ids) (hs : Sound s) : Sound s' where
  keyed id d hd := by
    rw [h.templateData] at hd
    have hmem := AList.lookup_isSome.mp (by rw [hd]; rfl : (AList.lookup id _).isSome)
    rw [Retention.lookup_foldl_erase ids _ ((Retention.mem_foldl_erase ids _).mp hmem).2] at hd
    exact hs.keyed id d hd
  published id hid := by
    rw [h.templateData] at hid
    exact (Published.congr h.publications).mpr
      (hs.published id ((Retention.mem_foldl_erase ids _).mp hid).1)
  scheduled id hid := by
    obtain ⟨ids', hids', hmem⟩ := hid
    exact (Superseded.congr h.publications).mpr
      (hs.scheduled id ⟨ids', h.removals_subset ids' hids', hmem⟩)
  stale id hid := by
    rw [h.staleTemplateIds] at hid
    rw [h.marked]
    exact List.mem_append_right _ hid
  marked id hid := by
    rw [h.marked] at hid
    refine (Superseded.congr h.publications).mpr ?_
    rcases List.mem_append.mp hid with hid | hid
    · exact hs.marked id hid
    · exact hs.scheduled id ⟨ids, h.scheduled, hid⟩
  stored id hid := by
    rw [h.templateData, Retention.mem_foldl_erase, Superseded.congr h.publications]
    rcases hs.stored id ((Published.congr h.publications).mp hid) with hmem | hsup
    · by_cases hin : id ∈ ids
      · exact .inr (hs.scheduled id ⟨ids, h.scheduled, hin⟩)
      · exact .inl ⟨hmem, hin⟩
    · exact .inr hsup

theorem sound_step (hs : Sound s) (e : Event) : Sound (s.step e) := by
  rcases step_cases s e with hsame | ⟨d, hstores, -⟩ | ⟨d, hmoves⟩ | ⟨ids, hremoves⟩
  · exact hsame.sound hs
  · exact hstores.sound hs
  · exact hmoves.stores.1.sound hs
  · exact hremoves.sound hs

/-! ### What is expected of a step

`Kept` is stated with the templates and the answers to requests, `Accounts` with what was scheduled.
`kept_iff` shows that they agree in every state the server can be in. -/

/-- The ids that leave are behind a tip change, the templates since then are resolved, a request for
an id that was marked stale is answered so, and all that is stored is accounted for. -/
structure Kept (s : BitcoinCoreSv2TDP) (e : Event) : Prop where
  leaves : ∀ id, id ∈ s.templateData → id ∉ (s.step e).templateData → s.Superseded id
  resolved : ∀ id, (s.step e).Published id → ¬ (s.step e).Superseded id → (s.step e).Resolved id
  staleAnswer : ∀ id fetched, e = .requestTransactionData id fetched → s.incoming = .listening →
    s.outgoingOpen = true → id ∈ s.marked →
      (s.step e).outgoing = s.outgoing ++ [.requestTransactionDataError id "stale-template-id"]
  accounted : (s.step e).Accounted

/-- When a step does what is expected: a request for an id that was marked names one of the last
set, and a template that moves the tip without a removal leaves no other behind. -/
structure Accounts (s : BitcoinCoreSv2TDP) (e : Event) : Prop where
  request : ∀ id fetched, e = .requestTransactionData id fetched → s.incoming = .listening →
    s.outgoingOpen = true → id ∈ s.marked → id ∈ s.staleTemplateIds
  moves : ∀ d, s.Moves d e → ∀ id old, id ≠ d.templateId → s.templateData.lookup id = some old →
    old.prevHash = d.prevHash ∨ s.Scheduled id

theorem leaves_step (hs : Sound s) {e : Event} {id : TemplateId} (hid : id ∈ s.templateData)
    (hleft : id ∉ (s.step e).templateData) : s.Superseded id := by
  have hstores : ∀ d, ¬ Stores s (s.step e) d := by
    intro d h
    rw [h.templateData, AList.mem_insert] at hleft
    exact hleft (.inr hid)
  rcases step_cases s e with hsame | ⟨d, h, -⟩ | ⟨d, hmoves⟩ | ⟨ids, hremoves⟩
  · rw [hsame.templateData] at hleft
    exact absurd hid hleft
  · exact absurd h (hstores d)
  · exact absurd hmoves.stores.1 (hstores d)
  · rw [hremoves.templateData, Retention.mem_foldl_erase] at hleft
    by_cases hin : id ∈ ids
    · exact hs.scheduled id ⟨ids, hremoves.scheduled, hin⟩
    · exact absurd ⟨hid, hin⟩ hleft

/-- The templates since the last tip change are stored and not stale. -/
theorem resolved_of_sound (hs : Sound s) {id : TemplateId} (hid : s.Published id)
    (hsup : ¬ s.Superseded id) : s.Resolved id := by
  have hstored := (hs.stored id hid).resolve_right hsup
  obtain ⟨d, hd⟩ := Option.isSome_iff_exists.mp (AList.lookup_isSome.mpr hstored)
  have hnot : id ∉ s.staleTemplateIds := fun hstale => hsup (hs.marked id (hs.stale id hstale))
  refine ⟨fun transactionList => ?_, d, hs.keyed id d hd, ?_⟩
  · rw [answer, if_neg hnot, hd]
    dsimp only
    rw [hs.keyed id d hd]
  · rintro m accepted rfl hcoinbase
    obtain ⟨tx, htx⟩ := Option.isSome_iff_exists.mp hcoinbase
    simp [handleSubmitSolution, hd, htx]

/-- A listening instance answers a request for a stale id with that error exactly when the id is in
the last set. -/
theorem step_request_outgoing {id : TemplateId} {fetched : Option (List Bytes)}
    (hlistening : s.incoming = .listening) (hopen : s.outgoingOpen = true) :
    (s.step (.requestTransactionData id fetched)).outgoing =
        s.outgoing ++ [.requestTransactionDataError id "stale-template-id"] ↔
      id ∈ s.staleTemplateIds := by
  simp only [step, hlistening, handleRequestTransactionData, answer]
  by_cases hstale : id ∈ s.staleTemplateIds
  · simp [hstale, send, hopen]
  · rw [if_neg hstale]
    refine iff_of_false ?_ hstale
    cases s.templateData.lookup id with
    | none => simp [send, hopen]
    | some d =>
        cases fetched with
        | none => simp [stopIncoming]
        | some transactionList => simp [send, hopen]

/-- The account goes on exactly if a step that moves the tip leaves no stored template behind
unscheduled. -/
theorem accounted_step (hacc : s.Accounted) (e : Event) :
    (s.step e).Accounted ↔ ∀ d, s.Moves d e → ∀ id old, id ≠ d.templateId →
      s.templateData.lookup id = some old → old.prevHash = d.prevHash ∨ s.Scheduled id := by
  constructor
  · intro h d hmoves id old hne hold
    obtain ⟨hstores, hremovals⟩ := hmoves.stores
    have hlookup : (s.step e).templateData.lookup id = some old := by
      rw [hstores.templateData, AList.lookup_insert_ne hne, hold]
    rcases h id old hlookup with hcurrent | hscheduled
    · exact .inl (Option.some.inj (hstores.currentPrevHash.symm.trans hcurrent)).symm
    · rw [Scheduled, hremovals] at hscheduled
      exact .inr hscheduled
  · intro h
    -- a template is stored: it is one of the new previous hash
    have hinsert : ∀ {d : TemplateData}, Stores s (s.step e) d → (∀ id old, id ≠ d.templateId →
        s.templateData.lookup id = some old → (s.step e).currentPrevHash = some old.prevHash ∨
          (s.step e).Scheduled id) → (s.step e).Accounted := by
      intro d hstores hrest id old hold
      rw [hstores.templateData] at hold
      by_cases hne : id = d.templateId
      · rw [hne, AList.lookup_insert] at hold
        rw [← Option.some.inj hold]
        exact .inl hstores.currentPrevHash
      · rw [AList.lookup_insert_ne hne] at hold
        exact hrest id old hne hold
    rcases step_cases s e with hsame | ⟨d, hstores, hremovals⟩ | ⟨d, hmoves⟩ | ⟨ids, hremoves⟩
    · intro id d hd
      rw [hsame.templateData] at hd
      rw [hsame.currentPrevHash, Scheduled, hsame.removals]
      exact hacc id d hd
    · refine hinsert hstores fun id old _ hold => ?_
      rcases hremovals with hremovals | ⟨hsame, hremovals⟩
      · refine .inr ⟨s.currentTemplateIds, ?_, ?_⟩
        · rw [hremovals]
          exact List.mem_append_right _ List.mem_cons_self
        · exact AList.mem_keys.mp (AList.lookup_isSome.mp (by rw [hold]; rfl))
      · rw [hstores.currentPrevHash, ← hsame, Scheduled, hremovals]
        exact hacc id old hold
    · obtain ⟨hstores, hremovals⟩ := hmoves.stores
      refine hinsert hstores fun id old hne hold => ?_
      rw [hstores.currentPrevHash, Scheduled, hremovals]
      exact (h d hmoves id old hne hold).imp_left fun heq => congrArg some heq.symm
    · intro id d hd
      rw [hremoves.templateData] at hd
      have hmem := AList.lookup_isSome.mp (by rw [hd]; rfl : (AList.lookup id _).isSome)
      have hnot := ((Retention.mem_foldl_erase ids _).mp hmem).2
      rw [Retention.lookup_foldl_erase ids _ hnot] at hd
      rw [hremoves.currentPrevHash]
      refine (hacc id d hd).imp_right ?_
      rintro ⟨ids', hids', hin⟩
      rcases hremoves.removals ids' hids' with rfl | hids'
      · exact absurd hin hnot
      · exact ⟨ids', hids', hin⟩

/-- The step does what is expected exactly if it accounts for what it does. -/
theorem kept_iff (hs : Sound s) (hacc : s.Accounted) (e : Event) : s.Kept e ↔ s.Accounts e := by
  constructor
  · intro h
    refine ⟨?_, (accounted_step hacc e).mp h.accounted⟩
    rintro id fetched rfl hlistening hopen hmarked
    exact (step_request_outgoing hlistening hopen).mp
      (h.staleAnswer id fetched rfl hlistening hopen hmarked)
  · intro h
    refine ⟨fun id => leaves_step hs, fun id => resolved_of_sound (sound_step hs e), ?_,
      (accounted_step hacc e).mpr h.moves⟩
    rintro id fetched rfl hlistening hopen hmarked
    exact (step_request_outgoing hlistening hopen).mpr
      (h.request id fetched rfl hlistening hopen hmarked)

/-- A template on the block numbered `tip`. -/
def sampleTemplate (tip : UInt8) : BlockTemplate where
  header := ⟨0x20000000, List.replicate 32 tip, 1700000000, 0x207fffff⟩
  coinbaseTx := ⟨2, [0x03, 0x40, 0x0d, 0x03], 0xffffffff, [], 0⟩
  blockRewardRemaining := 5000000000
  merklePath := []

/-- The first template after the start. -/
def firstTemplate : List Event :=
  [.coinbaseOutputConstraints, .createNewBlock true, .bootstrapFetched (some (sampleTemplate 1))]

/-- Two tip changes; each removal is over before the next block. -/
def twoTipChanges : List Event :=
  firstTemplate ++
    [.waitNext .template, .monitorFetched (some (sampleTemplate 2)), .removeStale 0 true,
      .waitNext .template, .monitorFetched (some (sampleTemplate 3)), .removeStale 0 true]

/-- A constraints update while Bitcoin Core is at the next block already. -/
def movedByConstraints : List Event :=
  firstTemplate ++
    [.coinbaseOutputConstraints, .monitorCancelled true, .createNewBlock true]

/-- Every step of a run does what is expected exactly when every step meets the condition. -/
theorem kept_along_iff (es : List Event) : Along step Kept new es ↔ Along step Accounts new es := by
  refine along_congr (I := fun s => Sound s ∧ s.Accounted) (fun s e h => kept_iff h.1 h.2 e)
    (fun s e h hkept => ⟨sound_step h.1 e, hkept.accounted⟩) ⟨sound_new, ?_⟩
  intro id d hd
  cases hd

/-- The id of the first template is no longer known as stale after two tip changes, and a
constraints update leaves it behind without a removal. -/
theorem replaced_set_and_moved_tip :
    ¬ Along step Kept new (twoTipChanges ++ [.requestTransactionData 0 none]) ∧
      ¬ Along step Kept new (movedByConstraints ++
        [.bootstrapFetched (some (sampleTemplate 2))]) := by
  constructor
  · intro h
    have hkept := along_iff_splits.mp h twoTipChanges _ [] rfl
    have hmarked : (exec step new twoTipChanges).marked = [0, 1] := by decide +kernel
    have hanswer := hkept.staleAnswer 0 none rfl (by decide +kernel) (by decide +kernel)
      (by rw [hmarked]; exact List.mem_cons_self)
    revert hanswer
    decide +kernel
  · intro h
    have hkept := along_iff_splits.mp h movedByConstraints _ [] rfl
    have hold : ((exec step new movedByConstraints).step
        (.bootstrapFetched (some (sampleTemplate 2)))).templateData.lookup 0 =
          some { sampleTemplate 1 with templateId := 0 } := by decide +kernel
    have hremovals : ((exec step new movedByConstraints).step
        (.bootstrapFetched (some (sampleTemplate 2)))).removals = [] := by decide +kernel
    have hcurrent : ((exec step new movedByConstraints).step
        (.bootstrapFetched (some (sampleTemplate 2)))).currentPrevHash ≠
          some (List.replicate 32 1) := by decide +kernel
    rcases hkept.accounted 0 _ hold with htip | ⟨ids, hids, -⟩
    · exact hcurrent htip
    · rw [hremovals] at hids
      cases hids

end GridPoolSv2.BitcoinCoreSv2.BitcoinCoreSv2TDP
