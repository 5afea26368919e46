import GridPoolSv2.JobDeclaratorClient.OpenWindow

/-!
# JobDeclaratorClient.JobTemplates: the template a downstream job was built from

`downstream_channel_id_and_job_id_to_template_id` says under which upstream job a share is paid. A
channel has ids from two counters: its own one, which gives the job it is opened with, and for the
rest that of its group, unless the downstream requires standard jobs.

* `JobCounters` is what `channels_sv2` is assumed to do about job ids.
* `MapsJobs` is the invariant of one downstream. It names the template of every group job by its id
  (`f`): a group has used the first id before a channel joins it, so the job a channel is opened
  with does not collide with one of the group.
* `Downstream.Awaits` says that the jobs of a template are there for its previous hash. It asks
  nothing of the group of a downstream without channels: one that is accepted between a future
  template and its previous hash has its first job, the one with the id of a channel's own, still to
  be activated, but gets its first channel after that only.
* `Feeding` is the invariant of the channel manager, with the templates its groups and channels
  await. Every handler keeps it or ends with a fatal error.

Proof shape: the loops are followed from the inside out, one channel
(`newTemplateStandard_ends`), one downstream (`newTemplateDownstream_ends`), all downstreams
(`newTemplateLoop_ends`) and the handler. A loop that fails ends with a fatal error, and then
nothing is said of the state, which is why the lemmas are about `Ends` and not about
`Leaves`.
-/

namespace GridPoolSv2.JobDeclaratorClient

open Consensus (Bytes TxOut)
open Function (update)
open Runs Visit Handler

/-! ### Job ids

`JobCounters` reads off a channel or a group the id its next job will get. `CountsJobs` is about one
kind of channel, `Lawful` about both kinds. -/

/-- New jobs are numbered by a counter. A previous hash activates the future job of the template it
names, and adds none. -/
structure JobOps.CountsJobs {C : Type} (ops : JobOps C) (next : C → JobId) : Prop
    extends ops.KeysFutureJobs where
  counted : ∀ {c t o c'}, ops.onNewTemplate c t o = .ok c' →
    next c' = next c + 1 ∧ ∃ j, ops.jobOf c' t = some j ∧ j.jobId = next c
  keepsFuture : ∀ {c t o c' u}, ops.onNewTemplate c t o = .ok c' → t.futureTemplate = false →
    ops.futureJob c' u = ops.futureJob c u
  activates : ∀ {c m c'}, ops.onSetNewPrevHash c m = .ok c' →
    next c' = next c ∧ (∀ u j, ops.futureJob c' u = some j → ops.futureJob c u = some j) ∧
      ∀ j, ops.futureJob c m.templateId = some j → ops.activeJob c' = some j
  template : ∀ {c u j}, ops.futureJob c u = some j → j.template.templateId = u

/-- The counters of channels and of groups. -/
structure ChannelsSv2.JobCounters (api : ChannelsSv2) where
  channel : api.Channel → JobId
  group : api.Group → JobId

namespace ChannelsSv2

variable {api : ChannelsSv2}

/-- A step on a channel that leaves its counter and its future jobs alone. -/
def JobCounters.Same (n : api.JobCounters) (ch ch' : api.Channel) : Prop :=
  n.channel ch' = n.channel ch ∧ ∀ u, api.channel.futureJob ch' u = api.channel.futureJob ch u

/-- A step on a group that leaves its counter and its future jobs alone. -/
def JobCounters.SameGroup (n : api.JobCounters) (g g' : api.Group) : Prop :=
  n.group g' = n.group g ∧ ∀ u, api.group.futureJob g' u = api.group.futureJob g u

structure JobCounters.Lawful (n : api.JobCounters) : Prop where
  channel : api.channel.CountsJobs n.channel
  refuses : api.channel.RefusesUnmatched
  group : api.group.CountsJobs n.group
  newStandard : ∀ {i m p ch}, api.newStandard i m p = .ok ch →
    n.channel ch = 1 ∧ ∀ u, api.channel.futureJob ch u = none
  newExtended : ∀ {i m p k ch}, api.newExtended i m p k = .ok ch →
    n.channel ch = 1 ∧ ∀ u, api.channel.futureJob ch u = none
  newGroup : ∀ {i k g}, api.newGroup i k = .ok g →
    n.group g = 1 ∧ ∀ u, api.group.futureJob g u = none
  onNewTemplate : ∀ {ch t o ch'}, api.channel.onNewTemplate ch t o = .ok ch' →
    ∀ j ∈ api.jobs ch', j ∈ api.jobs ch ∨ j.template = t ∧ j.jobId = n.channel ch
  activeJob : ∀ {ch j}, api.channel.activeJob ch = some j → j ∈ api.jobs ch
  futureJob : ∀ {ch u j}, api.channel.futureJob ch u = some j → j ∈ api.jobs ch
  setExtranoncePrefix : ∀ {ch p ch'}, api.setExtranoncePrefix ch p = .ok ch' → n.Same ch ch'
  validateStandard : ∀ {ch m}, n.Same ch (api.validateStandard ch m).1
  validateExtended : ∀ {ch m}, n.Same ch (api.validateExtended ch m).1
  addChannelId : ∀ {g c k g'}, api.addChannelId g c k = .ok g' → n.SameGroup g g'
  removeChannelId : ∀ {g c}, n.SameGroup g (api.removeChannelId g c)
  setFullExtranonceSize : ∀ {g k}, n.SameGroup g (api.setFullExtranonceSize g k)

end ChannelsSv2

/-! ### One downstream

The map of a downstream goes from a channel and a job id to the template. `mp` is this map and `f`
the template of each id of the group. -/

variable {api : ChannelsSv2} {n : api.JobCounters}

/-- Put a channel back, or in. -/
def Downstream.setChannel (ds : Downstream api) (k : ChannelKind) (c : ChannelId)
    (ch : api.Channel) : Downstream api :=
  { ds with channels := update ds.channels k ((ds.channels k).insert c ch) }

/-- What is found after a channel was set is that channel, or another one as before. -/
theorem Downstream.lookup_setChannel {ds : Downstream api} {k k' : ChannelKind} {c c' : ChannelId}
    {ch ch' : api.Channel} (h : ((ds.setChannel k c ch).channels k').lookup c' = some ch') :
    k' = k ∧ c' = c ∧ ch' = ch ∨ ¬ (k' = k ∧ c' = c) ∧ (ds.channels k').lookup c' = some ch' := by
  simp only [setChannel] at h
  by_cases hk : k' = k
  · subst hk
    rw [Function.update_self] at h
    by_cases hc : c' = c
    · subst hc
      rw [AList.lookup_insert] at h
      exact .inl ⟨rfl, rfl, (Option.some.inj h).symm⟩
    · rw [AList.lookup_insert_ne hc] at h
      exact .inr ⟨fun hboth => hc hboth.2, h⟩
  · rw [Function.update_of_ne hk] at h
    exact .inr ⟨fun hboth => hk hboth.1, h⟩

/-- The jobs of a downstream are mapped by `mp` to their templates, and the ids of the group's jobs
stand for the templates `f` names. -/
structure MapsJobs (n : api.JobCounters) (f : JobId → TemplateId)
    (mp : ChannelId × JobId → Option TemplateId) (ds : Downstream api) : Prop where
  mapped : ∀ {k c ch j}, (ds.channels k).lookup c = some ch → j ∈ api.jobs ch →
    mp (c, j.jobId) = some j.template.templateId
  counted : ∀ {k c ch}, (ds.channels k).lookup c = some ch → c < ds.channelIdFactory
  oneKind : ∀ {k k' c ch ch'}, (ds.channels k).lookup c = some ch →
    (ds.channels k').lookup c = some ch' → k' = k
  standard : ds.requireStdJob = true → ∀ {k c ch}, (ds.channels k).lookup c = some ch →
    k = .standard ∧ ∀ j ∈ api.jobs ch, j.jobId < n.channel ch
  joined : ds.requireStdJob = false → 1 < n.group ds.groupChannel
  grouped : ds.requireStdJob = false → ∀ {k c ch j}, (ds.channels k).lookup c = some ch →
    j ∈ api.jobs ch → j.jobId < n.group ds.groupChannel ∧
      (1 < j.jobId → f j.jobId = j.template.templateId)
  future : ds.requireStdJob = false → ∀ {u j}, api.group.futureJob ds.groupChannel u = some j →
    j.jobId < n.group ds.groupChannel ∧ f j.jobId = u

namespace MapsJobs

variable {f : JobId → TemplateId} {mp : ChannelId × JobId → Option TemplateId} {ds : Downstream api}

/-- Job ids are mapped anew, to the templates their jobs have. -/
theorem remap (h : MapsJobs n f mp ds) {mp' : ChannelId × JobId → Option TemplateId}
    (hmp : ∀ {k c ch j}, (ds.channels k).lookup c = some ch → j ∈ api.jobs ch →
      mp' (c, j.jobId) = mp (c, j.jobId) ∨ mp' (c, j.jobId) = some j.template.templateId) :
    MapsJobs n f mp' ds where
  mapped hch hj := by
    rcases hmp hch hj with hsame | hnew
    · exact hsame.trans (h.mapped hch hj)
    · exact hnew
  counted := h.counted
  oneKind := h.oneKind
  standard := h.standard
  joined := h.joined
  grouped := h.grouped
  future := h.future

/-- A job id is mapped anew, to the template its jobs have. -/
theorem mapJob (h : MapsJobs n f mp ds) {c : ChannelId} {i : JobId} {u : TemplateId}
    (hu : ∀ {k ch j}, (ds.channels k).lookup c = some ch → j ∈ api.jobs ch → j.jobId = i →
      j.template.templateId = u) :
    MapsJobs n f (update mp (c, i) (some u)) ds :=
  h.remap fun {k c' ch j} hch hj => by
    by_cases hkey : (c', j.jobId) = (c, i)
    · obtain ⟨rfl, hi⟩ := Prod.mk.inj hkey
      exact .inr (by rw [hkey, Function.update_self, hu hch hj hi])
    · exact .inl (Function.update_of_ne hkey _ _)

/-- A channel is put back, or in. -/
theorem putChannel (h : MapsJobs n f mp ds) {k : ChannelKind} {c : ChannelId} {ch' : api.Channel}
    (hmapped : ∀ j ∈ api.jobs ch', mp (c, j.jobId) = some j.template.templateId)
    (hcounted : c < ds.channelIdFactory)
    (hkind : ∀ k' ch, (ds.channels k').lookup c = some ch → k' = k)
    (hstandard : ds.requireStdJob = true →
      k = .standard ∧ ∀ j ∈ api.jobs ch', j.jobId < n.channel ch')
    (hgrouped : ds.requireStdJob = false → ∀ j ∈ api.jobs ch',
      j.jobId < n.group ds.groupChannel ∧ (1 < j.jobId → f j.jobId = j.template.templateId)) :
    MapsJobs n f mp (ds.setChannel k c ch') where
  mapped {k' c' ch'' j} hl hj := by
    rcases Downstream.lookup_setChannel hl with ⟨rfl, rfl, rfl⟩ | ⟨-, hl⟩
    · exact hmapped j hj
    · exact h.mapped hl hj
  counted hl := by
    rcases Downstream.lookup_setChannel hl with ⟨rfl, rfl, rfl⟩ | ⟨-, hl⟩
    · exact hcounted
    · exact h.counted hl
  oneKind hl hl' := by
    rcases Downstream.lookup_setChannel hl with ⟨rfl, rfl, rfl⟩ | ⟨-, hold⟩ <;>
      rcases Downstream.lookup_setChannel hl' with ⟨rfl, hc, -⟩ | ⟨-, hold'⟩
    · rfl
    · exact hkind _ _ hold'
    · subst hc
      exact (hkind _ _ hold).symm
    · exact h.oneKind hold hold'
  standard hstd {k' c' ch''} hl := by
    rcases Downstream.lookup_setChannel hl with ⟨rfl, rfl, rfl⟩ | ⟨-, hl⟩
    · exact hstandard hstd
    · exact h.standard hstd hl
  joined := h.joined
  grouped hstd {k' c' ch'' j} hl hj := by
    rcases Downstream.lookup_setChannel hl with ⟨rfl, rfl, rfl⟩ | ⟨-, hl⟩
    · exact hgrouped hstd j hj
    · exact h.grouped hstd hl hj
  future := h.future

/-- A channel is put back with no new jobs. -/
theorem setChannel (h : MapsJobs n f mp ds) {k : ChannelKind} {c : ChannelId} {ch ch' : api.Channel}
    (hch : (ds.channels k).lookup c = some ch) (hjobs : ∀ j ∈ api.jobs ch', j ∈ api.jobs ch)
    (hnext : n.channel ch' = n.channel ch) : MapsJobs n f mp (ds.setChannel k c ch') := by
  refine h.putChannel (fun j hj => h.mapped hch (hjobs j hj)) (h.counted hch)
    (fun k' ch'' hl => h.oneKind hch hl) (fun hstd => ?_)
    fun hstd j hj => h.grouped hstd hch (hjobs j hj)
  obtain ⟨hk, hlt⟩ := h.standard hstd hch
  exact ⟨hk, fun j hj => hnext ▸ hlt j (hjobs j hj)⟩

/-- A channel is put back with one more job, which is mapped. -/
theorem addJob (h : MapsJobs n f mp ds) {k : ChannelKind} {c : ChannelId} {ch ch' : api.Channel}
    {i : JobId} {u : TemplateId} (hch : (ds.channels k).lookup c = some ch)
    (hjobs : ∀ j ∈ api.jobs ch', j ∈ api.jobs ch ∨ j.template.templateId = u ∧ j.jobId = i)
    (hfresh : ∀ j ∈ api.jobs ch, j.jobId = i → j.template.templateId = u)
    (hstandard : ds.requireStdJob = true → n.channel ch ≤ n.channel ch' ∧ i < n.channel ch')
    (hgrouped : ds.requireStdJob = false → i < n.group ds.groupChannel ∧ (1 < i → f i = u)) :
    MapsJobs n f (update mp (c, i) (some u)) (ds.setChannel k c ch') := by
  have hmap : MapsJobs n f (update mp (c, i) (some u)) ds := h.mapJob fun {k' ch'' j} hl hj hi => by
    obtain rfl := h.oneKind hch hl
    obtain rfl := Option.some.inj (hl.symm.trans hch)
    exact hfresh j hj hi
  refine hmap.putChannel (fun j hj => ?_) (h.counted hch) (fun k' ch'' hl => h.oneKind hch hl)
    (fun hstd => ?_) fun hstd j hj => ?_
  · rcases hjobs j hj with hold | ⟨hu, hi⟩
    · exact hmap.mapped hch hold
    · rw [hi, Function.update_self, hu]
  · obtain ⟨hk, hlt⟩ := h.standard hstd hch
    obtain ⟨hle, hi⟩ := hstandard hstd
    refine ⟨hk, fun j hj => ?_⟩
    rcases hjobs j hj with hold | ⟨-, hj⟩
    · exact (hlt j hold).trans_le hle
    · exact hj ▸ hi
  · rcases hjobs j hj with hold | ⟨hu, hi⟩
    · exact h.grouped hstd hch hold
    · rw [hi, hu]
      exact hgrouped hstd

/-- A channel is opened, with a first job. -/
theorem openChannel (h : MapsJobs n f mp ds) {k : ChannelKind} {c : ChannelId} {ch' : api.Channel}
    {u : TemplateId} (hnew : ∀ k', (ds.channels k').lookup c = none)
    (hcounted : c < ds.channelIdFactory) (hkind : ds.requireStdJob = true → k = .standard)
    (hjobs : ∀ j ∈ api.jobs ch', j.template.templateId = u ∧ j.jobId = 1)
    (hnext : 1 < n.channel ch') :
    MapsJobs n f (update mp (c, 1) (some u)) (ds.setChannel k c ch') := by
  have habsent : ∀ {k' ch}, (ds.channels k').lookup c ≠ some ch := fun {k' ch} hl => by
    rw [hnew k'] at hl
    cases hl
  have hmap : MapsJobs n f (update mp (c, 1) (some u)) ds :=
    h.mapJob fun hl => absurd hl habsent
  refine hmap.putChannel (fun j hj => ?_) hcounted (fun k' ch hl => absurd hl habsent)
    (fun hstd => ⟨hkind hstd, fun j hj => ?_⟩) fun hstd j hj => ?_
  · obtain ⟨hu, hi⟩ := hjobs j hj
    rw [hi, Function.update_self, hu]
  · rw [(hjobs j hj).2]
    exact hnext
  · rw [(hjobs j hj).2]
    exact ⟨h.joined hstd, fun hlt => absurd hlt (lt_irrefl 1)⟩

/-- The group is replaced. -/
theorem setGroup (h : MapsJobs n f mp ds) {f' : JobId → TemplateId} {g : api.Group}
    (hle : n.group ds.groupChannel ≤ n.group g)
    (hsame : ∀ i, i < n.group ds.groupChannel → f' i = f i)
    (hfuture : ds.requireStdJob = false → ∀ {u j}, api.group.futureJob g u = some j →
      j.jobId < n.group g ∧ f' j.jobId = u) :
    MapsJobs n f' mp { ds with groupChannel := g } where
  mapped := h.mapped
  counted := h.counted
  oneKind := h.oneKind
  standard := h.standard
  joined hstd := (h.joined hstd).trans_le hle
  grouped hstd {k c ch j} hl hj := by
    obtain ⟨hlt, hf⟩ := h.grouped hstd hl hj
    exact ⟨hlt.trans_le hle, fun hi => (hsame _ hlt).trans (hf hi)⟩
  future := hfuture

/-- Channels may go, and ids may be skipped. -/
theorem of_fewer (h : MapsJobs n f mp ds) {ds' : Downstream api}
    (hchannels : ∀ {k c ch}, (ds'.channels k).lookup c = some ch →
    (ds.channels k).lookup c = some ch)
    (hflag : ds'.requireStdJob = ds.requireStdJob)
    (hgroup : n.SameGroup ds.groupChannel ds'.groupChannel)
    (hcount : ds.channelIdFactory ≤ ds'.channelIdFactory) : MapsJobs n f mp ds' where
  mapped hl hj := h.mapped (hchannels hl) hj
  counted hl := (h.counted (hchannels hl)).trans_le hcount
  oneKind hl hl' := h.oneKind (hchannels hl) (hchannels hl')
  standard hstd {k c ch} hl := h.standard (hflag ▸ hstd) (hchannels hl)
  joined hstd := by
    rw [hgroup.1]
    exact h.joined (hflag ▸ hstd)
  grouped hstd {k c ch j} hl hj := by
    rw [hgroup.1]
    exact h.grouped (hflag ▸ hstd) (hchannels hl) hj
  future hstd {u j} hu := by
    rw [hgroup.1]
    rw [hgroup.2] at hu
    exact h.future (hflag ▸ hstd) hu

end MapsJobs

/-! ### Future jobs that wait for their previous hash -/

theorem JobOps.CountsJobs.futureJob_onNewTemplate {C : Type} {ops : JobOps C} {next : C → JobId}
    (law : ops.CountsJobs next) {c c' : C} {t : NewTemplate} {o : List TxOut} {u : TemplateId}
    (h : ops.onNewTemplate c t o = .ok c') (hu : ops.futureJob c u ≠ none) :
    ops.futureJob c' u ≠ none := by
  cases ht : t.futureTemplate with
  | false =>
      rw [law.keepsFuture h ht]
      exact hu
  | true =>
      obtain ⟨hsome, hother⟩ := law.onNewTemplate h ht
      by_cases heq : u = t.templateId
      · rw [heq]
        exact hsome
      · rw [hother u heq]
        exact hu

/-- The future job of a template after another template is the one from before, or the new one. -/
theorem JobOps.CountsJobs.futureJob_eq {C : Type} {ops : JobOps C} {next : C → JobId}
    (law : ops.CountsJobs next) {c c' : C} {t : NewTemplate} {o : List TxOut} {u : TemplateId}
    {j : Job} (h : ops.onNewTemplate c t o = .ok c') (hj : ops.futureJob c' u = some j) :
    ops.futureJob c u = some j ∨ t.futureTemplate = true ∧ u = t.templateId ∧ j.jobId = next c := by
  cases ht : t.futureTemplate with
  | false => exact .inl (law.keepsFuture h ht ▸ hj)
  | true =>
      by_cases heq : u = t.templateId
      · subst heq
        obtain ⟨-, j', hj', hid⟩ := law.counted h
        simp only [JobOps.jobOf, ht, if_true] at hj'
        obtain rfl := Option.some.inj (hj'.symm.trans hj)
        exact .inr ⟨rfl, rfl, hid⟩
      · exact .inl ((law.onNewTemplate h ht).2 u heq ▸ hj)

namespace Downstream

def HasChannel (ds : Downstream api) : Prop :=
  ∃ k c ch, (ds.channels k).lookup c = some ch

/-- The wanted channels have a future job of a template, if the downstream requires standard
jobs. -/
def ChannelsAwait (u : TemplateId) (wanted : ChannelId → Prop) (ds : Downstream api) : Prop :=
  ds.requireStdJob = true → ∀ c ch, wanted c → (ds.channels .standard).lookup c = some ch →
    api.channel.futureJob ch u ≠ none

/-- The group has a future job of a template, for channels that are there, and so have channels that
get jobs of their own. -/
structure Awaits (u : TemplateId) (ds : Downstream api) : Prop where
  group : ds.HasChannel → ∃ j, api.group.futureJob ds.groupChannel u = some j ∧
    (ds.requireStdJob = false → 1 < j.jobId)
  channels : ds.ChannelsAwait u fun _ => True

theorem ChannelsAwait.setChannel {u : TemplateId} {wanted wanted' : ChannelId → Prop}
    {ds : Downstream api} (h : ds.ChannelsAwait u wanted) {k : ChannelKind} {c : ChannelId}
    {ch' : api.Channel} (hwanted : ∀ c', c' ≠ c → wanted' c' → wanted c')
    (hch' : ds.requireStdJob = true → k = .standard → wanted' c →
      api.channel.futureJob ch' u ≠ none) (hk : ds.requireStdJob = true → k = .standard) :
    (ds.setChannel k c ch').ChannelsAwait u wanted' := by
  intro hstd c' ch'' hc' hl
  rcases lookup_setChannel hl with ⟨hk', rfl, rfl⟩ | ⟨hne, hl⟩
  · exact hch' hstd hk'.symm hc'
  · exact h hstd c' ch'' (hwanted c' (fun heq => hne ⟨(hk hstd).symm, heq⟩) hc') hl

/-- A channel is put back. -/
theorem Awaits.setChannel {u : TemplateId} {ds : Downstream api} (h : ds.Awaits u) {k : ChannelKind}
    {c : ChannelId} {ch ch' : api.Channel} (hch : (ds.channels k).lookup c = some ch)
    (hk : ds.requireStdJob = true → k = .standard)
    (hch' : ds.requireStdJob = true → api.channel.futureJob ch' u ≠ none) :
    (ds.setChannel k c ch').Awaits u :=
  ⟨fun _ => h.group ⟨k, c, ch, hch⟩,
    h.channels.setChannel (fun _ _ _ => trivial) (fun hstd _ _ => hch' hstd) hk⟩

end Downstream

/-! ### One downstream of the manager

The handlers thread the whole state through their loops. `Only d` says that nothing but the
downstream `d` has changed, and `Works` adds what is known of that one. -/

namespace ChannelManager

variable {s s₀ s' : ChannelManager api} {d : DownstreamId}

/-- The templates of a downstream's jobs. -/
def mapOf (s : ChannelManager api) (d : DownstreamId) : ChannelId × JobId → Option TemplateId :=
  fun key => s.jobTemplateId (d, key)

/-- Mapping a job writes one place of the map. -/
@[simp] theorem mapOf_mapJob (c : ChannelId) (j : JobId) (u : TemplateId) :
    (s.mapJob d c j u).mapOf d = update (s.mapOf d) (c, j) (some u) := by
  funext key
  by_cases hkey : key = (c, j)
  · simp [mapOf, mapJob, hkey]
  · have hne : (d, key) ≠ (d, c, j) := fun h => hkey (Prod.mk.inj h).2
    simp [mapOf, mapJob, Function.update_of_ne, hkey]

/-- What `s'` has changed about the downstreams and their jobs is about `d`. -/
structure Only (d : DownstreamId) (s s' : ChannelManager api) : Prop where
  lookup : ∀ d', d' ≠ d → s'.downstream.lookup d' = s.downstream.lookup d'
  mapOf : ∀ d', d' ≠ d → s'.mapOf d' = s.mapOf d'
  template : s'.lastFutureTemplate = s.lastFutureTemplate
  prevHash : s'.lastNewPrevHash = s.lastNewPrevHash

theorem Only.refl (d : DownstreamId) (s : ChannelManager api) : Only d s s :=
  ⟨fun _ _ => rfl, fun _ _ => rfl, rfl, rfl⟩

theorem Only.trans (h : Only d s₀ s) (h' : Only d s s') : Only d s₀ s' where
  lookup d' hd := (h'.lookup d' hd).trans (h.lookup d' hd)
  mapOf d' hd := (h'.mapOf d' hd).trans (h.mapOf d' hd)
  template := h'.template.trans h.template
  prevHash := h'.prevHash.trans h.prevHash

theorem Only.modifyDownstream (s : ChannelManager api) (d : DownstreamId)
    (f : Downstream api → Downstream api) : Only d s (s.modifyDownstream d f) where
  lookup d' hd := by
    simp only [ChannelManager.modifyDownstream]
    split
    · rfl
    · rw [AList.lookup_insert_ne hd]
  mapOf _ _ := rfl
  template := rfl
  prevHash := rfl

theorem Only.mapJob (s : ChannelManager api) (d : DownstreamId) (c : ChannelId) (j : JobId)
    (u : TemplateId) : Only d s (s.mapJob d c j u) where
  lookup _ _ := rfl
  mapOf d' hd := by
    funext key
    have hne : (d', key) ≠ (d, c, j) := fun h => hd (Prod.mk.inj h).1
    simp [ChannelManager.mapOf, ChannelManager.mapJob, Function.update_of_ne hne]
  template := rfl
  prevHash := rfl

theorem Only.mapJobs (s : ChannelManager api) (d : DownstreamId) (cs : List ChannelId) (j : JobId)
    (u : TemplateId) : Only d s (s.mapJobs d cs j u) where
  lookup _ _ := rfl
  mapOf d' hd := by
    funext key
    simp [ChannelManager.mapOf, ChannelManager.mapJobs, hd]
  template := rfl
  prevHash := rfl

/-- Only `d` was worked on, and `B` holds of it now. -/
structure Works (d : DownstreamId) (s₀ : ChannelManager api)
    (B : (ChannelId × JobId → Option TemplateId) → Downstream api → Prop)
    (s : ChannelManager api) : Prop where
  only : Only d s₀ s
  holds : ∃ ds, s.downstream.lookup d = some ds ∧ B (s.mapOf d) ds

theorem lookup_modifyDownstream_self {f : Downstream api → Downstream api} {ds : Downstream api}
    (h : s.downstream.lookup d = some ds) :
    (s.modifyDownstream d f).downstream.lookup d = some (f ds) := by
  simp [modifyDownstream, h]

section Works

variable {B B' : (ChannelId × JobId → Option TemplateId) → Downstream api → Prop}
  {ds : Downstream api}

/-- A step of the loop that writes the downstream. -/
theorem Works.modify (h : Works d s₀ B s) (hds : s.downstream.lookup d = some ds)
    {f : Downstream api → Downstream api} (hB : B' (s.mapOf d) (f ds)) :
    Works d s₀ B' (s.modifyDownstream d f) :=
  ⟨h.only.trans (.modifyDownstream _ _ _), f ds, lookup_modifyDownstream_self hds, hB⟩

theorem Works.mapJob (h : Works d s₀ B s) (hds : s.downstream.lookup d = some ds)
    {c : ChannelId} {j : JobId} {u : TemplateId}
    (hB : B' (update (s.mapOf d) (c, j) (some u)) ds) : Works d s₀ B' (s.mapJob d c j u) :=
  ⟨h.only.trans (.mapJob _ _ _ _ _), ds, hds, by rwa [mapOf_mapJob]⟩

/-- Other cells do not matter. -/
theorem Works.of_base (h : Works d s₀ B s) (hbase : s'.base = s.base) : Works d s₀ B s' := by
  obtain ⟨honly, ds, hds, hB⟩ := h
  have hdown : s'.downstream = s.downstream := congrArg Base.downstream hbase
  have hmap : s'.jobTemplateId = s.jobTemplateId := congrArg Base.jobTemplateId hbase
  have hmapOf : ∀ d', s'.mapOf d' = s.mapOf d' := fun d' => by
    unfold ChannelManager.mapOf
    rw [hmap]
  refine ⟨honly.trans ⟨fun d' _ => by rw [hdown], fun d' _ => hmapOf d', ?_, ?_⟩, ds, ?_, ?_⟩
  · exact congrArg Base.lastFutureTemplate hbase
  · exact congrArg Base.lastNewPrevHash hbase
  · rw [hdown]
    exact hds
  · rw [hmapOf]
    exact hB

end Works

end ChannelManager

/-! ### Templates

`Templated` is the invariant of the loop over the channels: `cs` are the ones to come. A standard
channel of a downstream that requires standard jobs takes an id of its own, the others take that of
the group. -/

/-- A downstream in the loops of a new template `t`. The standard channels `cs` are still to come,
and `i` is the id of the group's job. -/
structure Templated (n : api.JobCounters) (f : JobId → TemplateId) (p : List TemplateId)
    (t : NewTemplate) (r : Bool) (i : JobId) (cs : List ChannelId)
    (mp : ChannelId × JobId → Option TemplateId) (ds : Downstream api) : Prop
    extends MapsJobs n f mp ds where
  flag : ds.requireStdJob = r
  job : r = false → 1 < i ∧ i < n.group ds.groupChannel ∧ f i = t.templateId
  awaits : ∀ u ∈ p, ds.Awaits u
  group : t.futureTemplate = true → ∃ j, api.group.futureJob ds.groupChannel t.templateId = some j ∧
    (r = false → 1 < j.jobId)
  channels : t.futureTemplate = true → ds.ChannelsAwait t.templateId (· ∉ cs)

namespace ChannelManager

variable {s s₀ : ChannelManager api} {d : DownstreamId} {f : JobId → TemplateId}
  {p : List TemplateId} {t : NewTemplate} {outputs : List TxOut} {g : Job} {r : Bool}
  {cs : List ChannelId}

/-- A channel of the manager is a channel of its downstream. -/
theorem lookup_of_channel? {k : ChannelKind} {c : ChannelId} {ch : api.Channel}
    {ds : Downstream api} (hch : s.channel? d k c = some ch)
    (hds : s.downstream.lookup d = some ds) :
    (ds.channels k).lookup c = some ch := by
  obtain ⟨ds', hds', hl⟩ := channel?_eq_some.mp hch
  obtain rfl := Option.some.inj (hds'.symm.trans hds)
  exact hl

/-- A channel takes the job of its group. -/
theorem groupJob_works (hlaw : api.Lawful) {k : ChannelKind} {c : ChannelId} {ch ch' : api.Channel}
    (hw : Works d s₀ (Templated n f p t false g.jobId cs) s) (hg : g.template = t)
    (hch : s.channel? d k c = some ch) (hch' : api.onGroupChannelJob ch g = .ok ch') :
    Works d s₀ (Templated n f p t false g.jobId cs)
      ((s.mapJob d c g.jobId t.templateId).setChannel d k c ch') := by
  obtain ⟨ds, hds, hB⟩ := hw.holds
  have hl := lookup_of_channel? hch hds
  obtain ⟨hi, hlt, hf⟩ := hB.job rfl
  have hadd : MapsJobs n f (update (s.mapOf d) (c, g.jobId) (some t.templateId))
      (ds.setChannel k c ch') := by
    refine hB.toMapsJobs.addJob hl (fun j hj => ?_) (fun j hj heq => ?_) (fun hstd => ?_)
      fun _ => ⟨hlt, fun _ => hf⟩
    · rcases (hlaw.onGroupChannelJob hch').2 j hj with hold | rfl
      · exact .inl hold
      · exact .inr ⟨congrArg NewTemplate.templateId hg, rfl⟩
    · have htemplate := (hB.grouped hB.flag hl hj).2 (heq ▸ hi)
      exact htemplate.symm.trans (heq ▸ hf)
    · rw [hB.flag] at hstd
      cases hstd
  have hmapped : Works d s₀ (fun _ _ => True) (s.mapJob d c g.jobId t.templateId) :=
    hw.mapJob hds trivial
  refine hmapped.modify hds ?_
  rw [mapOf_mapJob]
  have hstd : ds.requireStdJob ≠ true := by simp [hB.flag]
  exact ⟨hadd, hB.flag, fun _ => ⟨hi, hlt, hf⟩, fun u hu => (hB.awaits u hu).setChannel hl
    (fun h => absurd h hstd) fun h => absurd h hstd, hB.group, fun _ h => absurd h hstd⟩

/-- A standard channel takes a job of its own. -/
theorem ownJob_works (law : n.Lawful) {c : ChannelId} {ch ch' : api.Channel} {job : Job} {i : JobId}
    (hw : Works d s₀ (Templated n f p t true i (c :: cs)) s)
    (hch : s.channel? d .standard c = some ch)
    (hch' : api.channel.onNewTemplate ch t outputs = .ok ch')
    (hjob : api.channel.jobOf ch' t = some job) :
    Works d s₀ (Templated n f p t true i cs)
      ((s.setChannel d .standard c ch').mapJob d c job.jobId t.templateId) := by
  obtain ⟨ds, hds, hB⟩ := hw.holds
  have hl := lookup_of_channel? hch hds
  obtain ⟨hnext, j, hj, hid⟩ := law.channel.counted hch'
  obtain rfl := Option.some.inj (hj.symm.trans hjob)
  have hadd : MapsJobs n f (update (s.mapOf d) (c, j.jobId) (some t.templateId))
      (ds.setChannel .standard c ch') := by
    refine hB.toMapsJobs.addJob hl (fun j' hj' => ?_) (fun j' hj' heq => ?_) (fun _ => ?_)
      fun hstd => ?_
    · rcases law.onNewTemplate hch' j' hj' with hold | ⟨ht, hid'⟩
      · exact .inl hold
      · exact .inr ⟨congrArg NewTemplate.templateId ht, hid'.trans hid.symm⟩
    · exact absurd (heq.trans hid) ((hB.standard hB.flag hl).2 j' hj').ne
    · rw [hnext, hid]
      exact ⟨Nat.le_succ _, Nat.lt_succ_self _⟩
    · rw [hB.flag] at hstd
      cases hstd
  have hput : Works d s₀ (fun _ _ => True) (s.setChannel d .standard c ch') :=
    hw.modify hds trivial
  refine hput.mapJob (lookup_modifyDownstream_self hds) ?_
  refine ⟨hadd, hB.flag, nofun, fun u hu => ?_, hB.group, fun ht => ?_⟩
  · exact (hB.awaits u hu).setChannel hl (fun _ => rfl) fun hstd =>
      law.channel.futureJob_onNewTemplate hch' ((hB.awaits u hu).channels hstd c ch trivial hl)
  · refine (hB.channels ht).setChannel (fun c' hne hc' => ?_) (fun _ _ _ => ?_) fun _ => rfl
    · simp [hne, hc']
    · exact (law.channel.onNewTemplate hch' ht).1

/-- One standard channel takes the template and its job is mapped, or the error is fatal. -/
theorem newTemplateStandard_ends (hlaw : api.Lawful) (law : n.Lawful) (hg : g.template = t)
    {c : ChannelId} (hw : Works d s₀ (Templated n f p t r g.jobId (c :: cs)) s) :
    Ends (Works d s₀ (Templated n f p t r g.jobId cs)) JDCError.IsFatal
      (newTemplateStandard t outputs g r d c s) := by
  obtain ⟨ds, hds, hB⟩ := hw.holds
  have hskip : s.channel? d .standard c = none ∨ r = false →
      Works d s₀ (Templated n f p t r g.jobId cs) s := by
    refine fun hnone => ⟨hw.only, ds, hds, hB.toMapsJobs, hB.flag, hB.job, hB.awaits, hB.group, ?_⟩
    intro ht hstd c' ch hc' hl
    by_cases heq : c' = c
    · subst heq
      rcases hnone with hnone | hr
      · rw [channel?_eq_some.mpr ⟨ds, hds, hl⟩] at hnone
        cases hnone
      · rw [← hB.flag, hstd] at hr
        cases hr
    · exact hB.channels ht hstd c' ch (by simp [heq, hc']) hl
  unfold newTemplateStandard
  cases hch : s.channel? d .standard c with
  | none => exact .keep (hskip (.inl hch))
  | some ch =>
      cases r with
      | true =>
          simp only [if_true]
          cases hch' : api.channel.onNewTemplate ch t outputs with
          | error e => exact .fail (.inr rfl)
          | ok ch' =>
              dsimp only
              cases hjob : api.channel.jobOf ch' t with
              | none => exact .fail (.inr rfl)
              | some job => exact .say (ownJob_works law hw hch hch' hjob)
      | false =>
          simp only [Bool.false_eq_true, if_false]
          cases hch' : api.onGroupChannelJob ch g with
          | error e => exact .fail (.inr rfl)
          | ok ch' => exact .keep (groupJob_works hlaw (hskip (.inr rfl)) hg hch hch')

/-- An extended channel takes the job of its group. -/
theorem newTemplateExtended_ends (hlaw : api.Lawful) (hg : g.template = t) {c : ChannelId}
    (hw : Works d s₀ (Templated n f p t r g.jobId cs) s) :
    Ends (Works d s₀ (Templated n f p t r g.jobId cs)) JDCError.IsFatal
      (newTemplateExtended t g d c s) := by
  obtain ⟨ds, hds, hB⟩ := hw.holds
  unfold newTemplateExtended
  cases hch : s.channel? d .extended c with
  | none => exact .keep hw
  | some ch =>
      have hr : r = false := by
        cases hr : r with
        | false => rfl
        | true =>
            have hkind := (hB.standard (hB.flag.trans hr) (lookup_of_channel? hch hds)).1
            cases hkind
      subst hr
      dsimp only
      cases hch' : api.onGroupChannelJob ch g with
      | error e => exact .fail (.inr rfl)
      | ok ch' => exact .keep (groupJob_works hlaw hw hg hch hch')

theorem shareFree_works (d : DownstreamId) (s₀ : ChannelManager api)
    (B : (ChannelId × JobId → Option TemplateId) → Downstream api → Prop) :
    ShareFree (Works d s₀ B) (fun _ => True) where
  of_base := Works.of_base
  shareNote _ _ := trivial

/-- The group has its job for the new template. -/
theorem setGroup_templated (law : n.Lawful) {ds : Downstream api} {group : api.Group} {job : Job}
    (hds : s.downstream.lookup d = some ds) (h : MapsJobs n f (s.mapOf d) ds)
    (hawaits : ∀ u ∈ p, ds.Awaits u)
    (hgroup : api.group.onNewTemplate ds.groupChannel t outputs = .ok group)
    (hjob : api.group.jobOf group t = some job) :
    Works d s (Templated n (update f job.jobId t.templateId) p t ds.requireStdJob job.jobId
      (ds.channels .standard).keys) (s.setGroup d group) := by
  obtain ⟨hnext, j, hj, hid⟩ := law.group.counted hgroup
  obtain rfl := Option.some.inj (hj.symm.trans hjob)
  have hlt : j.jobId < n.group group := by
    rw [hnext, hid]
    exact Nat.lt_succ_self _
  have hbelow : ∀ i, i < n.group ds.groupChannel → update f j.jobId t.templateId i = f i :=
    fun i hi => Function.update_of_ne (hid ▸ hi.ne) _ _
  have hone : ds.requireStdJob = false → 1 < j.jobId := fun hstd => hid ▸ h.joined hstd
  have hmaps : MapsJobs n (update f j.jobId t.templateId) (s.mapOf d)
      { ds with groupChannel := group } := by
    refine h.setGroup (hnext ▸ Nat.le_succ _) hbelow fun hstd {u j'} hu => ?_
    rcases law.group.futureJob_eq hgroup hu with hold | ⟨ht, rfl, hid'⟩
    · obtain ⟨hlt', hf⟩ := h.future hstd hold
      exact ⟨hlt'.trans (hid ▸ hlt), (hbelow _ hlt').trans hf⟩
    · rw [hid', ← hid]
      exact ⟨hlt, Function.update_self _ _ _⟩
  refine ⟨.modifyDownstream _ _ _, _, lookup_modifyDownstream_self hds, hmaps, rfl,
    fun hstd => ⟨hone hstd, hlt, Function.update_self _ _ _⟩,
    fun u hu => ⟨fun hch => ?_, (hawaits u hu).channels⟩, fun ht => ⟨j, ?_, hone⟩,
    fun _ _ c ch hc hl => ?_⟩
  · obtain ⟨j', hj', hone'⟩ := (hawaits u hu).group hch
    have hbefore : api.group.futureJob ds.groupChannel u ≠ none := by simp [hj']
    obtain ⟨j'', hj''⟩ := Option.ne_none_iff_exists'.mp
      (law.group.futureJob_onNewTemplate hgroup hbefore)
    refine ⟨j'', hj'', fun hstd => ?_⟩
    rcases law.group.futureJob_eq hgroup hj'' with hold | ⟨-, -, hid'⟩
    · obtain rfl := Option.some.inj (hj'.symm.trans hold)
      exact hone' hstd
    · exact hid' ▸ h.joined hstd
  · simpa only [JobOps.jobOf, ht, if_true] using hj
  · exact absurd (AList.lookup_isSome.mp (by rw [hl]; rfl)) hc

end ChannelManager

/-- The invariant of a downstream, and the templates whose previous hash is still to come. -/
structure Ready (n : api.JobCounters) (p : List TemplateId)
    (mp : ChannelId × JobId → Option TemplateId) (ds : Downstream api) : Prop where
  maps : ∃ f, MapsJobs n f mp ds
  awaits : ∀ u ∈ p, ds.Awaits u

theorem Ready.mono {p p' : List TemplateId} {mp : ChannelId × JobId → Option TemplateId}
    {ds : Downstream api} (h : Ready n p mp ds) (hp : ∀ u ∈ p', u ∈ p) : Ready n p' mp ds :=
  ⟨h.maps, fun u hu => h.awaits u (hp u hu)⟩

/-- Channels may go, and ids may be skipped. -/
theorem Ready.of_fewer {p : List TemplateId} {mp : ChannelId × JobId → Option TemplateId}
    {ds ds' : Downstream api} (h : Ready n p mp ds)
    (hchannels : ∀ {k c ch}, (ds'.channels k).lookup c = some ch →
    (ds.channels k).lookup c = some ch)
    (hflag : ds'.requireStdJob = ds.requireStdJob)
    (hgroup : n.SameGroup ds.groupChannel ds'.groupChannel)
    (hcount : ds.channelIdFactory ≤ ds'.channelIdFactory) : Ready n p mp ds' := by
  obtain ⟨⟨f, hmaps⟩, hawaits⟩ := h
  refine ⟨⟨f, hmaps.of_fewer hchannels hflag hgroup hcount⟩, fun u hu => ⟨?_, ?_⟩⟩
  · rintro ⟨k, c, ch, hl⟩
    rw [hgroup.2, hflag]
    exact (hawaits u hu).group ⟨k, c, ch, hchannels hl⟩
  · intro hstd c ch _ hl
    exact (hawaits u hu).channels (hflag ▸ hstd) c ch trivial (hchannels hl)

/-- The templates that wait for a previous hash after a new template. -/
def NewTemplate.pending (t : NewTemplate) (p : List TemplateId) : List TemplateId :=
  if t.futureTemplate then t.templateId :: p else p

/-- At the end of the loop the downstream is ready again, and awaits the template if it is a future
one. -/
theorem Templated.ready {f : JobId → TemplateId} {p : List TemplateId} {t : NewTemplate} {r : Bool}
    {i : JobId} {mp : ChannelId × JobId → Option TemplateId} {ds : Downstream api}
    (h : Templated n f p t r i [] mp ds) : Ready n (t.pending p) mp ds := by
  refine ⟨⟨f, h.toMapsJobs⟩, fun u hu => ?_⟩
  unfold NewTemplate.pending at hu
  split at hu
  · rename_i ht
    rcases List.mem_cons.mp hu with rfl | hu
    · exact ⟨fun _ => h.flag ▸ h.group ht,
        fun hstd c ch _ hl => h.channels ht hstd c ch (by simp) hl⟩
    · exact h.awaits u hu
  · exact h.awaits u hu

namespace ChannelManager

variable {s s₀ : ChannelManager api} {d : DownstreamId} {p : List TemplateId} {t : NewTemplate}
  {outputs : List TxOut}

/-- In the loops of a template: the standard channels `cs` of the downstream are still to come. -/
def OnTemplate (n : api.JobCounters) (f : JobId → TemplateId) (p : List TemplateId)
    (t : NewTemplate) (d : DownstreamId) (s₀ : ChannelManager api) (ds : Downstream api) (job : Job)
    (cs : List ChannelId) : ChannelManager api → Prop :=
  Works d s₀ (Templated n (update f job.jobId t.templateId) p t ds.requireStdJob job.jobId cs)

theorem newTemplateDownstream_ends (hlaw : api.Lawful) (law : n.Lawful)
    {token : Option AllocateMiningJobTokenSuccess} {ds : Downstream api}
    (hds : s.downstream.lookup d = some ds) (h : Ready n p (s.mapOf d) ds) :
    Ends (Works d s (Ready n (t.pending p))) JDCError.IsFatal
      (newTemplateDownstream t outputs token d s) := by
  obtain ⟨⟨f, hmaps⟩, hawaits⟩ := h
  unfold newTemplateDownstream
  rw [hds]
  dsimp only
  cases hgroup : api.group.onNewTemplate ds.groupChannel t outputs with
  | error e => exact .fail (.inr rfl)
  | ok group =>
      dsimp only
      cases hjob : api.group.jobOf group t with
      | none => exact .fail (.inr rfl)
      | some job =>
          have hg := (hlaw.groupJob hgroup hjob).1
          have hcustom : ∀ s', OnTemplate n f p t d s ds job (ds.channels .standard).keys s' →
              Ends (OnTemplate n f p t d s ds job (ds.channels .standard).keys) JDCError.IsFatal
                (s'.sendCustomJob token s'.lastNewPrevHash (some t) outputs) := fun s' hw =>
            ((shareFree_works d s _).declarationFree.sendCustomJob (fun _ he => he) hw).ends
          refine (hcustom _ (setGroup_templated law hds hmaps hawaits hgroup hjob)).andThen
            fun hw => Ends.andThen (.say hw) fun hw => ?_
          refine (Ends.forEach (I := OnTemplate n f p t d s ds job)
            (fun c cs s hw => newTemplateStandard_ends hlaw law hg hw) hw).andThen fun hw => ?_
          have hready : ∀ s', OnTemplate n f p t d s ds job [] s' →
              Works d s (Ready n (t.pending p)) s' := by
            rintro s' ⟨honly, ds', hds', hB⟩
            exact ⟨honly, ds', hds', hB.ready⟩
          exact (Ends.forEach (I := fun _ => OnTemplate n f p t d s ds job [])
            (fun c cs s hw => newTemplateExtended_ends hlaw hg hw) hw).mono hready

end ChannelManager

/-! ### Previous hashes

`Activated` is the same for the loop of a previous hash. The jobs are in the channels already, and
get activated. -/

/-- A downstream in the loops of a previous hash. The standard channels `cs` are still to come. -/
structure Activated (n : api.JobCounters) (f : JobId → TemplateId) (m : SetNewPrevHash) (r : Bool)
    (cs : List ChannelId) (mp : ChannelId × JobId → Option TemplateId) (ds : Downstream api) : Prop
    extends MapsJobs n f mp ds where
  flag : ds.requireStdJob = r
  channels : ds.ChannelsAwait m.templateId (· ∈ cs)

namespace ChannelManager

variable {s s₀ : ChannelManager api} {d : DownstreamId} {f : JobId → TemplateId}
  {p : List TemplateId} {m : SetNewPrevHash} {r : Bool} {cs : List ChannelId}

/-- A channel gets the previous hash. -/
theorem setChannel_activated (hlaw : api.Lawful) (law : n.Lawful) {k : ChannelKind} {c : ChannelId}
    {ch ch' : api.Channel} {cs' : List ChannelId} (hw : Works d s₀ (Activated n f m r cs') s)
    (hsub : cs ⊆ cs') (hc : c ∉ cs) (hch : s.channel? d k c = some ch)
    (hch' : api.channel.onSetNewPrevHash ch m = .ok ch') :
    Works d s₀ (Activated n f m r cs) (s.setChannel d k c ch') := by
  obtain ⟨ds, hds, hB⟩ := hw.holds
  have hl := lookup_of_channel? hch hds
  refine hw.modify hds ⟨hB.toMapsJobs.setChannel hl (hlaw.onSetNewPrevHash hch').2.2
    (law.channel.activates hch').1, hB.flag, ?_⟩
  exact hB.channels.setChannel (fun c' _ hc' => hsub hc') (fun _ _ hmem => absurd hmem hc)
    fun hstd => (hB.standard hstd hl).1

theorem prevHashStandard_ends (hlaw : api.Lawful) (law : n.Lawful) {c : ChannelId} (hc : c ∉ cs)
    (hw : Works d s₀ (Activated n f m r (c :: cs)) s) :
    Ends (Works d s₀ (Activated n f m r cs)) JDCError.IsFatal
      (prevHashChannel m r d .standard c s) := by
  unfold prevHashChannel
  cases hch : s.channel? d .standard c with
  | none =>
      obtain ⟨honly, ds, hds, hB⟩ := hw
      exact .keep ⟨honly, ds, hds, hB.toMapsJobs, hB.flag, fun hstd c' ch hc' =>
        hB.channels hstd c' ch (List.mem_cons_of_mem _ hc')⟩
  | some ch =>
      dsimp only
      cases hch' : api.channel.onSetNewPrevHash ch m with
      | error e => exact .fail (.inl rfl)
      | ok ch' =>
          have hw' := setChannel_activated hlaw law hw (List.subset_cons_self c cs) hc hch hch'
          dsimp only
          cases r with
          | false => exact .keep hw'
          | true =>
              simp only [if_true]
              cases hjob : api.channel.activeJob ch' with
              | none => exact .fail (.inr rfl)
              | some job =>
                  obtain ⟨ds, hds, hB⟩ := hw.holds
                  have hl := lookup_of_channel? hch hds
                  -- the active job is the future job of the template
                  obtain ⟨j, hj⟩ := Option.ne_none_iff_exists'.mp
                    (hB.channels hB.flag c ch List.mem_cons_self hl)
                  obtain rfl : j = job := Option.some.inj
                    (((law.channel.activates hch').2.2 j hj).symm.trans hjob)
                  have htemplate := law.channel.template hj
                  obtain ⟨ds', hds', hB'⟩ := hw'.holds
                  have hl' : (ds'.channels .standard).lookup c = some ch' :=
                    lookup_of_channel? (channel?_setChannel_self hch) hds'
                  refine .say (hw'.mapJob hds'
                    ⟨hB'.toMapsJobs.mapJob fun {k ch'' j'} hl'' hj' hid => ?_, hB'.flag,
                      hB'.channels⟩)
                  obtain rfl := hB'.oneKind hl' hl''
                  obtain rfl := Option.some.inj (hl''.symm.trans hl')
                  have hmapped := hB'.mapped hl' hj'
                  rw [hid, hB'.mapped hl' (law.activeJob hjob), htemplate] at hmapped
                  exact (Option.some.inj hmapped).symm

/-- An extended channel activates the job of its group. -/
theorem prevHashExtended_ends (hlaw : api.Lawful) (law : n.Lawful) {c : ChannelId}
    (hw : Works d s₀ (Activated n f m r []) s) :
    Ends (Works d s₀ (Activated n f m r [])) JDCError.IsFatal
      (prevHashChannel m r d .extended c s) := by
  unfold prevHashChannel
  cases hch : s.channel? d .extended c with
  | none => exact .keep hw
  | some ch =>
      dsimp only
      cases hch' : api.channel.onSetNewPrevHash ch m with
      | error e => exact .fail (.inl rfl)
      | ok ch' => exact .keep (setChannel_activated hlaw law hw (by simp) (by simp) hch hch')

/-- The group has activated the job of the template. -/
theorem setGroup_activated (law : n.Lawful) {ds : Downstream api} {group : api.Group}
    (hds : s.downstream.lookup d = some ds) (h : MapsJobs n f (s.mapOf d) ds)
    (hawaits : ds.Awaits m.templateId)
    (hgroup : api.group.onSetNewPrevHash ds.groupChannel m = .ok group) :
    Works d s (Activated n f m ds.requireStdJob (ds.channels .standard).keys)
      (s.setGroup d group) := by
  obtain ⟨hnext, hkept, -⟩ := law.group.activates hgroup
  have hmaps : MapsJobs n f (s.mapOf d) { ds with groupChannel := group } := by
    refine h.setGroup hnext.ge (fun _ _ => rfl) fun hstd {u j} hu => ?_
    rw [hnext]
    exact h.future hstd (hkept u j hu)
  exact ⟨.modifyDownstream _ _ _, _, lookup_modifyDownstream_self hds, hmaps, rfl,
    fun hstd c ch _ hl => hawaits.channels hstd c ch trivial hl⟩

/-- The group's active job is mapped in every channel. -/
theorem mapJobs_activated (cs₁ cs₂ : List ChannelId) {i : JobId}
    (hw : Works d s₀ (Activated n f m false cs) s)
    (hi : ∀ ds, s.downstream.lookup d = some ds → ds.HasChannel → 1 < i ∧ f i = m.templateId) :
    Works d s₀ (Activated n f m false cs)
      ((s.mapJobs d cs₁ i m.templateId).mapJobs d cs₂ i m.templateId) := by
  obtain ⟨ds, hds, hB⟩ := hw.holds
  refine ⟨(hw.only.trans (.mapJobs _ _ _ _ _)).trans (.mapJobs _ _ _ _ _), ds, hds, ?_, hB.flag,
    hB.channels⟩
  refine hB.toMapsJobs.remap fun {k c ch j} hl hj => ?_
  by_cases hid : j.jobId = i
  · obtain ⟨hi, hf⟩ := hi ds hds ⟨k, c, ch, hl⟩
    have htemplate := (hB.grouped hB.flag hl hj).2 (hid ▸ hi)
    rw [hid, hf] at htemplate
    by_cases hmem : c ∈ cs₁ ∨ c ∈ cs₂
    · refine .inr ?_
      rw [← htemplate]
      rcases hmem with hmem | hmem <;> simp [mapOf, mapJobs, hid, hmem]
    · push Not at hmem
      exact .inl (by simp [mapOf, mapJobs, hmem])
  · exact .inl (by simp [mapOf, mapJobs, hid])

/-- In the loops of a previous hash: the standard channels `cs` of the downstream are still to
come. -/
def OnPrevHash (n : api.JobCounters) (f : JobId → TemplateId) (m : SetNewPrevHash)
    (d : DownstreamId) (s₀ : ChannelManager api) (ds : Downstream api) (cs : List ChannelId)
    (s : ChannelManager api) : Prop :=
  cs.Nodup ∧ Works d s₀ (Activated n f m ds.requireStdJob cs) s

/-- The whole handler of a downstream. Nothing is awaited afterwards. -/
theorem prevHashDownstream_ends (hlaw : api.Lawful) (law : n.Lawful) {ds : Downstream api}
    (hds : s.downstream.lookup d = some ds) (h : Ready n p (s.mapOf d) ds)
    (hm : m.templateId ∈ p) :
    Ends (Works d s (Ready n [])) JDCError.IsFatal (prevHashDownstream m d s) := by
  obtain ⟨⟨f, hmaps⟩, hawaits⟩ := h
  have hawait := hawaits _ hm
  unfold prevHashDownstream
  rw [hds]
  dsimp only
  cases hgroup : api.group.onSetNewPrevHash ds.groupChannel m with
  | error e => exact .fail (.inl rfl)
  | ok group =>
      dsimp only
      cases hjob : api.group.activeJob group with
      | none => exact .fail (.inr rfl)
      | some job =>
          have hw := setGroup_activated law hds hmaps hawait hgroup
          have hnodup : (ds.channels .standard).keys.Nodup := (ds.channels .standard).keys_nodup
          refine (show Ends (OnPrevHash n f m d s ds (ds.channels .standard).keys)
            JDCError.IsFatal _ from ?_).andThen fun hI => ?_
          · split
            · rename_i hflag
              have hstd : ds.requireStdJob = false := by
                simp only [Bool.and_eq_true, Bool.not_eq_true'] at hflag
                exact hflag.1
              have hi : ∀ ds', (s.setGroup d group).downstream.lookup d = some ds' →
                  ds'.HasChannel → 1 < job.jobId ∧ f job.jobId = m.templateId := by
                intro ds' hds' hch
                obtain rfl := Option.some.inj ((lookup_modifyDownstream_self hds).symm.trans hds')
                obtain ⟨j, hj, hone⟩ := hawait.group hch
                obtain rfl : j = job := Option.some.inj
                  (((law.group.activates hgroup).2.2 j hj).symm.trans hjob)
                exact ⟨hone hstd, (hmaps.future hstd hj).2⟩
              rw [hstd] at hw
              have hmapped := mapJobs_activated (ds.channels .standard).keys
                (ds.channels .extended).keys hw hi
              rw [← hstd] at hmapped
              exact .say ⟨hnodup, hmapped⟩
            · exact .keep ⟨hnodup, hw⟩
          · refine (Ends.forEach (I := OnPrevHash n f m d s ds) (fun c cs s hI => ?_) hI).andThen
              fun hI => ?_
            · obtain ⟨hnd, hw⟩ := hI
              obtain ⟨hc, hnd'⟩ := List.nodup_cons.mp hnd
              exact (prevHashStandard_ends hlaw law hc hw).mono fun s' hw' => ⟨hnd', hw'⟩
            · have hready : ∀ s', Works d s (Activated n f m ds.requireStdJob []) s' →
                  Works d s (Ready n []) s' := by
                rintro s' ⟨honly, ds', hds', hB⟩
                exact ⟨honly, ds', hds', ⟨f, hB.toMapsJobs⟩, nofun⟩
              exact (Ends.forEach (I := fun _ => Works d s (Activated n f m ds.requireStdJob []))
                (fun c cs s hw => prevHashExtended_ends hlaw law hw) hI.2).mono hready

/-! ### All downstreams

The loop over the downstreams keeps `Feeding`, with the templates that are awaited by each
downstream (`w`). Those that the loop has reached await others than the rest. -/

/-- The invariant of the manager, with the templates that wait for a previous hash by downstream,
and the two cells the first job of a channel is built from. -/
structure Feeding (n : api.JobCounters) (w : DownstreamId → List TemplateId)
    (x : Option NewTemplate) (y : Option SetNewPrevHash) (s : ChannelManager api) : Prop where
  ready : ∀ {d ds}, s.downstream.lookup d = some ds → Ready n (w d) (s.mapOf d) ds
  template : s.lastFutureTemplate = x
  prevHash : s.lastNewPrevHash = y

variable {w w' : DownstreamId → List TemplateId} {x : Option NewTemplate}
    {y : Option SetNewPrevHash} {t : NewTemplate}

/-- One downstream was worked on. -/
theorem Feeding.of_works {s' : ChannelManager api} {q : List TemplateId} (h : Feeding n w x y s)
    (hw : Works d s (Ready n q) s') (hd : w' d ⊆ q) (hother : ∀ d', d' ≠ d → w' d' ⊆ w d') :
    Feeding n w' x y s' where
  ready {d' ds'} hds' := by
    obtain ⟨honly, ds, hds, hB⟩ := hw
    by_cases heq : d' = d
    · subst heq
      obtain rfl := Option.some.inj (hds'.symm.trans hds)
      exact hB.mono fun u hu => hd hu
    · rw [honly.lookup d' heq] at hds'
      rw [honly.mapOf d' heq]
      exact (h.ready hds').mono fun u hu => hother d' heq hu
  template := hw.only.template.trans h.template
  prevHash := hw.only.prevHash.trans h.prevHash

/-- The invariant looks at a part of the state only. -/
theorem Feeding.of_base {s' : ChannelManager api} (h : Feeding n w x y s)
    (hbase : s'.base = s.base) : Feeding n w x y s' where
  ready {d ds} hds := by
    have hdown : s'.downstream = s.downstream := congrArg Base.downstream hbase
    have hmap : s'.jobTemplateId = s.jobTemplateId := congrArg Base.jobTemplateId hbase
    rw [hdown] at hds
    have hready := h.ready hds
    unfold mapOf at hready ⊢
    rw [hmap]
    exact hready
  template := (congrArg Base.lastFutureTemplate hbase).trans h.template
  prevHash := (congrArg Base.lastNewPrevHash hbase).trans h.prevHash

theorem Feeding.mono (h : Feeding n w x y s) (hw : ∀ d, w' d ⊆ w d) : Feeding n w' x y s :=
  ⟨fun hds => (h.ready hds).mono fun _ hu => hw _ hu, h.template, h.prevHash⟩

theorem shareFree_feeding : ShareFree (Feeding n w x y) (fun _ => True) where
  of_base h := h.of_base
  shareNote _ _ := trivial

/-- The templates that wait for a previous hash while a template goes round. -/
def waiting (p p' : List TemplateId) (ds : List DownstreamId) (d : DownstreamId) :
    List TemplateId :=
  if d ∈ ds then p else p'

/-- A template that is not a future one takes nothing away. -/
theorem subset_pending (t : NewTemplate) (p : List TemplateId) : p ⊆ t.pending p := by
  unfold NewTemplate.pending
  split
  · exact List.subset_cons_self _ _
  · exact List.Subset.refl _

/-- At the start of the loop every downstream is still to come. -/
theorem Feeding.start {p' : List TemplateId} (h : Feeding n (fun _ => p) x y s) :
    Feeding n (waiting p p' s.downstream.keys) x y s where
  ready {d ds} hds := by
    have hmem : d ∈ s.downstream.keys := AList.lookup_isSome.mp (by rw [hds]; rfl)
    rw [waiting, if_pos hmem]
    exact h.ready hds
  template := h.template
  prevHash := h.prevHash

/-- A downstream that is gone is passed over. -/
theorem Feeding.skip {p' : List TemplateId} {ds : List DownstreamId}
    (h : Feeding n (waiting p p' (d :: ds)) x y s) (hds : s.downstream.lookup d = none) :
    Feeding n (waiting p p' ds) x y s where
  ready {d' ds'} hds' := by
    have hne : d' ≠ d := by
      rintro rfl
      rw [hds] at hds'
      cases hds'
    have hready := h.ready hds'
    rwa [show waiting p p' (d :: ds) d' = waiting p p' ds d' by simp [waiting, hne]] at hready
  template := h.template
  prevHash := h.prevHash

/-- A template reaches all downstreams, or the error is fatal. -/
theorem newTemplateLoop_ends (hlaw : api.Lawful) (law : n.Lawful) {outputs : List TxOut}
    {token : Option AllocateMiningJobTokenSuccess} (h : Feeding n (fun _ => p) x y s) :
    Ends (Feeding n (fun _ => t.pending p) x y) JDCError.IsFatal
      (forEach (newTemplateDownstream t outputs token) s.downstream.keys s) := by
  refine (Ends.forEach (I := fun ds => Feeding n (waiting p (t.pending p) ds) x y)
    (fun d ds s h => ?_) h.start).mono fun s' h' => h'.mono fun d u hu =>
    by simpa [waiting] using hu
  cases hds : s.downstream.lookup d with
  | none =>
      have hkeep : newTemplateDownstream t outputs token d s = .keep s := by
        unfold newTemplateDownstream
        rw [hds]
      rw [hkeep]
      exact .keep (h.skip hds)
  | some ds' =>
      have hready := h.ready hds
      rw [show waiting p (t.pending p) (d :: ds) d = p by simp [waiting]] at hready
      refine (newTemplateDownstream_ends hlaw law hds hready).mono fun s' hw =>
        h.of_works hw (fun u hu => ?_) fun d' hne => by simp [waiting, hne]
      unfold waiting at hu
      split at hu
      · exact subset_pending t p hu
      · exact hu

theorem handleNewTemplate_ends (hlaw : api.Lawful) (law : n.Lawful)
    (h : Feeding n (fun _ => p) x y s) :
    Ends (Feeding n (fun _ => t.pending p) (if t.futureTemplate then some t else x) y)
      JDCError.IsFatal (s.handleNewTemplate t) := by
  unfold handleNewTemplate
  dsimp only
  cases houtputs : rewardOutputs s.coinbaseOutputs t with
  | error e => exact .fail (.inr (rewardOutputs_action houtputs))
  | ok outputs =>
      dsimp only
      refine (Ends.say (P := Feeding n (fun _ => p) (if t.futureTemplate then some t else x) y)
        ?_).andThen fun h => ?_
      · exact ⟨h.ready, by simp [takeToken, h.template], h.prevHash⟩
      · exact (newTemplateLoop_ends hlaw law h).collect fun h =>
          (shareFree_feeding.declarationFree.allocateTokenIf _ h).ends

/-- In the loop of a previous hash: the downstreams `ds` are still to come. -/
structure OnDownstreams (n : api.JobCounters) (p : List TemplateId) (x : Option NewTemplate)
    (y : Option SetNewPrevHash) (ds : List DownstreamId) (s : ChannelManager api) : Prop where
  nodup : ds.Nodup
  feeding : Feeding n (waiting p [] ds) x y s

/-- A previous hash reaches all downstreams, if its template is awaited. -/
theorem prevHashLoop_ends (hlaw : api.Lawful) (law : n.Lawful) {m : SetNewPrevHash}
    (hm : m.templateId ∈ p) (h : Feeding n (fun _ => p) x y s) :
    Ends (Feeding n (fun _ => []) x y) JDCError.IsFatal
      (forEach (prevHashDownstream m) s.downstream.keys s) := by
  have hstart : OnDownstreams n p x y s.downstream.keys s := ⟨s.downstream.keys_nodup, h.start⟩
  refine (Ends.forEach (I := OnDownstreams n p x y) (fun d ds s hI => ?_) hstart).mono fun s' hI =>
    hI.feeding.mono fun d u hu => by simp at hu
  obtain ⟨hnodup, h⟩ := hI
  obtain ⟨hd, hnodup'⟩ := List.nodup_cons.mp hnodup
  cases hds : s.downstream.lookup d with
  | none =>
      have hkeep : prevHashDownstream m d s = .keep s := by
        unfold prevHashDownstream
        rw [hds]
      rw [hkeep]
      exact .keep ⟨hnodup', h.skip hds⟩
  | some ds' =>
      have hready := h.ready hds
      rw [show waiting p [] (d :: ds) d = p by simp [waiting]] at hready
      refine (prevHashDownstream_ends hlaw law hds hready hm).mono fun s' hw =>
        ⟨hnodup', h.of_works hw (by simp [waiting, hd]) fun d' hne => by simp [waiting, hne]⟩

theorem handleSetNewPrevHash_ends (hlaw : api.Lawful) (law : n.Lawful) {m : SetNewPrevHash}
    (hm : m.templateId ∈ p) (h : Feeding n (fun _ => p) x y s) :
    Ends (Feeding n (fun _ => []) x (some m)) JDCError.IsFatal (s.handleSetNewPrevHash m) := by
  unfold handleSetNewPrevHash
  cases deserializeOutputs s.coinbaseOutputs with
  | none => exact .fail (.inr rfl)
  | some outputs =>
      dsimp only
      refine (Ends.say (P := Feeding n (fun _ => p) x (some m)) ?_).andThen fun h => ?_
      · exact ⟨h.ready, h.template, rfl⟩
      · refine Ends.collect (.andThen ?_ fun h => prevHashLoop_ends hlaw law hm h)
          fun h => (shareFree_feeding.declarationFree.allocateTokenIf _ h).ends
        exact (shareFree_feeding.declarationFree.sendCustomJob (fun _ he => he) h).ends

/-! ### Connections and channels

`Timely` is what a new channel needs: nothing is awaited any more once the previous hash of the last
future template has come. -/

theorem sameGroup_refl (g : api.Group) : n.SameGroup g g :=
  ⟨rfl, fun _ => rfl⟩

/-- A downstream that is put in. -/
theorem works_insert {ds : Downstream api} {s' : ChannelManager api}
    {B : (ChannelId × JobId → Option TemplateId) → Downstream api → Prop}
    (hdown : s'.downstream = s.downstream.insert d ds) (hmap : s'.jobTemplateId = s.jobTemplateId)
    (ht : s'.lastFutureTemplate = s.lastFutureTemplate)
    (hm : s'.lastNewPrevHash = s.lastNewPrevHash) (hB : B (s.mapOf d) ds) : Works d s B s' := by
  have hmapOf : ∀ d', s'.mapOf d' = s.mapOf d' := fun d' => by
    unfold mapOf
    rw [hmap]
  refine ⟨⟨fun d' hne => ?_, fun d' _ => hmapOf d', ht, hm⟩, ds, ?_, ?_⟩
  · rw [hdown, AList.lookup_insert_ne hne]
  · rw [hdown, AList.lookup_insert]
  · rw [hmapOf]
    exact hB

/-- With the last future template and the last previous hash a channel can be opened only while no
template waits. -/
structure Timely (p : List TemplateId) (x : Option NewTemplate) (y : Option SetNewPrevHash) :
    Prop where
  future : ∀ t, x = some t → t.futureTemplate = true
  done : ∀ t m, x = some t → y = some m → m.templateId = t.templateId → p = []

/-- What a channel is opened with is activated at once, or not at all. -/
theorem Timely.eq_nil (h : Timely p x y) {C : Type} {ops : JobOps C} (law : ops.KeysFutureJobs)
    (hrefuses : ops.RefusesUnmatched) {c c' c'' : C} {m : SetNewPrevHash} {o : List TxOut}
    (ht : x = some t) (hm : y = some m)
    (hempty : ∀ u, ops.futureJob c u = none) (hc' : ops.onNewTemplate c t o = .ok c')
    (hc'' : ops.onSetNewPrevHash c' m = .ok c'') : p = [] := by
  by_cases hne : m.templateId = t.templateId
  · exact h.done t m ht hm hne
  · exact absurd hc'' (law.not_ok hrefuses hempty (h.future t ht) hne hc')

/-- The first job of a group has the first id. -/
theorem mapsJobs_connected (law : n.Lawful) {g g' g'' : api.Group} {o : List TxOut} {i k : Nat}
    {m : SetNewPrevHash} {r : Bool} {mp : ChannelId × JobId → Option TemplateId}
    (hg : api.newGroup i k = .ok g) (hg' : api.group.onNewTemplate g t o = .ok g')
    (hg'' : api.group.onSetNewPrevHash g' m = .ok g'') :
    MapsJobs n (fun _ => t.templateId) mp (⟨r, g'', fun _ => ∅, 2⟩ : Downstream api) := by
  obtain ⟨hfirst, hempty⟩ := law.newGroup hg
  obtain ⟨hnext, hkept, -⟩ := law.group.activates hg''
  have hcount : n.group g'' = 2 := by rw [hnext, (law.group.counted hg').1, hfirst]
  refine ⟨by simp, by simp, by simp, by simp, fun _ => ?_, by simp, fun _ {u j} hu => ?_⟩
  · show 1 < n.group g''
    rw [hcount]
    exact Nat.lt_succ_self 1
  · rcases law.group.futureJob_eq hg' (hkept u j hu) with hold | ⟨-, rfl, hid⟩
    · rw [hempty] at hold
      cases hold
    · refine ⟨?_, rfl⟩
      show j.jobId < n.group g''
      rw [hid, hfirst, hcount]
      exact Nat.lt_succ_self 1

/-- A new downstream has no channel, and nothing to await. -/
theorem connect_feeding (law : n.Lawful) (h : Feeding n (fun _ => p) x y s)
    (r : Bool) : Passes (Feeding n (fun _ => p) x y) (fun _ => True) (s.connect r) := by
  have hcount : Feeding n (fun _ => p) x y
      { s with downstreamIdFactory := s.downstreamIdFactory + 1 } :=
    ⟨h.ready, h.template, h.prevHash⟩
  unfold connect
  split
  · rename_i t m ht hm
    dsimp only
    split
    · exact .fail hcount trivial
    · rename_i g hg
      split
      · exact .fail hcount trivial
      · split
        · exact .keep hcount
        · split
          · exact .fail hcount trivial
          · rename_i g' hg'
            split
            · exact .fail hcount trivial
            · rename_i g'' hg''
              have hempty : ¬ (⟨r, g'', fun _ => ∅, 2⟩ : Downstream api).HasChannel := by
                rintro ⟨k, c, ch, hl⟩
                cases hl
              refine .keep (h.of_works (works_insert rfl rfl rfl rfl (B := Ready n p)
                ⟨⟨_, mapsJobs_connected law hg hg' hg''⟩, fun u _ => ⟨fun hch => absurd hch hempty,
                  fun _ c ch _ hl => absurd ⟨_, c, ch, hl⟩ hempty⟩⟩) (by simp) (by simp))
  · exact .keep h

theorem nextChannelId_feeding (h : Feeding n w x y s) (d : DownstreamId) :
    Feeding n w x y (s.nextChannelId d) where
  ready {d' ds} hds := by
    rcases lookup_modifyDownstream hds with hds | ⟨rfl, old, hold, rfl⟩
    · exact h.ready hds
    · exact (h.ready hold).of_fewer (fun hl => hl) rfl (sameGroup_refl _) (Nat.le_succ _)
  template := h.template
  prevHash := h.prevHash

/-- The channel is new, and its id was counted. -/
structure Fresh (n : api.JobCounters) (d : DownstreamId) (k : ChannelKind) (c : ChannelId)
    (ch : api.Channel) (s : ChannelManager api) : Prop where
  first : n.channel ch = 1
  empty : api.jobs ch = [] ∧ ∀ u, api.channel.futureJob ch u = none
  absent : ∀ {ds}, s.downstream.lookup d = some ds → c < ds.channelIdFactory ∧
    (∀ k', (ds.channels k').lookup c = none) ∧ (ds.requireStdJob = true → k = .standard)

/-- A channel with its first job is put in its map. -/
theorem works_putChannel {ds : Downstream api} {k : ChannelKind} {c : ChannelId} {ch : api.Channel}
    {f : JobId → TemplateId} (hds : s.downstream.lookup d = some ds)
    (hopen : MapsJobs n f (update (s.mapOf d) (c, 1) (some t.templateId)) (ds.setChannel k c ch)) :
    Works d s (MapsJobs n f)
      ((({ s with vardiff := update s.vardiff (d, c) true } : ChannelManager api).setChannel d k c
        ch).mapJob d c 1 t.templateId) := by
  have hput : Works d s (fun _ _ => True)
      (({ s with vardiff := update s.vardiff (d, c) true } : ChannelManager api).setChannel d k c
        ch) :=
    ⟨⟨fun d' hne => (Only.modifyDownstream _ d _).lookup d' hne, fun _ _ => rfl, rfl, rfl⟩, _,
      lookup_modifyDownstream_self hds, trivial⟩
  exact hput.mapJob (lookup_modifyDownstream_self hds) hopen

/-- A new channel takes its first job, and the job is mapped. -/
theorem activateChannel_feeding (hlaw : api.Lawful) (law : n.Lawful) (htimely : Timely p x y)
    (h : Feeding n (fun _ => p) x y s) {k : ChannelKind} {c : ChannelId} {requestId : Nat}
    {ch : api.Channel} (hfresh : Fresh n d k c ch s) {m : SetNewPrevHash} (ht : x = some t)
    (hm : y = some m) {outputs : List TxOut} {joins : Bool} {size : Nat} :
    Passes (Feeding n (fun _ => p) x y) (fun _ => True)
      (s.activateChannel d k c requestId ch t m outputs joins size) := by
  unfold activateChannel
  cases hch' : api.channel.onNewTemplate ch t outputs with
  | error e => exact .fail h trivial
  | ok ch' =>
      dsimp only
      cases hjob : api.channel.futureJob ch' t.templateId with
      | none => exact .fail h trivial
      | some job =>
          dsimp only
          cases hch'' : api.channel.onSetNewPrevHash ch' m with
          | error e => exact .fail h trivial
          | ok ch'' =>
              dsimp only
              cases hds : s.downstream.lookup d with
              | none => exact .fail h trivial
              | some ds =>
                  obtain rfl := htimely.eq_nil law.channel.toKeysFutureJobs law.refuses ht hm
                    hfresh.empty.2
                    hch' hch''
                  obtain ⟨⟨f, hmaps⟩, -⟩ := h.ready hds
                  obtain ⟨hcounted, habsent, hkind⟩ := hfresh.absent hds
                  have hjobs : ∀ j ∈ api.jobs ch', j.template.templateId = t.templateId ∧
                      j.jobId = 1 := by
                    intro j hj
                    rcases law.onNewTemplate hch' j hj with hold | ⟨htemplate, hid⟩
                    · rw [hfresh.empty.1] at hold
                      cases hold
                    · exact ⟨congrArg NewTemplate.templateId htemplate, hid.trans hfresh.first⟩
                  have hnext : n.channel ch'' = 2 := by
                    rw [(law.channel.activates hch'').1, (law.channel.counted hch').1, hfresh.first]
                  have hopen := hmaps.openChannel habsent hcounted hkind
                    (fun j hj => hjobs j ((hlaw.onSetNewPrevHash hch'').2.2 j hj))
                    (hnext ▸ Nat.lt_succ_self 1)
                  rw [(hjobs job (law.futureJob hjob)).2]
                  have hworks := works_putChannel hds hopen
                  have hready : ∀ s', Works d s (MapsJobs n f) s' →
                      Feeding n (fun _ => []) x y s' := by
                    rintro s' ⟨honly, ds', hds', hB⟩
                    exact h.of_works (q := []) ⟨honly, ds', hds', ⟨f, hB⟩, nofun⟩ (by simp)
                      (by simp)
                  dsimp only
                  split
                  · split
                    · exact .fail (hready _ hworks) trivial
                    · rename_i g hg
                      have hsame := law.addChannelId hg
                      refine .say (hready _ (hworks.modify (lookup_modifyDownstream_self hds) ?_))
                        fun _ _ => trivial
                      have hB : MapsJobs n f _ (ds.setChannel k c ch'') := hopen
                      rw [mapOf_mapJob]
                      exact hB.of_fewer (fun hl => hl) rfl hsame le_rfl
                  · exact .say (hready _ hworks) fun _ _ => trivial

/-- The channel that is being opened has an id of its own and no job yet. -/
theorem fresh_nextChannelId (h : Feeding n w x y s) {ds : Downstream api}
    (hds : s.downstream.lookup d = some ds) {k : ChannelKind} {ch : api.Channel}
    (hkind : ds.requireStdJob = true → k = .standard) (hfirst : n.channel ch = 1)
    (hempty : api.jobs ch = [] ∧ ∀ u, api.channel.futureJob ch u = none) :
    Fresh n d k ds.channelIdFactory ch (s.nextChannelId d) := by
  refine ⟨hfirst, hempty, fun {ds'} hds' => ?_⟩
  rw [show (s.nextChannelId d).downstream.lookup d =
    some { ds with channelIdFactory := ds.channelIdFactory + 1 } from
      lookup_modifyDownstream_self hds] at hds'
  obtain rfl := Option.some.inj hds'
  obtain ⟨⟨f, hmaps⟩, -⟩ := h.ready hds
  refine ⟨Nat.lt_succ_self _, fun k' => ?_, hkind⟩
  cases hl : (ds.channels k').lookup ds.channelIdFactory with
  | none => rfl
  | some ch' => exact absurd (hmaps.counted hl) (lt_irrefl _)

theorem handleOpenMiningChannel_feeding (hlaw : api.Lawful) (law : n.Lawful)
    (htimely : Timely p x y) (r : PendingChannelRequest) (slot : Nat)
    (h : Feeding n (fun _ => p) x y s) :
    Passes (Feeding n (fun _ => p) x y) (fun _ => True) (s.handleOpenMiningChannel r slot) := by
  have h' := nextChannelId_feeding h r.downstreamId
  unfold handleOpenMiningChannel
  split
  · unfold handleOpenStandardMiningChannel
    split
    · exact .fail h trivial
    · split
      · exact .fail h trivial
      · rename_i t ht
        split
        · exact .fail h trivial
        · rename_i m hm
          split
          · exact .fail h trivial
          · split
            · exact .fail h trivial
            · rename_i ds hds
              dsimp only
              split
              · exact .fail h' trivial
              · split
                · exact .say h' fun _ _ => trivial
                · exact .fail h' trivial
                · rename_i ch hch
                  obtain ⟨hfirst, hnone⟩ := law.newStandard hch
                  exact activateChannel_feeding hlaw law htimely h'
                    (fresh_nextChannelId h hds (fun _ => rfl) hfirst
                      ⟨(hlaw.newStandard hch).1, hnone⟩)
                    (h.template.symm.trans ht) (h.prevHash.symm.trans hm)
  · unfold handleOpenExtendedMiningChannel
    split
    · exact .fail h trivial
    · rename_i t ht
      split
      · exact .fail h trivial
      · rename_i m hm
        split
        · exact .fail h trivial
        · rename_i ds hds
          split
          · exact .say h fun _ _ => trivial
          · rename_i hstd
            dsimp only
            split
            · exact .say h' fun _ _ => trivial
            · split
              · exact .say h' fun _ _ => trivial
              · exact .fail h' trivial
              · rename_i ch hch
                obtain ⟨hfirst, hnone⟩ := law.newExtended hch
                split
                · exact .fail h' trivial
                · exact activateChannel_feeding hlaw law htimely h'
                    (fresh_nextChannelId h hds (fun hr => absurd hr hstd) hfirst
                      ⟨(hlaw.newExtended hch).1, hnone⟩)
                    (h.template.symm.trans ht) (h.prevHash.symm.trans hm)

theorem handleDownstreamOpen_feeding (hlaw : api.Lawful) (law : n.Lawful) (htimely : Timely p x y)
    (r : PendingChannelRequest) (slot : Nat) (h : Feeding n (fun _ => p) x y s) :
    Passes (Feeding n (fun _ => p) x y) (fun _ => True) (s.handleDownstreamOpen r slot) := by
  unfold handleDownstreamOpen
  split
  · exact .say ⟨h.ready, h.template, h.prevHash⟩ fun _ _ => trivial
  · exact .keep ⟨h.ready, h.template, h.prevHash⟩
  · exact handleOpenMiningChannel_feeding hlaw law htimely r slot h
  · exact handleOpenMiningChannel_feeding hlaw law htimely r slot h

theorem handleCloseChannel_feeding (law : n.Lawful) (h : Feeding n w x y s) (d : DownstreamId)
    (c : ChannelId) : Passes (Feeding n w x y) (fun _ => True) (s.handleCloseChannel d c) := by
  unfold handleCloseChannel
  split
  · exact .fail h trivial
  · rename_i ds hds
    refine .keep (h.of_works (works_insert rfl rfl rfl rfl (B := Ready n (w d)) ?_)
      (List.Subset.refl _) fun _ _ => List.Subset.refl _)
    refine (h.ready hds).of_fewer (fun {k c' ch} hl => ?_) rfl ?_ le_rfl
    · by_cases hc : c' = c
      · subst hc
        rw [AList.lookup_erase] at hl
        cases hl
      · rwa [AList.lookup_erase_ne hc] at hl
    · dsimp only
      split
      · exact law.removeChannelId
      · exact sameGroup_refl _

theorem removeDownstream_feeding (h : Feeding n w x y s) (d : DownstreamId) :
    Feeding n w x y (s.removeDownstream d) where
  ready {d' ds} hds := by
    simp only [removeDownstream] at hds
    by_cases hne : d' = d
    · rw [hne, AList.lookup_erase] at hds
      cases hds
    · rw [AList.lookup_erase_ne hne] at hds
      have hmap : (s.removeDownstream d).mapOf d' = s.mapOf d' := by
        funext key
        simp [mapOf, removeDownstream, hne]
      rw [hmap]
      exact h.ready hds
  template := h.template
  prevHash := h.prevHash

/-- The size of an extranonce has nothing to do with ids. -/
theorem resizeGroups_feeding (law : n.Lawful) (h : Feeding n w x y s) (size : Nat) :
    Feeding n w x y (s.resizeGroups size) where
  ready {d ds} hds := by
    obtain ⟨old, hold, rfl | rfl⟩ := visit_lookup_some hds
    · exact h.ready hold
    · exact (h.ready hold).of_fewer (fun hl => hl) rfl law.setFullExtranonceSize le_rfl
  template := h.template
  prevHash := h.prevHash

/-- A channel is put back with the same jobs, or fewer past ones. -/
theorem setChannel_feeding (h : Feeding n w x y s) {k : ChannelKind} {c : ChannelId}
    {ch ch' : api.Channel} (hch : s.channel? d k c = some ch)
    (hjobs : ∀ j ∈ api.jobs ch', j ∈ api.jobs ch) (hsame : n.Same ch ch') :
    Feeding n w x y (s.setChannel d k c ch') := by
  obtain ⟨ds, hds, hl⟩ := channel?_eq_some.mp hch
  obtain ⟨⟨f, hmaps⟩, hawaits⟩ := h.ready hds
  refine h.of_works (q := w d) ⟨.modifyDownstream _ _ _, _, lookup_modifyDownstream_self hds,
    ⟨f, hmaps.setChannel hl hjobs hsame.1⟩, fun u hu => ?_⟩ (List.Subset.refl _)
    fun _ _ => List.Subset.refl _
  have hkind := fun hstd => (hmaps.standard hstd hl).1
  refine (hawaits u hu).setChannel hl hkind fun hstd => ?_
  obtain rfl := hkind hstd
  rw [hsame.2]
  exact (hawaits u hu).channels hstd c ch trivial hl

theorem handleSetExtranoncePrefix_feeding (hlaw : api.Lawful) (law : n.Lawful)
    (h : Feeding n w x y s) (q : Bytes) (slots : DownstreamId → ChannelKind → ChannelId → Nat) :
    Passes (Feeding n w x y) (fun _ => True) (s.handleSetExtranoncePrefix q slots) := by
  have hreassign : ∀ d k c s', Feeding n w x y s' →
      Passes (Feeding n w x y) (fun _ => True) (reassignPrefix slots d k c s') := by
    intro d k c s' h
    unfold reassignPrefix
    split
    · exact .keep h
    · rename_i ch hch
      dsimp only
      split
      · exact .keep h
      · split
        · exact .keep h
        · rename_i ch' hch'
          have hjobs := (hlaw.setExtranoncePrefix hch').2.1
          exact .say (setChannel_feeding h hch (fun j hj => hjobs ▸ hj)
            (law.setExtranoncePrefix hch')) fun _ _ => trivial
  unfold handleSetExtranoncePrefix
  split
  · exact .keep h
  · split
    · exact .fail h trivial
    · split
      · exact .fail h trivial
      · dsimp only
        split
        · exact .fail ⟨h.ready, h.template, h.prevHash⟩ trivial
        · split
          · exact .fail ⟨h.ready, h.template, h.prevHash⟩ trivial
          · refine .forEach (fun d _ s h => ?_) ⟨h.ready, h.template, h.prevHash⟩
            exact (Leaves.forEach (fun c _ s h => hreassign d .standard c s h) h).andThen fun _ h =>
              .forEach (fun c _ s h => hreassign d .extended c s h) h

/-! ### Shares -/

/-- What becomes of a share is in other cells. -/
theorem translateShare_feeding (h : Feeding n w x y s) {k : ChannelKind} {m : SetNewPrevHash}
    {ch : api.Channel} {msg : SubmitSharesExtended} {res : ShareValidationResult} :
    Passes (Feeding n w x y) (fun _ => True) (s.translateShare k d m ch msg res) := by
  unfold translateShare
  split
  · exact .keep h
  · dsimp only
    split
    · exact .fail h trivial
    · split
      · exact .fail h trivial
      · split
        · exact shareFree_feeding.relayShare h
        · split
          · exact .keep h
          · exact .keep ⟨h.ready, h.template, h.prevHash⟩

/-- For any validation that leaves the jobs of the channel alone. -/
theorem submitShares_feeding (h : Feeding n w x y s) {k : ChannelKind} {msg : SubmitSharesExtended}
    {validate : api.Channel → api.Channel × Except ShareValidationError ShareValidationResult}
    (hvalidate : ∀ ch, (∀ j ∈ api.jobs (validate ch).1, j ∈ api.jobs ch) ∧
      n.Same ch (validate ch).1) :
    Passes (Feeding n w x y) (fun _ => True) (s.submitShares k d msg validate) := by
  unfold submitShares
  split
  · exact .fail h trivial
  · split
    · exact .fail h trivial
    · split
      · exact .say h fun _ _ => trivial
      · rename_i ch hch
        have h' := setChannel_feeding h hch (hvalidate ch).1 (hvalidate ch).2
        refine checkVardiff_leaves ?_ (fun _ _ => trivial) fun _ _ _ => trivial
        split
        · split
          · exact .fail h' trivial
          · exact .say h' fun _ _ => trivial
        · exact Leaves.andThen (acknowledgeShare_leaves h' (fun _ _ => trivial)
            (fun _ _ _ _ _ => trivial) trivial) fun _ h => translateShare_feeding h

/-! ### The upstream channel -/

/-- The waiting requests open their channels as requests do later. -/
theorem handleOpenExtendedMiningChannelSuccess_feeding (hlaw : api.Lawful) (law : n.Lawful)
    (htimely : Timely p x y) (m : OpenExtendedMiningChannelSuccess) (slots : Nat → Nat)
    (h : Feeding n (fun _ => p) x y s) :
    Passes (Feeding n (fun _ => p) x y) (fun _ => True)
      (s.handleOpenExtendedMiningChannelSuccess m slots) := by
  have hcustom : ∀ (u : api.Upstream) (token : Option AllocateMiningJobTokenSuccess)
      (outputs : List TxOut) (s' : ChannelManager api), Feeding n (fun _ => p) x y s' →
        Feeding n (fun _ => p) x y (s'.upstreamCustomJob u token outputs).1 := by
    intro u token outputs s' h
    unfold upstreamCustomJob
    split
    · exact ⟨h.ready, h.template, h.prevHash⟩
    · exact h
  unfold handleOpenExtendedMiningChannelSuccess
  split
  · exact .fail h trivial
  · rename_i outputs _
    split
    · exact .fail h trivial
    · split
      · exact .say ⟨h.ready, h.template, h.prevHash⟩ fun _ _ => trivial
      · rename_i first _
        dsimp only
        split
        · exact .say ⟨h.ready, h.template, h.prevHash⟩ fun _ _ => trivial
        · have hjob := hcustom (s.upstreamOf m first.message.nominalHashRate)
            (s.takeToken s.wantsUpstreamToken).1 outputs (s.takeToken s.wantsUpstreamToken).2
            ⟨h.ready, h.template, h.prevHash⟩
          refine Leaves.andThen (.say (resizeGroups_feeding law ?_ _) fun _ _ => trivial) fun _ h =>
            ?_
          · exact ⟨hjob.ready, hjob.template, hjob.prevHash⟩
          refine (shareFree_feeding.declarationFree.allocateTokenIf _ h).andThen fun _ h => ?_
          exact .forEach (fun r _ s h => handleOpenMiningChannel_feeding hlaw law htimely r.1 _ h)
            ⟨h.ready, h.template, h.prevHash⟩

end ChannelManager

/-! ### The plain implementation -/

/-- The counters of the plain implementation. -/
def referenceCounters : reference.JobCounters where
  channel := RefChannel.nextJobId
  group g := g.jobs.nextJobId

/-- A previous hash gives out no job id. -/
theorem RefChannel.setPrevHash_counts {ch ch' : RefChannel} {m : SetNewPrevHash} {moves : Bool}
    (h : ch.setPrevHash m moves = .ok ch') :
    ch'.nextJobId = ch.nextJobId ∧
      (∀ u j, ch'.futureJob u = some j → ch.futureJob u = some j) ∧
      ∀ j, ch.futureJob m.templateId = some j → ch'.active = some j := by
  obtain ⟨job, hjob, rfl⟩ | ⟨hnone, -, rfl⟩ := setPrevHash_eq_ok h
  · refine ⟨rfl, fun u j hj => ?_, fun j hj => hjob.symm.trans hj⟩
    simp [RefChannel.futureJob] at hj
  · refine ⟨rfl, fun u j hj => hj, fun j hj => ?_⟩
    cases hnone.symm.trans hj

theorem reference_channel_countsJobs : reference.channel.CountsJobs referenceCounters.channel where
  toKeysFutureJobs := reference_channel_keysFutureJobs
  counted {c t o c'} h := by
    obtain rfl := Except.ok.inj h
    by_cases ht : t.futureTemplate = true
    · simp [reference, referenceCounters, JobOps.jobOf, RefChannel.onNewTemplate,
        RefChannel.futureJob, ht]
    · simp [reference, referenceCounters, JobOps.jobOf, RefChannel.onNewTemplate, ht]
  keepsFuture {c t o c' u} h ht := by
    obtain rfl := Except.ok.inj h
    simp [reference, RefChannel.onNewTemplate, RefChannel.futureJob, ht]
  activates {c m c'} h := by
    exact RefChannel.setPrevHash_counts h
  template {c u j} h := by
    simpa using List.find?_some h

theorem reference_group_countsJobs : reference.group.CountsJobs referenceCounters.group where
  toKeysFutureJobs := reference_keysFutureJobs.group
  counted {c t o c'} h := by
    obtain rfl := Except.ok.inj h
    exact reference_channel_countsJobs.counted (c := c.jobs) (o := o) rfl
  keepsFuture {c t o c' u} h ht := by
    obtain rfl := Except.ok.inj h
    exact reference_channel_countsJobs.keepsFuture (c := c.jobs) (o := o) rfl ht
  activates {c m c'} h := by
    obtain ⟨jobs, hjobs, rfl⟩ := reference_group_onSetNewPrevHash h
    exact RefChannel.setPrevHash_counts hjobs
  template h := reference_channel_countsJobs.template h

theorem reference_countsJobs : referenceCounters.Lawful where
  channel := reference_channel_countsJobs
  refuses := reference_refusesUnmatched
  group := reference_group_countsJobs
  newStandard h := by
    obtain rfl := Except.ok.inj h
    exact ⟨rfl, fun _ => rfl⟩
  newExtended h := by
    obtain rfl := Except.ok.inj h
    exact ⟨rfl, fun _ => rfl⟩
  newGroup h := by
    obtain rfl := Except.ok.inj h
    exact ⟨rfl, fun _ => rfl⟩
  onNewTemplate {ch t o ch'} h j hj := by
    obtain rfl := Except.ok.inj h
    by_cases ht : t.futureTemplate = true
    · simp only [reference, referenceCounters, RefChannel.onNewTemplate, ht, if_true,
        RefChannel.jobs, List.mem_append, List.mem_cons] at hj ⊢
      rcases hj with (hj | rfl | hj) | hj
      · exact .inl (.inl (.inl hj))
      · exact .inr ⟨rfl, rfl⟩
      · exact .inl (.inl (.inr hj))
      · exact .inl (.inr hj)
    · simp only [reference, referenceCounters, RefChannel.onNewTemplate, ht, Bool.false_eq_true,
        if_false, RefChannel.jobs, List.mem_append, Option.toList_some, List.mem_singleton] at hj ⊢
      rcases hj with (rfl | hj) | hj | hj
      · exact .inr ⟨rfl, rfl⟩
      · exact .inl (.inl (.inr hj))
      · exact .inl (.inl (.inl hj))
      · exact .inl (.inr hj)
  activeJob {ch j} h := by
    simp only [reference] at h ⊢
    simp [RefChannel.jobs, h]
  futureJob {ch u j} h := by
    have hmem : j ∈ ch.future := List.mem_of_find?_eq_some h
    simp [reference, RefChannel.jobs, hmem]
  setExtranoncePrefix h := by
    obtain rfl := Except.ok.inj h
    exact ⟨rfl, fun _ => rfl⟩
  validateStandard := ⟨rfl, fun _ => rfl⟩
  validateExtended {ch m} := by
    have hsame : (reference.validateExtended ch m).1 = ch := by
      simp only [reference]
      split <;> rfl
    rw [hsame]
    exact ⟨rfl, fun _ => rfl⟩
  addChannelId h := by
    obtain rfl := Except.ok.inj h
    exact ⟨rfl, fun _ => rfl⟩
  removeChannelId := ⟨rfl, fun _ => rfl⟩
  setFullExtranonceSize := ⟨rfl, fun _ => rfl⟩

end GridPoolSv2.JobDeclaratorClient
