import GridPoolSv2.Lib.Runs
import GridPoolSv2.Pool.History

/-!
# Pool.PrevHash: the job a previous hash names

A `SetNewPrevHash` that is sent to a downstream names one job, for a channel or for all
members of the group. Every channel and every group numbers its own jobs. Outside GridPool
mode the channels of a group get the group's job under the group's number; in GridPool
mode every channel gets a job of its own, while previous hashes are still sent to the
group.

* `Announced` says that a job was sent to a channel as a future job.
* `InOrder` is the condition on the steps: the provider activates the last future template, once,
  and in GridPool mode the job counter of a channel stands where that of its group does when a
  future template comes. The group counts the templates of its connection, a channel those since it
  was opened and the fee rotations, so the counters drift apart as soon as a template comes between
  the connection and the channel.
* `Aligned` is the invariant, and `prev_hash_names_announced_job` the result over runs.

A connection that is accepted between a future template and its previous hash has a group that is
not ready for this template, but no channel can be opened on it before the previous hash:
`AlignedAt` asks for ready channels of downstreams that have some.

Proof shape: a template makes a downstream `Ready` for its previous hash, if the counters agree
or there is no GridPool client. `Frame` carries this over the other events. At the previous
hash the group names the job that all ready channels have, and the messages of the step are
read off `prevHashDownstream_ok`.
-/

namespace GridPoolSv2.Pool

open Consensus (Bytes TxOut)
open Runs Visit ChannelManager

variable {env : Env}

/-- A future job with this number was sent to the channel. -/
def Announced (history : List Note) (d : DownstreamId) (c : ChannelId) (jobId : JobId) : Prop :=
  ∃ k cid job addressees, .sent ⟨d, .job k cid job, addressees⟩ ∈ history ∧ c ∈ addressees ∧
    job.jobId = jobId ∧ job.minNtime = none

theorem Announced.mono {history : List Note} {d : DownstreamId} {c : ChannelId} {jobId : JobId}
    (h : Announced history d c jobId) (more : List Note) :
    Announced (history ++ more) d c jobId := by
  obtain ⟨k, cid, job, addressees, hmem, hrest⟩ := h
  exact ⟨k, cid, job, addressees, List.mem_append_left _ hmem, hrest⟩

/-- The channels of a downstream are to number their next job as its group does. -/
def SameCounters (ds : Downstream env.channels) : Prop :=
  ∀ k c ch, (ds.channels k).lookup c = some ch →
    env.channels.channel.nextJobId ch = env.channels.group.nextJobId ds.group

/-- The condition on templates and previous hashes. -/
def InOrder (s : ChannelManager env.channels) : Event → Prop
  | .newTemplate t _ _ =>
      t.futureTemplate = true → s.gridpool ≠ none → ∀ d ds, s.downstreams.lookup d = some ds →
        ds.requiresCustomWork = false → ds.requiresStandardJobs = false → SameCounters ds
  | .setNewPrevHash m =>
      (∃ t, s.lastFutureTemplate = some t ∧ t.templateId = m.templateId) ∧
      ∀ m', s.lastNewPrevHash = some m' → m'.templateId ≠ m.templateId
  | _ => True

/-! ### The invariant -/

/-- The channels of a downstream have their jobs for a future template that was not activated yet,
and their group has one under the same number. -/
def Ready (history : List Note) (u : TemplateId) (d : DownstreamId) (ds : Downstream env.channels) :
    Prop :=
  ∀ k c ch, (ds.channels k).lookup c = some ch →
    ∃ j, env.channels.channel.futureJob ch u = some j ∧ Announced history d c j.jobId ∧
      (ds.requiresStandardJobs = false →
        ∃ jg, env.channels.group.futureJob ds.group u = some jg ∧ jg.jobId = j.jobId)

/-- The channels of a downstream are in its group, unless it requires standard jobs; then they are
standard channels. -/
structure Grouped (ds : Downstream env.channels) : Prop where
  members : ds.requiresStandardJobs = false → ∀ k c ch, (ds.channels k).lookup c = some ch →
    c ∈ env.channels.members ds.group
  standard : ds.requiresStandardJobs = true → ∀ c, (ds.channels .extended).lookup c = none

/-- What the invariant says of one downstream: it has its jobs for the last future template, as long
as no previous hash has activated this. -/
structure AlignedAt (s : ChannelManager env.channels) (d : DownstreamId)
    (ds : Downstream env.channels) : Prop where
  grouped : Grouped ds
  ready : ∀ t m, s.lastFutureTemplate = some t → s.lastNewPrevHash = some m →
    t.templateId ≠ m.templateId → Ready s.history t.templateId d ds

structure Aligned (s : ChannelManager env.channels) : Prop where
  future : s.running = true → ∀ t, s.lastFutureTemplate = some t → t.futureTemplate = true
  connected : s.running = true → ∀ d ds, s.downstreams.lookup d = some ds →
    ∃ t m, s.lastFutureTemplate = some t ∧ s.lastNewPrevHash = some m
  downstream : s.running = true → ∀ d ds, s.downstreams.lookup d = some ds →
    ds.requiresCustomWork = false → AlignedAt s d ds

theorem aligned_initial (config : Config) (outputs : List TxOut) :
    Aligned (initial config outputs : ChannelManager env.channels) where
  future := by
    intro _ t h
    cases h
  connected := by
    intro _ d ds h
    cases h
  downstream := by
    intro _ d ds h
    cases h

/-! ### Steps that keep the future jobs -/

/-- `ds'` has the future jobs of `ds`, perhaps for fewer channels. -/
structure Frame (ds ds' : Downstream env.channels) : Prop where
  requiresStandardJobs : ds'.requiresStandardJobs = ds.requiresStandardJobs
  requiresCustomWork : ds'.requiresCustomWork = ds.requiresCustomWork
  group : env.channels.group.futureJob ds'.group = env.channels.group.futureJob ds.group
  channels : ∀ k c ch', (ds'.channels k).lookup c = some ch' →
    ∃ ch, (ds.channels k).lookup c = some ch ∧
      env.channels.channel.futureJob ch' = env.channels.channel.futureJob ch
  members : ∀ k c ch', (ds'.channels k).lookup c = some ch' → c ∈ env.channels.members ds.group →
    c ∈ env.channels.members ds'.group

section Frame

variable {ds ds' : Downstream env.channels}

theorem Frame.refl (ds : Downstream env.channels) : Frame ds ds :=
  ⟨rfl, rfl, rfl, fun _ _ ch h => ⟨ch, h, rfl⟩, fun _ _ _ _ h => h⟩

theorem frame_of_kept (h : Downstream.Kept ds ds') : Frame ds ds' where
  requiresStandardJobs := h.requiresStandardJobs
  requiresCustomWork := h.requiresCustomWork
  group := by rw [h.group]
  channels := by
    intro k c ch hch
    rw [h.channels] at hch
    exact ⟨ch, hch, rfl⟩
  members := by
    intro k c ch _ hc
    rwa [h.group]

theorem Grouped.frame (h : Grouped ds) (hframe : Frame ds ds') : Grouped ds' where
  members := by
    intro hstd k c ch' hch'
    obtain ⟨ch, hch, -⟩ := hframe.channels k c ch' hch'
    exact hframe.members k c ch' hch' (h.members (hframe.requiresStandardJobs ▸ hstd) k c ch hch)
  standard := by
    intro hstd c
    by_contra hne
    obtain ⟨ch', hch'⟩ := Option.ne_none_iff_exists'.mp hne
    obtain ⟨ch, hch, -⟩ := hframe.channels .extended c ch' hch'
    rw [h.standard (hframe.requiresStandardJobs ▸ hstd) c] at hch
    cases hch

theorem Ready.frame {history : List Note} {u : TemplateId} {d : DownstreamId}
    (h : Ready history u d ds) (hframe : Frame ds ds') (more : List Note) :
    Ready (history ++ more) u d ds' := by
  intro k c ch' hch'
  obtain ⟨ch, hch, hfuture⟩ := hframe.channels k c ch' hch'
  obtain ⟨j, hj, hannounced, hgroup⟩ := h k c ch hch
  refine ⟨j, by rw [hfuture, hj], hannounced.mono more, fun hstd => ?_⟩
  rw [hframe.group]
  exact hgroup (hframe.requiresStandardJobs ▸ hstd)

end Frame

/-! ### Frames of single handlers -/

section Handlers

variable (law : env.channels.Lawful) {s : ChannelManager env.channels} {d : DownstreamId}
  {ds : Downstream env.channels}

include law

/-- The fee tick builds no future jobs. -/
theorem frame_feeTick {g : GridPoolClient} {t : NewTemplate} (hf : t.futureTemplate = false)
    (clock : DownstreamId → ChannelId → UInt64) (d : DownstreamId) (ds : Downstream env.channels) :
    Frame ds (ds.visitBoth .standard .extended (s.refreshChannel g t clock d)).value := by
  obtain ⟨channels, hframe⟩ := Downstream.visitBoth_frame .standard .extended
    (s.refreshChannel g t clock d) ds
  refine ⟨by rw [hframe], by rw [hframe], by rw [hframe], ?_, fun _ _ _ _ hc => by rwa [hframe]⟩
  intro k c ch' hch'
  have hne : ChannelKind.standard ≠ .extended := by decide
  rcases Downstream.visitBoth_lookup hne (s.refreshChannel g t clock d) ds k c with
    hsame | ⟨ch, hch, hval, -⟩
  · exact ⟨ch', hsame.symm.trans hch', rfl⟩
  · obtain rfl := Option.some.inj (hval.symm.trans hch')
    refine ⟨ch, hch, ?_⟩
    rcases refreshChannel_cases d k c ch t s clock g with ⟨hkeep, -⟩ | ⟨payout, outputs, -, hb, -⟩
    · rw [hkeep]
    · obtain ⟨j, -, -, hfuture, -⟩ := law.channel.onNewTemplate_active hb.template hf
      exact hfuture

theorem frame_custom {msg : SetCustomMiningJob} {ch ch' : env.channels.Channel} {i : JobId}
    (hch : (ds.channels .extended).lookup msg.channelId = some ch)
    (h : env.channels.onSetCustomMiningJob ch msg = .ok (i, ch')) :
    Frame ds (ds.insertChannel .extended msg.channelId ch') := by
  refine ⟨rfl, rfl, rfl, ?_, fun _ _ _ _ hc => hc⟩
  intro k c ch'' hch''
  have hinsert : (ds.insertChannel .extended msg.channelId ch').channels =
      Function.update ds.channels .extended ((ds.channels .extended).insert msg.channelId ch') :=
        rfl
  rcases lookup_insertChannel hinsert k c with ⟨rfl, rfl, heq⟩ | ⟨-, heq⟩
  · obtain rfl := Option.some.inj (heq.symm.trans hch'')
    obtain ⟨-, hfuture, -⟩ := law.onSetCustomMiningJob h
    exact ⟨ch, hch, hfuture⟩
  · exact ⟨ch'', heq.symm.trans hch'', rfl⟩

theorem frame_closed (c : ChannelId) :
    Frame ds { ds with
      group := if c ∈ env.channels.members ds.group then env.channels.removeChannelId ds.group c
        else ds.group
      channels := fun k => (ds.channels k).erase c } where
  requiresStandardJobs := rfl
  requiresCustomWork := rfl
  group := by
    dsimp only
    split
    · exact law.removeChannelId.2.1
    · rfl
  channels := by
    intro k c' ch' hch'
    by_cases hc : c' = c
    · subst hc
      rw [AList.lookup_erase] at hch'
      cases hch'
    · rw [AList.lookup_erase_ne hc] at hch'
      exact ⟨ch', hch', rfl⟩
  members := by
    intro k c' ch' hch' hmem
    have hc : c' ≠ c := by
      rintro rfl
      rw [AList.lookup_erase] at hch'
      cases hch'
    dsimp only
    split
    · exact (law.removeChannelId.1 c').mpr ⟨hc, hmem⟩
    · exact hmem

end Handlers

/-! ### New templates

In GridPool mode the job of a channel has its own number, which is compared with that of the group.
Otherwise the job is the group's. -/

/-- How a channel got the job of a template: a job of its own, which was sent to it, or the
group's. -/
inductive GivenJob (s : ChannelManager env.channels) (t : NewTemplate) (d : DownstreamId)
    (ds : Downstream env.channels) (groupJob : Job) (notes : List Note) (k : ChannelKind)
    (c : ChannelId) (ch ch' : env.channels.Channel) : Prop where
  | own {outputs job} (hown : s.gridpool ≠ none ∨ ds.requiresStandardJobs = true)
      (h : env.channels.channel.onNewTemplate ch t outputs = .ok ch')
      (hjob : jobOf env.channels.channel ch' t = some job)
      (hsent : .sent ⟨d, .job k c job, [c]⟩ ∈ notes)
  | group (hg : s.gridpool = none) (hk : k = .standard → ds.requiresStandardJobs = false)
      (h : env.channels.onGroupChannelJob ch groupJob = .ok ch')

/-- A downstream that got a template without an error. -/
structure GivenTemplate (s : ChannelManager env.channels) (t : NewTemplate) (d : DownstreamId)
    (ds ds' : Downstream env.channels) (notes : List Note) (groupJob : Job) : Prop where
  requiresStandardJobs : ds'.requiresStandardJobs = ds.requiresStandardJobs
  requiresCustomWork : ds'.requiresCustomWork = ds.requiresCustomWork
  group : ∃ outputs, env.channels.group.onNewTemplate ds.group t outputs = .ok ds'.group
  hasJob : jobOf env.channels.group ds'.group t = some groupJob
  announced : ds.requiresStandardJobs = false → env.channels.members ds'.group ≠ [] →
    s.gridpool = none →
    .sent ⟨d, .newExtendedMiningJob (env.channels.groupChannelId ds'.group) groupJob,
      env.channels.members ds'.group⟩ ∈ notes
  channel : ∀ k c ch', (ds'.channels k).lookup c = some ch' →
    ∃ ch, (ds.channels k).lookup c = some ch ∧ GivenJob s t d ds groupJob notes k c ch ch'

theorem newTemplateDownstream_ok {s : ChannelManager env.channels} {t : NewTemplate}
    {clock : DownstreamId → ChannelId → UInt64} {d : DownstreamId} {ds : Downstream env.channels}
    (hcustom : ds.requiresCustomWork = false)
    (herr : (s.newTemplateDownstream t clock d ds).error = none) :
    ∃ groupJob, GivenTemplate s t d ds (s.newTemplateDownstream t clock d ds).value
      (s.newTemplateDownstream t clock d ds).notes groupJob := by
  rcases newTemplateDownstream_cases d t s clock ds with
    ⟨htrue, -⟩ | ⟨-, hfail, -⟩ | ⟨-, group, groupJob, hgroup, hjob, announced, v, hv, ho,
      hannounced⟩
  · rw [hcustom] at htrue
    cases htrue
  · exact absurd herr hfail
  · rw [ho] at herr ⊢
    dsimp only at herr ⊢
    obtain ⟨channels, hframe⟩ := Downstream.visitBoth_frame .standard .extended
      (s.newTemplateChannel t clock d ds.requiresStandardJobs (s.downstreamOutputs ds t) groupJob)
      { ds with group := group }
    rw [← hv] at hframe
    refine ⟨groupJob, by rw [hframe], by rw [hframe], ⟨_, by rw [hframe]; exact hgroup⟩,
      by rw [hframe]; exact hjob, ?_, ?_⟩
    · intro hstd hmembers hg
      rw [hframe] at hmembers ⊢
      rw [hannounced, if_pos ⟨hstd, hmembers, hg⟩]
      exact List.mem_append_left _ (List.mem_singleton.mpr rfl)
    · intro k c ch' hch'
      have hne : ChannelKind.standard ≠ .extended := by decide
      have hk : k = .standard ∨ k = .extended := by cases k <;> simp
      -- without an error every channel was visited
      have hbefore : ∃ ch, (ds.channels k).lookup c = some ch := by
        rcases Downstream.visitBoth_lookup hne (s.newTemplateChannel t clock d
          ds.requiresStandardJobs (s.downstreamOutputs ds t) groupJob)
          { ds with group := group } k c
          with hsame | ⟨ch, hch, -⟩
        · rw [← hv] at hsame
          exact ⟨ch', hsame.symm.trans hch'⟩
        · exact ⟨ch, hch⟩
      obtain ⟨ch, hch⟩ := hbefore
      refine ⟨ch, hch, ?_⟩
      rw [hv] at herr
      obtain ⟨hval, hok, hnotes⟩ := Downstream.visitBoth_ok hne herr hk hch
      rw [← hv] at hval hnotes
      obtain rfl := Option.some.inj (hval.symm.trans hch')
      rcases newTemplateChannel_cases d k c ch t s clock ds.requiresStandardJobs
        (s.downstreamOutputs ds t) groupJob with
        ⟨-, -, hfail⟩ | ⟨g, payout, outputs, hg, -, hb⟩ |
        ⟨hg, -, hstd, htemplate, ⟨-, hfail⟩ | ⟨job, hjob, -, hn⟩⟩ | ⟨hg, hstd, -, -, hgiven⟩
      · exact absurd hok hfail
      · rcases hb.notes with ⟨-, hfail⟩ | ⟨job, hjob, -, hn⟩
        · exact absurd hok hfail
        · refine .own (.inl (by simp [hg])) hb.template hjob (List.mem_append_right _ (hnotes _ ?_))
          simp [hn]
      · exact absurd hok hfail
      · refine .own (.inr hstd) htemplate hjob (List.mem_append_right _ (hnotes _ ?_))
        simp [hn]
      · exact .group hg hstd hgiven

section GivenTemplate

variable (law : env.channels.Lawful) {s : ChannelManager env.channels} {t : NewTemplate}
  {d : DownstreamId} {ds ds' : Downstream env.channels} {notes : List Note} {groupJob : Job}

include law

/-- The job of a channel that was given a future template. -/
theorem futureJob_of_given {ch ch' : env.channels.Channel} {outputs : List TxOut} {job : Job}
    (h : env.channels.channel.onNewTemplate ch t outputs = .ok ch') (hf : t.futureTemplate = true)
    (hjob : jobOf env.channels.channel ch' t = some job) :
    env.channels.channel.futureJob ch' t.templateId = some job ∧ job.minNtime = none ∧
      job.jobId = env.channels.channel.nextJobId ch := by
  rw [jobOf, if_pos hf] at hjob
  obtain ⟨j, hb, hfuture, -⟩ := law.channel.onNewTemplate_future h hf
  refine ⟨hjob, ?_⟩
  rw [hfuture, Function.update_self] at hjob
  obtain rfl := Option.some.inj hjob
  exact ⟨hb.future.mpr hf, hb.jobId⟩

theorem GivenTemplate.grouped (h : GivenTemplate s t d ds ds' notes groupJob) (hg : Grouped ds) :
    Grouped ds' where
  members := by
    intro hstd k c ch' hch'
    obtain ⟨ch, hch, -⟩ := h.channel k c ch' hch'
    obtain ⟨outputs, hgroup⟩ := h.group
    rw [(law.members_onNewTemplate hgroup).1]
    exact hg.members (h.requiresStandardJobs ▸ hstd) k c ch hch
  standard := by
    intro hstd c
    by_contra hne
    obtain ⟨ch', hch'⟩ := Option.ne_none_iff_exists'.mp hne
    obtain ⟨ch, hch, -⟩ := h.channel .extended c ch' hch'
    rw [hg.standard (h.requiresStandardJobs ▸ hstd) c] at hch
    cases hch

/-- A future template makes a downstream ready for it. -/
theorem GivenTemplate.ready (h : GivenTemplate s t d ds ds' notes groupJob) (hgrouped : Grouped ds)
    (hf : t.futureTemplate = true)
    (hcounters : s.gridpool ≠ none → ds.requiresStandardJobs = false → SameCounters ds)
    {history : List Note} (hnotes : ∀ x ∈ notes, x ∈ history) :
    Ready history t.templateId d ds' := by
  obtain ⟨outputs, hgroup⟩ := h.group
  have hgroupJob : env.channels.group.futureJob ds'.group t.templateId = some groupJob := by
    have hjob := h.hasJob
    rwa [jobOf, if_pos hf] at hjob
  have hbuilt := groupJob_of_onNewTemplate law hgroup h.hasJob
  intro k c ch' hch'
  obtain ⟨ch, hch, hgiven⟩ := h.channel k c ch' hch'
  cases hgiven with
  | own hown htemplate hjob hsent =>
      rename_i outputs' job
      obtain ⟨hfuture, hntime, hnumber⟩ := futureJob_of_given law htemplate hf hjob
      refine ⟨job, hfuture, ⟨k, c, job, [c], hnotes _ hsent, List.mem_singleton.mpr rfl, rfl,
        hntime⟩, fun hstd => ⟨groupJob, hgroupJob, ?_⟩⟩
      rw [h.requiresStandardJobs] at hstd
      have hgridpool : s.gridpool ≠ none := hown.resolve_right (by simp [hstd])
      -- both jobs have the number that the two counters had
      rw [hnumber, hcounters hgridpool hstd k c ch hch]
      exact hbuilt.jobId
  | group hg hk hok =>
      have hntime : groupJob.minNtime = none := hbuilt.future.mpr hf
      obtain ⟨hupdate, -⟩ := law.onGroupChannelJob_future hok hbuilt.template hntime
      -- the group's message reached this channel, which is one of its members
      have hstd : ds.requiresStandardJobs = false := by
        cases k with
        | standard => exact hk rfl
        | extended =>
            by_contra htrue
            rw [hgrouped.standard (by simpa using htrue) c] at hch
            cases hch
      have hmember : c ∈ env.channels.members ds'.group := by
        rw [(law.members_onNewTemplate hgroup).1]
        exact hgrouped.members hstd k c ch hch
      have hsent := h.announced hstd (List.ne_nil_of_mem hmember) hg
      refine ⟨groupJob, by rw [hupdate, Function.update_self],
        ⟨.extended, _, groupJob, _, hnotes _ hsent, hmember, rfl, hntime⟩,
        fun _ => ⟨groupJob, hgroupJob, rfl⟩⟩

/-- Any other template keeps the future jobs. -/
theorem GivenTemplate.frame (h : GivenTemplate s t d ds ds' notes groupJob)
    (hf : t.futureTemplate = false) : Frame ds ds' := by
  obtain ⟨outputs, hgroup⟩ := h.group
  refine ⟨h.requiresStandardJobs, h.requiresCustomWork, ?_, ?_, ?_⟩
  · obtain ⟨j, -, -, hfuture, -⟩ := law.group.onNewTemplate_active hgroup hf
    exact hfuture
  · intro k c ch' hch'
    obtain ⟨ch, hch, hgiven⟩ := h.channel k c ch' hch'
    refine ⟨ch, hch, ?_⟩
    cases hgiven with
    | own hown htemplate hjob hsent =>
        obtain ⟨j, -, -, hfuture, -⟩ := law.channel.onNewTemplate_active htemplate hf
        exact hfuture
    | group hg hk hok =>
        have hbuilt := groupJob_of_onNewTemplate law hgroup h.hasJob
        exact (law.onGroupChannelJob_active hok (by simp [hbuilt.future, hf])).2.1
  · intro k c ch' _ hc
    rwa [(law.members_onNewTemplate hgroup).1]

end GivenTemplate

/-! ### Previous hashes -/

/-- A downstream that got a previous hash without an error. -/
structure GivenPrevHash (m : SetNewPrevHash) (ds ds' : Downstream env.channels) : Prop where
  requiresStandardJobs : ds'.requiresStandardJobs = ds.requiresStandardJobs
  requiresCustomWork : ds'.requiresCustomWork = ds.requiresCustomWork
  group : env.channels.group.onSetNewPrevHash ds.group m = .ok ds'.group
  channel : ∀ k c ch', (ds'.channels k).lookup c = some ch' →
    ∃ ch, (ds.channels k).lookup c = some ch ∧ env.channels.channel.onSetNewPrevHash ch m = .ok ch'

/-- What a previous hash does if no channel fails. -/
theorem prevHashDownstream_ok {m : SetNewPrevHash} {d : DownstreamId}
    {ds : Downstream env.channels} (hcustom : ds.requiresCustomWork = false)
    (herr : (prevHashDownstream m d ds).error = none) :
    GivenPrevHash m ds (prevHashDownstream m d ds).value ∧
      ∀ x ∈ (prevHashDownstream m d ds).notes, ∃ cid jobId addressees,
        x = .sent ⟨d, .setNewPrevHash cid jobId m.prevHash m.headerTimestamp m.nBits, addressees⟩ ∧
        ((ds.requiresStandardJobs = false ∧ ∃ job, jobId = job.jobId ∧
            env.channels.group.activeJob (prevHashDownstream m d ds).value.group = some job) ∨
          (ds.requiresStandardJobs = true ∧ ∃ c ch' job, addressees = [c] ∧ jobId = job.jobId ∧
            ((prevHashDownstream m d ds).value.channels .standard).lookup c = some ch' ∧
            env.channels.channel.activeJob ch' = some job)) := by
  rcases prevHashDownstream_cases d m ds with
    ⟨htrue, -⟩ | ⟨-, hfail, -⟩ | ⟨-, group, hgroup, announced, v, hv, ho, hannounced⟩
  · rw [hcustom] at htrue
    cases htrue
  · exact absurd herr hfail
  · rw [ho] at herr ⊢
    dsimp only at herr ⊢
    obtain ⟨channels, hframe⟩ := Downstream.visitBoth_frame .extended .standard
      (prevHashChannel m d ds.requiresStandardJobs) { ds with group := group }
    rw [← hv] at hframe
    have hne : ChannelKind.extended ≠ .standard := by decide
    rw [hv] at herr
    refine ⟨⟨by rw [hframe], by rw [hframe], by rw [hframe]; exact hgroup, ?_⟩, ?_⟩
    · intro k c ch' hch'
      have hk : k = .extended ∨ k = .standard := by cases k <;> simp
      have hbefore : ∃ ch, (ds.channels k).lookup c = some ch := by
        rcases Downstream.visitBoth_lookup hne (prevHashChannel m d ds.requiresStandardJobs)
          { ds with group := group } k c with hsame | ⟨ch, hch, -⟩
        · rw [← hv] at hsame
          exact ⟨ch', hsame.symm.trans hch'⟩
        · exact ⟨ch, hch⟩
      obtain ⟨ch, hch⟩ := hbefore
      obtain ⟨hval, hok, -⟩ := Downstream.visitBoth_ok hne herr hk hch
      rw [← hv] at hval
      obtain rfl := Option.some.inj (hval.symm.trans hch')
      rcases prevHashChannel_cases d k c ch m ds.requiresStandardJobs with ⟨-, -,
        hfail⟩ | ⟨hgiven, -⟩
      · exact absurd hok hfail
      · exact ⟨ch, hch, hgiven⟩
    · intro x hx
      rcases List.mem_append.mp hx with hx | hx
      · rcases hannounced with hnil | ⟨job, hstd, -, hjob, hannounced⟩
        · simp [hnil] at hx
        · rw [hannounced, List.mem_singleton] at hx
          subst hx
          exact ⟨_, _, _, rfl, .inl ⟨hstd, job, rfl, by rw [hframe]; exact hjob⟩⟩
      · rw [hv] at hx
        obtain ⟨k, c, ch, hch, hnote, hval⟩ := Downstream.mem_visitBoth_notes hne hx
        rcases prevHashChannel_cases d k c ch m ds.requiresStandardJobs with
          ⟨-, hn, -⟩ | ⟨-, hn | ⟨job, rfl, hstd, hjob, hn⟩⟩
        · simp [hn] at hnote
        · simp [hn] at hnote
        · rw [hn, List.mem_singleton] at hnote
          subst hnote
          exact ⟨_, _, _, rfl, .inr ⟨hstd, c, _, job, rfl, rfl, by rw [hv]; exact hval, hjob⟩⟩

theorem GivenPrevHash.grouped (law : env.channels.Lawful) {m : SetNewPrevHash}
    {ds ds' : Downstream env.channels} (h : GivenPrevHash m ds ds') (hg : Grouped ds) :
    Grouped ds' where
  members := by
    intro hstd k c ch' hch'
    obtain ⟨ch, hch, -⟩ := h.channel k c ch' hch'
    rw [(law.members_onSetNewPrevHash h.group).1]
    exact hg.members (h.requiresStandardJobs ▸ hstd) k c ch hch
  standard := by
    intro hstd c
    by_contra hne
    obtain ⟨ch', hch'⟩ := Option.ne_none_iff_exists'.mp hne
    obtain ⟨ch, hch, -⟩ := h.channel .extended c ch' hch'
    rw [hg.standard (h.requiresStandardJobs ▸ hstd) c] at hch
    cases hch

/-! ### One step -/

/-- Without an error, every downstream was visited. -/
theorem visited {s : ChannelManager env.channels}
    {f : DownstreamId → Downstream env.channels →
      Outcome (Downstream env.channels) Note PoolErrorKind}
    {d : DownstreamId} {ds' : Downstream env.channels}
    (herr : (visit f s.downstreams).error = none)
    (hds' : (visit f s.downstreams).value.lookup d = some ds') :
    ∃ ds, s.downstreams.lookup d = some ds ∧ ds' = (f d ds).value ∧ (f d ds).error = none ∧
      ∀ x ∈ (f d ds).notes, x ∈ (visit f s.downstreams).notes := by
  obtain ⟨ds, hds, -⟩ := visit_lookup_some hds'
  obtain ⟨hval, hok, hnotes⟩ := visit_ok herr hds
  exact ⟨ds, hds, Option.some.inj (hds'.symm.trans hval), hok, hnotes⟩

section Step

variable (law : env.channels.Lawful) {s : ChannelManager env.channels} {e : Event}

include law

/-- The downstream that opened a channel. -/
theorem grouped_opened {k : ChannelKind} {ds ds' : Downstream env.channels}
    {ch : env.channels.Channel} (hg : Grouped ds)
    (hflag : ds'.requiresStandardJobs = ds.requiresStandardJobs)
    (hchannels : ds'.channels =
      Function.update ds.channels k ((ds.channels k).insert ds.channelIdFactory ch))
    (hgroup : if ds.requiresStandardJobs then k = .standard ∧ ds'.group = ds.group
      else env.channels.addChannelId ds.group ds.channelIdFactory = .ok ds'.group) :
    Grouped ds' where
  members := by
    intro hstd k' c ch' hch'
    rw [hflag] at hstd
    rw [if_neg (by simp [hstd])] at hgroup
    refine ((law.addChannelId hgroup).1 c).mpr ?_
    rcases lookup_insertChannel hchannels k' c with ⟨-, hc, -⟩ | ⟨-, heq⟩
    · exact .inl hc
    · exact .inr (hg.members hstd k' c ch' (heq.symm.trans hch'))
  standard := by
    intro hstd c
    rw [hflag] at hstd
    rw [if_pos hstd] at hgroup
    rw [hchannels, hgroup.1, Function.update_of_ne (by decide)]
    exact hg.standard hstd c

omit law in
/-- A step that leaves the two cells alone keeps a downstream that keeps its future jobs. -/
theorem AlignedAt.frame {s' : ChannelManager env.channels} {d : DownstreamId}
    {ds ds' : Downstream env.channels} (h : AlignedAt s d ds) (hframe : Frame ds ds')
    (more : List Note) (hhistory : s'.history = s.history ++ more)
    (hlast : s'.lastFutureTemplate = s.lastFutureTemplate)
    (hprev : s'.lastNewPrevHash = s.lastNewPrevHash) : AlignedAt s' d ds' := by
  refine ⟨h.grouped.frame hframe, fun t m ht hm hne => ?_⟩
  rw [hhistory]
  exact (h.ready t m (hlast ▸ ht) (hprev ▸ hm) hne).frame hframe more

/-- A downstream that was given the future template which is the last one now. -/
theorem AlignedAt.future {s' s₁ : ChannelManager env.channels} {d : DownstreamId}
    {ds ds' : Downstream env.channels} {t : NewTemplate} {notes more : List Note} {groupJob : Job}
    (h : AlignedAt s d ds) (hgiven : GivenTemplate s₁ t d ds ds' notes groupJob)
    (hf : t.futureTemplate = true)
    (hcounters : s₁.gridpool ≠ none → ds.requiresStandardJobs = false → SameCounters ds)
    (hlast : s'.lastFutureTemplate = some t) (hhistory : s'.history = s.history ++ more)
    (hnotes : ∀ x ∈ notes, x ∈ more) : AlignedAt s' d ds' := by
  refine ⟨hgiven.grouped law h.grouped, fun t' m ht' _ _ => ?_⟩
  obtain rfl := Option.some.inj (hlast.symm.trans ht')
  refine hgiven.ready law h.grouped hf hcounters fun x hx => ?_
  rw [hhistory]
  exact List.mem_append_right _ (hnotes x hx)

/-- A downstream that was given a template, which is the last future one now if it is one. -/
theorem AlignedAt.template {s' s₁ : ChannelManager env.channels} {d : DownstreamId}
    {ds ds' : Downstream env.channels} {t : NewTemplate} {notes more : List Note} {groupJob : Job}
    (h : AlignedAt s d ds) (hgiven : GivenTemplate s₁ t d ds ds' notes groupJob)
    (hcounters : t.futureTemplate = true → s₁.gridpool ≠ none → ds.requiresStandardJobs = false →
      SameCounters ds)
    (hlast : s'.lastFutureTemplate =
      if t.futureTemplate then some t else s.lastFutureTemplate)
    (hprev : s'.lastNewPrevHash = s.lastNewPrevHash) (hhistory : s'.history = s.history ++ more)
    (hnotes : ∀ x ∈ notes, x ∈ more) : AlignedAt s' d ds' := by
  cases hf : t.futureTemplate with
  | false =>
      rw [hf, if_neg Bool.false_ne_true] at hlast
      exact h.frame (hgiven.frame law hf) more hhistory hlast hprev
  | true =>
      rw [hf, if_pos rfl] at hlast
      exact h.future law hgiven hf (hcounters hf) hlast hhistory hnotes

omit law in
/-- One downstream was replaced: `d` is another one, or the one that was replaced. -/
theorem alignedAt_insert {s' : ChannelManager env.channels} {d d₀ : DownstreamId}
    {ds₀ ds' : Downstream env.channels} (more : List Note)
    (hold : ∀ ds, s.downstreams.lookup d = some ds → ds.requiresCustomWork = false →
      AlignedAt s d ds)
    (hds' : s'.downstreams.lookup d = some ds') (hcustom' : ds'.requiresCustomWork = false)
    (heq : s'.downstreams = s.downstreams.insert d₀ ds₀) (hhistory : s'.history = s.history ++ more)
    (hlast : s'.lastFutureTemplate = s.lastFutureTemplate)
    (hprev : s'.lastNewPrevHash = s.lastNewPrevHash)
    (hreplaced : d = d₀ → ds' = ds₀ → AlignedAt s' d ds') : AlignedAt s' d ds' := by
  rw [heq] at hds'
  by_cases hd : d = d₀
  · subst hd
    rw [AList.lookup_insert] at hds'
    exact hreplaced rfl (Option.some.inj hds').symm
  · rw [AList.lookup_insert_ne hd] at hds'
    exact (hold ds' hds' hcustom').frame (.refl ds') more hhistory hlast hprev

/-- With the previous hash of the last future template no job is pending. -/
theorem AlignedAt.prevHash {s' : ChannelManager env.channels} {d : DownstreamId}
    {ds ds' : Downstream env.channels} {t : NewTemplate} {m : SetNewPrevHash}
    (h : AlignedAt s d ds) (hgiven : GivenPrevHash m ds ds')
    (hlast : s'.lastFutureTemplate = some t) (hprev : s'.lastNewPrevHash = some m)
    (hid : t.templateId = m.templateId) : AlignedAt s' d ds' := by
  refine ⟨hgiven.grouped law h.grouped, fun t' m' ht' hm' hne => ?_⟩
  obtain rfl := Option.some.inj (hlast.symm.trans ht')
  obtain rfl := Option.some.inj (hprev.symm.trans hm')
  exact absurd hid hne

/-- A channel is opened only when no job is pending. -/
theorem AlignedAt.opened {s' : ChannelManager env.channels} {d d₀ : DownstreamId}
    {ds₀ ds₁ ds' : Downstream env.channels} {k : ChannelKind} {now : UInt64}
    {r : ChannelManager env.channels × Option PoolError} {payout : Option ChannelPayout}
    {t : NewTemplate} {m : SetNewPrevHash} {outputs : List TxOut} {new ch : env.channels.Channel}
    {job : Job} (ho : Opening s d₀ k now r ds₀ ds₁ payout t m outputs new ch job)
    (hgroup : if ds₀.requiresStandardJobs then k = .standard ∧ ds₁.group = ds₀.group
      else env.channels.addChannelId ds₀.group ds₀.channelIdFactory = .ok ds₁.group)
    (hold : ∀ ds, s.downstreams.lookup d = some ds → ds.requiresCustomWork = false →
      AlignedAt s d ds)
    (hlast : s'.lastFutureTemplate = s.lastFutureTemplate)
    (hprev : s'.lastNewPrevHash = s.lastNewPrevHash)
    (hds' : (s.downstreams.insert d₀ ds₁).lookup d = some ds')
    (hcustom' : ds'.requiresCustomWork = false) : AlignedAt s' d ds' := by
  have hactivated : t.templateId = m.templateId := (firstJob_new law ho.isNew ho.first).1
  refine ⟨?_, fun t' m' ht' hm' hne => ?_⟩
  · by_cases hd : d = d₀
    · subst hd
      rw [AList.lookup_insert] at hds'
      obtain rfl := Option.some.inj hds'
      have hat := hold ds₀ ho.downstream ho.requiresCustomWork
      exact grouped_opened law hat.grouped ho.flags.1 ho.channels hgroup
    · rw [AList.lookup_insert_ne hd] at hds'
      exact (hold ds' hds' hcustom').grouped
  · obtain rfl := Option.some.inj (ho.template.symm.trans (hlast.symm.trans ht'))
    obtain rfl := Option.some.inj (ho.prevHash.symm.trans (hprev.symm.trans hm'))
    exact absurd hactivated hne

/-- What a step leaves of a downstream that takes its work from templates. -/
theorem Aligned.downstream_step (h : Aligned s) (hc : InOrder s e) (hrun : s.running = true)
    (hrun' : (s.step e).running = true) {d : DownstreamId} {ds' : Downstream env.channels}
    (hds' : (s.step e).downstreams.lookup d = some ds')
    (hcustom' : ds'.requiresCustomWork = false) :
    AlignedAt (s.step e) d ds' := by
  have hat := h.downstream hrun
  have hshape := step_shape s e hrun
  generalize s.step e = s' at hshape hds' hrun' ⊢
  have hkeep : ∀ ds more, s.downstreams.lookup d = some ds → Frame ds ds' →
      s'.history = s.history ++ more → s'.lastFutureTemplate = s.lastFutureTemplate →
      s'.lastNewPrevHash = s.lastNewPrevHash → AlignedAt s' d ds' :=
    fun ds more hds hframe hhistory hlast hprev =>
      (hat d ds hds (hframe.requiresCustomWork.symm.trans hcustom')).frame hframe more
        hhistory hlast hprev
  have hinsert : ∀ {d₀ ds₀} more, s'.downstreams = s.downstreams.insert d₀ ds₀ →
      s'.history = s.history ++ more → s'.lastFutureTemplate = s.lastFutureTemplate →
      s'.lastNewPrevHash = s.lastNewPrevHash → (d = d₀ → ds' = ds₀ → AlignedAt s' d ds') →
      AlignedAt s' d ds' :=
    fun more => alignedAt_insert more (hat d) hds' hcustom'
  cases hshape with
  | quiet hq =>
      obtain ⟨ds, hds, hk⟩ := hq.downstreams d ds' hds'
      obtain ⟨notes, hnotes, -⟩ := hq.notes
      exact hkeep ds notes hds (frame_of_kept hk) hnotes hq.template hq.prevHash
  | stopped hq hstop =>
      rw [hstop] at hrun'
      cases hrun'
  | connected ht hm hgroup =>
      refine hinsert [] rfl (by simp) rfl rfl fun _ hnew => ?_
      rw [hnew]
      exact ⟨⟨fun _ k c ch hch => (by cases hch), fun _ _ => rfl⟩,
        fun t m _ _ _ k c ch hch => by cases hch⟩
  | template hg ho =>
      rename_i t fetch clock gridpool o
      subst ho
      have herr : (visit ((s.withTemplate gridpool t).newTemplateDownstream t clock)
          s.downstreams).error = none := by
        simpa [hrun] using hrun'
      obtain ⟨ds, hds, rfl, hok, hnotes⟩ := visited herr hds'
      have hcustom : ds.requiresCustomWork = false := by
        rw [← hcustom']
        exact (sameFlags_newTemplateDownstream _ _ _ _ _).requiresCustomWork.symm
      obtain ⟨groupJob, hgiven⟩ := newTemplateDownstream_ok hcustom hok
      refine (hat d ds hds hcustom).template law hgiven (fun hf hsome hstd => ?_) rfl rfl rfl
        fun x hx => by simpa [keptNotes, herr] using hnotes x hx
      have hgridpool : s.gridpool ≠ none := by
        rw [← Option.isSome_iff_ne_none, ← hg.isSome]
        exact Option.isSome_iff_ne_none.mpr hsome
      exact hc hf hgridpool d ds hds hcustom hstd
  | prevHash ho =>
      rename_i m o
      subst ho
      have herr : (visit (prevHashDownstream m) s.downstreams).error = none := by
        simpa [hrun] using hrun'
      obtain ⟨ds, hds, rfl, hok, -⟩ := visited herr hds'
      have hcustom : ds.requiresCustomWork = false := by
        rw [← hcustom']
        exact (sameFlags_prevHashDownstream _ _ _).requiresCustomWork.symm
      obtain ⟨hgiven, -⟩ := prevHashDownstream_ok hcustom hok
      obtain ⟨⟨t, ht, hid⟩, -⟩ := hc
      exact (hat d ds hds hcustom).prevHash law hgiven ht rfl hid
  | opened ho =>
      obtain ⟨notes, running, hstate, hend⟩ := ho.settle_state
      rw [hstate] at hrun' hds' ⊢
      have hgroup := hend.resolve_left fun hstop => by
        rw [hstop.2] at hrun'
        cases hrun'
      exact .opened law ho hgroup.2.2 (hat d) rfl rfl hds' hcustom'
  | openedCustom ho =>
      obtain ⟨notes, hstate, -⟩ := ho.state
      rw [hstate] at hinsert ⊢
      refine hinsert _ rfl rfl rfl rfl fun _ hnew => ?_
      rw [hnew, ho.flags.2] at hcustom'
      cases hcustom'
  | closed hds₀ hds₁ =>
      refine hinsert [] rfl (by simp) rfl rfl fun hd hnew => ?_
      subst hd
      rw [hds₁] at hnew
      refine hkeep _ [] hds₀ ?_ (by simp) rfl rfl
      rw [hnew]
      exact frame_closed law _
  | custom hds₀ hch hjob hx =>
      refine hinsert _ rfl rfl rfl rfl fun hd hnew => ?_
      subst hd
      refine hkeep _ _ hds₀ ?_ rfl rfl rfl
      rw [hnew]
      exact frame_custom law hch hjob
  | feeTick hg hlast htick ho =>
      subst ho
      obtain ⟨ds, hds, rfl | rfl⟩ := visit_lookup_some hds'
      · exact hkeep _ _ hds (.refl _) rfl rfl rfl
      · exact hkeep _ _ hds (frame_feeTick law htick.futureTemplate _ _ _) rfl rfl rfl
  | polled => exact hkeep ds' [] hds' (.refl ds') (by simp) rfl rfl

theorem aligned_step (h : Aligned s) (hc : InOrder s e) : Aligned (s.step e) := by
  cases hrun : s.running with
  | false =>
      rw [step_of_stopped s e hrun]
      exact h
  | true =>
      refine ⟨fun hrun' t ht => ?_, fun hrun' d ds hds =>
        step_connected hrun hrun' (h.connected hrun) hds,
        fun hrun' d ds hds hcustom => h.downstream_step law hc hrun hrun' hds hcustom⟩
      rcases step_lastFutureTemplate s e hrun with ⟨t', -, -, -, hf, ht'⟩ | ⟨-, ht'⟩ | hstop
      · obtain rfl := Option.some.inj (ht'.symm.trans ht)
        exact hf
      · exact h.future hrun t (ht'.symm.trans ht)
      · rw [hstop] at hrun'
        cases hrun'

end Step

/-! ### The messages of a step -/

/-- The note of a previous hash that was sent. -/
def Note.isPrevHash : Note → Bool
  | .sent ⟨_, .setNewPrevHash _ _ _ _ _, _⟩ => true
  | _ => false

@[simp] theorem isPrevHash_job (d : DownstreamId) (k : ChannelKind) (c : ChannelId) (job : Job)
    (addressees : List ChannelId) : Note.isPrevHash (.sent ⟨d, .job k c job, addressees⟩) =
    false := by
  cases k <;> rfl

@[simp] theorem isPrevHash_builtNote (g : GridPoolClient) (d : DownstreamId) (k : ChannelKind)
    (c : ChannelId) (payout : ChannelPayout) (t : NewTemplate) (outputs : List TxOut) (now : UInt64)
    (ch : env.channels.Channel) :
    Note.isPrevHash (builtNote env g d k c payout t outputs now ch) = false := rfl

theorem isPrevHash_plain {x : Note} (h : x.Plain) : Note.isPrevHash x = false := by
  obtain ⟨⟨d, message, addressees⟩, rfl, hm⟩ := h
  cases message <;> first | rfl | cases hm

theorem isPrevHash_builds {g : GridPoolClient} {d : DownstreamId} {k : ChannelKind} {c : ChannelId}
    {payout : ChannelPayout} {t : NewTemplate} {now : UInt64} {ch : env.channels.Channel}
    {o : Outcome env.channels.Channel Note PoolErrorKind} {outputs : List TxOut}
    (h : BuildsGridPool env g d k c payout t now ch o outputs) :
    ∀ x ∈ o.notes, Note.isPrevHash x = false := by
  rcases h.notes with ⟨hn, -⟩ | ⟨job, -, -, hn⟩ <;> simp [hn]

/-- A template is announced by job messages only. -/
theorem isPrevHash_newTemplate {s : ChannelManager env.channels} {t : NewTemplate}
    {clock : DownstreamId → ChannelId → UInt64}
    {m : AList fun _ : DownstreamId => Downstream env.channels} {x : Note}
    (h : x ∈ (visit (s.newTemplateDownstream t clock) m).notes) : Note.isPrevHash x = false := by
  obtain ⟨d, ds, -, hnote, -⟩ := mem_visit_notes h
  rcases newTemplateDownstream_cases d t s clock ds with
    ⟨-, ho⟩ | ⟨-, -, hn, -⟩ | ⟨-, group, groupJob, -, -, announced, v, hv, ho, hannounced⟩
  · simp [ho] at hnote
  · simp [hn] at hnote
  · rw [ho] at hnote
    rcases List.mem_append.mp hnote with hx | hx
    · rw [hannounced] at hx
      split at hx
      · rw [List.mem_singleton.mp hx]
        rfl
      · cases hx
    · rw [hv] at hx
      obtain ⟨k, c, ch, -, hnote, -⟩ := Downstream.mem_visitBoth_notes (by decide) hx
      rcases newTemplateChannel_cases d k c ch t s clock ds.requiresStandardJobs
        (s.downstreamOutputs ds t) groupJob with
        ⟨-, hn, -⟩ | ⟨g, payout, outputs, -, -, hb⟩ | ⟨-, -, -, -, ⟨hn, -⟩ | ⟨job, -, -, hn⟩⟩ |
        ⟨-, -, hn, -, -⟩
      · simp [hn] at hnote
      · exact isPrevHash_builds hb x hnote
      · simp [hn] at hnote
      · rw [hn, List.mem_singleton] at hnote
        rw [hnote]
        exact isPrevHash_job d k c job [c]
      · simp [hn] at hnote

theorem isPrevHash_feeTick {s : ChannelManager env.channels} {g : GridPoolClient} {t : NewTemplate}
    {clock : DownstreamId → ChannelId → UInt64}
    {m : AList fun _ : DownstreamId => Downstream env.channels} {x : Note}
    (h : x ∈ (visit (fun d ds => Downstream.visitBoth .standard .extended
      (s.refreshChannel g t clock d) ds) m).notes) : Note.isPrevHash x = false := by
  obtain ⟨d, ds, -, hnote, -⟩ := mem_visit_notes h
  obtain ⟨k, c, ch, -, hnote, -⟩ := Downstream.mem_visitBoth_notes (by decide) hnote
  rcases refreshChannel_cases d k c ch t s clock g with ⟨-, hn⟩ | ⟨payout, outputs, -, hb, -⟩
  · simp [hn] at hnote
  · exact isPrevHash_builds hb x hnote

/-- The message names a job that was announced before to every open channel it addresses, and that
is now active there. -/
def Names (before : List Note) (s' : ChannelManager env.channels) (d : DownstreamId) (jobId : JobId)
    (addressees : List ChannelId) : Prop :=
  ∀ ds, s'.downstreams.lookup d = some ds → ds.requiresCustomWork = false →
    ∀ c ∈ addressees, ∀ k ch, (ds.channels k).lookup c = some ch →
      Announced before d c jobId ∧ ∃ j, env.channels.channel.activeJob ch = some j ∧ j.jobId = jobId

/-- Every previous hash among the notes names such a job. -/
def AllNamed (s s' : ChannelManager env.channels) (notes : List Note) : Prop :=
  ∀ pre post d cid jobId prevHash ntime nbits addressees,
    notes = pre ++ .sent ⟨d, .setNewPrevHash cid jobId prevHash ntime nbits, addressees⟩ :: post →
    Names (s.history ++ pre) s' d jobId addressees

theorem allNamed_of_none {s s' : ChannelManager env.channels} {notes : List Note}
    (h : ∀ x ∈ notes, Note.isPrevHash x = false) : AllNamed s s' notes := by
  intro pre post d cid jobId prevHash ntime nbits addressees heq
  have hnone := h _ (heq ▸ List.mem_append_right _ List.mem_cons_self)
  cases hnone

/-- The only previous hash in a list is at its end. -/
theorem eq_of_split_last {notes pre post : List Note} {a x : Note}
    (hnone : ∀ y ∈ notes, Note.isPrevHash y = false) (hx : Note.isPrevHash x = true)
    (h : notes ++ [a] = pre ++ x :: post) : pre = notes ∧ x = a := by
  rcases List.eq_nil_or_concat post with rfl | ⟨post', y, rfl⟩
  · obtain ⟨hpre, hlast⟩ := List.append_inj' h rfl
    exact ⟨hpre.symm, (List.singleton_inj.mp hlast).symm⟩
  · rw [List.concat_eq_append, ← List.cons_append, ← List.append_assoc] at h
    obtain ⟨hpre, -⟩ := List.append_inj' h rfl
    have hfalse := hnone x (hpre ▸ List.mem_append_right _ List.mem_cons_self)
    rw [hx] at hfalse
    cases hfalse

/-- The previous hash is the last message that opens a channel, after the job. -/
theorem openingNotes_eq (s : ChannelManager env.channels) (d : DownstreamId) (k : ChannelKind)
    (requestId : Nat) (c groupChannelId : ChannelId) (payout : Option ChannelPayout)
    (t : NewTemplate) (m : SetNewPrevHash) (outputs : List TxOut) (now : UInt64)
    (new : env.channels.Channel) (job : Job) :
    ∃ ghost : List Note, (∀ x ∈ ghost, Note.isPrevHash x = false) ∧
      s.openingNotes d k requestId c groupChannelId payout t m outputs now new job =
        (ghost ++ [.sent ⟨d, .openMiningChannelSuccess k requestId c groupChannelId, [c]⟩,
            .sent ⟨d, .job k c job, [c]⟩]) ++
          [.sent ⟨d, .setNewPrevHash c job.jobId m.prevHash m.headerTimestamp m.nBits, [c]⟩] := by
  unfold openingNotes
  cases s.gridpool with
  | none => exact ⟨[], by simp, rfl⟩
  | some g =>
      cases payout with
      | none => exact ⟨[], by simp, rfl⟩
      | some payout =>
          exact ⟨[builtNote env g d k c payout t outputs now new], by simp, by simp⟩

/-- The messages that open a channel. -/
theorem allNamed_opened (law : env.channels.Lawful) {s s' : ChannelManager env.channels}
    (hnumbered : Numbered s) {d : DownstreamId} {k : ChannelKind} {now : UInt64}
    {r : ChannelManager env.channels × Option PoolError} {ds ds' : Downstream env.channels}
    {payout : Option ChannelPayout} {t : NewTemplate} {m : SetNewPrevHash} {outputs : List TxOut}
    {new ch : env.channels.Channel} {job : Job} {requestId : Nat} {groupId : ChannelId}
    (h : Opening s d k now r ds ds' payout t m outputs new ch job)
    (hds' : s'.downstreams = s.downstreams.insert d ds') :
    AllNamed s s' (s.openingNotes d k requestId ds.channelIdFactory groupId payout t m outputs
      now new job) := by
  obtain ⟨-, hbuilt, hf, hactive, -, -⟩ := firstJob_new law h.isNew h.first
  intro pre post d₀ cid jobId prevHash ntime nbits addressees heq
  obtain ⟨ghost, hghost, hnotes⟩ := openingNotes_eq s d k requestId ds.channelIdFactory groupId
    payout t m outputs now new job
  rw [hnotes] at heq
  obtain ⟨rfl, hx⟩ := eq_of_split_last (by
    intro x hx
    rcases List.mem_append.mp hx with hx | hx
    · exact hghost x hx
    · rcases List.mem_cons.mp hx with rfl | hx
      · rfl
      · rw [List.mem_singleton.mp hx]
        exact isPrevHash_job _ _ _ _ _) rfl heq
  cases hx
  intro ds₁ hds₁ _ c hc k' ch' hch'
  obtain rfl := List.mem_singleton.mp hc
  rw [hds', AList.lookup_insert] at hds₁
  obtain rfl := Option.some.inj hds₁
  -- the new id was not in use
  have hch : ch' = ch := by
    rcases lookup_insertChannel h.channels k' ds.channelIdFactory with ⟨-, -, hnew⟩ | ⟨-, hold⟩
    · exact Option.some.inj (hch'.symm.trans hnew)
    · have hlt := hnumbered.channel d ds k' _ ch' h.downstream (hold.symm.trans hch')
      exact absurd hlt (Nat.lt_irrefl _)
  subst hch
  refine ⟨⟨k, ds.channelIdFactory, job, [ds.channelIdFactory], ?_, hc, rfl,
    hbuilt.future.mpr hf⟩, _, hactive, rfl⟩
  simp

/-- The messages of a previous hash. -/
theorem allNamed_prevHash (law : env.channels.Lawful) {s s' : ChannelManager env.channels}
    (h : Aligned s) (hrun : s.running = true) {m : SetNewPrevHash}
    (hc : InOrder s (.setNewPrevHash m))
    (herr : (visit (prevHashDownstream m) s.downstreams).error = none)
    (hds' : s'.downstreams = (visit (prevHashDownstream m) s.downstreams).value) :
    AllNamed s s' (visit (prevHashDownstream m) s.downstreams).notes := by
  obtain ⟨⟨t, ht, hid⟩, hpending⟩ := hc
  intro pre post d cid jobId prevHash ntime nbits addressees heq ds' hlookup' hcustom' c hmem k
    ch' hch'
  have hnote : Note.sent ⟨d, .setNewPrevHash cid jobId prevHash ntime nbits, addressees⟩ ∈
      (visit (prevHashDownstream m) s.downstreams).notes :=
    heq ▸ List.mem_append_right _ List.mem_cons_self
  obtain ⟨d₀, ds, hds, hnote, -⟩ := mem_visit_notes hnote
  obtain ⟨hvalue, hok, -⟩ := visit_ok herr hds
  have hcustom : ds.requiresCustomWork = false := by
    by_contra htrue
    rw [prevHashDownstream, if_pos (by simpa using htrue)] at hnote
    cases hnote
  obtain ⟨hgiven, hmessages⟩ := prevHashDownstream_ok hcustom hok
  obtain ⟨_, _, _, hmessage, hwhich⟩ := hmessages _ hnote
  cases hmessage
  rw [hds', hvalue] at hlookup'
  obtain rfl := Option.some.inj hlookup'
  -- the downstream is ready for the template that is activated now
  have hat := h.downstream hrun d ds hds hcustom
  obtain ⟨t₀, m₀, ht₀, hm₀⟩ := h.connected hrun d ds hds
  have hready : Ready s.history m.templateId d ds := by
    rw [← hid]
    exact hat.ready t m₀ ht hm₀ fun heq => hpending m₀ hm₀ (heq.symm.trans hid)
  obtain ⟨ch, hch, hgivenCh⟩ := hgiven.channel k c ch' hch'
  obtain ⟨j, hj, hannounced, hgroup⟩ := hready k c ch hch
  have hactive := law.channel.onSetNewPrevHash_activates hgivenCh hj
  suffices hjob : jobId = j.jobId by
    subst hjob
    exact ⟨hannounced.mono pre, _, hactive, rfl⟩
  rcases hwhich with ⟨hstd, job, rfl, hjob⟩ | ⟨hstd, c₁, ch₁, job, rfl, rfl, hch₁, hjob⟩
  · obtain ⟨jg, hjg, hsame⟩ := hgroup hstd
    have hactiveGroup := law.group.onSetNewPrevHash_activates hgiven.group hjg
    obtain rfl := Option.some.inj (hactiveGroup.symm.trans hjob)
    rw [Job.activate_jobId, hsame]
  · obtain rfl := List.mem_singleton.mp hmem
    have hgrouped := hgiven.grouped law hat.grouped
    cases k with
    | extended =>
        rw [hgrouped.standard (hgiven.requiresStandardJobs.trans hstd)] at hch'
        cases hch'
    | standard =>
        obtain rfl := Option.some.inj (hch₁.symm.trans hch')
        obtain rfl := Option.some.inj (hactive.symm.trans hjob)
        rfl

/-! ### The result -/

/-- The previous hashes of a step name announced jobs. -/
theorem allNamed_step (law : env.channels.Lawful) {s : ChannelManager env.channels} {e : Event}
    (h : Aligned s) (hnumbered : Numbered s) (hc : InOrder s e) :
    ∃ notes, (s.step e).history = s.history ++ notes ∧ AllNamed s (s.step e) notes := by
  cases hrun : s.running with
  | false => exact ⟨[], by rw [step_of_stopped s e hrun, List.append_nil],
      allNamed_of_none (by simp)⟩
  | true =>
      have hshape := step_shape s e hrun
      generalize s.step e = s' at hshape ⊢
      cases hshape with
      | quiet hq | stopped hq =>
          obtain ⟨notes, hnotes, hplain⟩ := hq.notes
          exact ⟨notes, hnotes, allNamed_of_none fun x hx => isPrevHash_plain (hplain x hx)⟩
      | template hg ho =>
          subst ho
          exact ⟨_, rfl, allNamed_of_none fun x hx => isPrevHash_newTemplate (mem_keptNotes hx)⟩
      | prevHash ho =>
          rename_i m o
          subst ho
          refine ⟨_, rfl, ?_⟩
          unfold keptNotes
          split
          · rename_i hnone
            exact allNamed_prevHash law h hrun hc (Option.isNone_iff_eq_none.mp hnone) rfl
          · refine allNamed_of_none fun x hx => ?_
            have hbuilt := (List.mem_filter.mp hx).2
            cases x with
            | built b => rfl
            | sent m => cases hbuilt
      | opened ho =>
          obtain ⟨notes, running, hstate, hend⟩ := ho.settle_state
          rw [hstate]
          refine ⟨notes, rfl, ?_⟩
          rcases hend with ⟨rfl, -⟩ | ⟨-, ⟨requestId, groupId, rfl⟩, -⟩
          · exact allNamed_of_none (by simp)
          · exact allNamed_opened law hnumbered ho rfl
      | openedCustom ho =>
          obtain ⟨notes, hstate, hplain⟩ := ho.state
          rw [hstate]
          exact ⟨notes, rfl, allNamed_of_none fun x hx => isPrevHash_plain (hplain x hx)⟩
      | custom hds hch hjob hx =>
          refine ⟨_, rfl, allNamed_of_none fun x hmem => ?_⟩
          rw [List.mem_singleton.mp hmem]
          exact isPrevHash_plain hx
      | feeTick hg hlast htick ho =>
          subst ho
          exact ⟨_, rfl, allNamed_of_none fun x hx => isPrevHash_feeTick (mem_keptNotes hx)⟩
      | connected | closed | polled => exact ⟨[], by simp, allNamed_of_none (by simp)⟩

/-- In every run that meets the condition, every previous hash that is sent to a downstream without
custom work names a job that was sent before, as a future job, to every open channel it addresses,
and that is the active job of the channel afterwards. -/
theorem prev_hash_names_announced_job (law : env.channels.Lawful) {config : Config} {now : UInt64}
    {s₀ : ChannelManager env.channels} (hstart : start env config now = .ok s₀) {es : List Event}
    (hc : Along ChannelManager.step InOrder s₀ es) {e : Event}
    (he : InOrder (exec ChannelManager.step s₀ es) e) :
    let s := exec ChannelManager.step s₀ es
    ∃ notes, (s.step e).history = s.history ++ notes ∧ AllNamed s (s.step e) notes := by
  intro s
  obtain ⟨outputs, rfl⟩ := start_eq_ok hstart
  have h : Aligned s :=
    exec_induct (I := Aligned) (fun _ _ h hc => aligned_step law h hc)
      (aligned_initial config outputs) hc
  have hnumbered : Numbered s :=
    exec_invariant (I := Numbered) (fun _ e h => numbered_step law h e)
      (numbered_initial config outputs) es
  exact allNamed_step law h hnumbered he

/-! ### A group and its channel with different job counters -/

/-- The condition on a template, checked on the entries of a state. -/
theorem inOrder_of_entries {s : ChannelManager env.channels} {t : NewTemplate}
    {fetch : Nat → Except String WorkSelection} {clock : DownstreamId → ChannelId → UInt64}
    (hcounters : ∀ x ∈ s.downstreams.entries, ∀ k ∈ [ChannelKind.standard, .extended],
      ∀ y ∈ (x.2.channels k).entries,
        env.channels.channel.nextJobId y.2 = env.channels.group.nextJobId x.2.group) :
    InOrder s (.newTemplate t fetch clock) := by
  intro _ _ d ds hds _ _ k c ch hch
  exact hcounters ⟨d, ds⟩ (AList.mem_lookup_iff.mp hds) k (by cases k <;> simp) ⟨c, ch⟩
    (AList.mem_lookup_iff.mp hch)

/-- The condition on a previous hash, with the one before. -/
theorem inOrder_of_last {s : ChannelManager env.channels} {t : NewTemplate} {m m₀ : SetNewPrevHash}
    (ht : s.lastFutureTemplate = some t) (hid : t.templateId = m.templateId)
    (hm : s.lastNewPrevHash = some m₀) (hne : m₀.templateId ≠ m.templateId) :
    InOrder s (.setNewPrevHash m) := by
  refine ⟨⟨t, ht, hid⟩, fun m' hm' => ?_⟩
  obtain rfl := Option.some.inj (hm.symm.trans hm')
  exact hne

/-- The first template, a connection, other templates, the first channel, and a future template with
the number `u`. -/
def openThenFuture (templates : List Event) (u : TemplateId) : List Event :=
  [.newTemplate (Reference.template 1 true 5000000000) (fun _ => .error "unreachable")
      (fun _ _ => 0),
    .setNewPrevHash (Reference.prevHash 1 1), .connect false false] ++ templates ++
  [.openChannel .extended 1 Reference.openRequest (.ok [1, 2, 3, 4]) 0,
    .newTemplate (Reference.template u true 5000000000)
      (fun _ => .ok (Reference.selection "next" [Reference.suffixOutput 300])) (fun _ _ => 0)]

/-- The number of the active job of the channel opened in the run. -/
def activeJobId (s : ChannelManager Reference.env.channels) : Option JobId :=
  (s.channel? 1 .extended 2).bind fun ch => (Reference.storeOps.activeJob ch).map (·.jobId)

/-- The note of a previous hash sent to the group of the first downstream, with its one channel. -/
def groupPrevHash (m : SetNewPrevHash) (jobId : JobId) : Note :=
  .sent ⟨1, .setNewPrevHash 1 jobId m.prevHash m.headerTimestamp m.nBits, [2]⟩

theorem prev_hash_with_equal_counters :
    let s := exec ChannelManager.step Reference.manager (openThenFuture [] 2)
    let s' := s.step (.setNewPrevHash (Reference.prevHash 2 2))
    s'.history = s.history ++ [groupPrevHash (Reference.prevHash 2 2) 2] ∧ activeJobId s' = some 2 ∧
      ∃ notes, s'.history = s.history ++ notes ∧ AllNamed s s' notes := by
  refine ⟨by decide +kernel, by decide +kernel, ?_⟩
  refine prev_hash_names_announced_job Reference.channels_lawful Reference.start_manager ?_ ?_
  · exact ⟨inOrder_of_entries (by decide +kernel), ⟨⟨_, rfl, rfl⟩, fun _ h => by cases h⟩, trivial,
      trivial, inOrder_of_entries (by decide +kernel), trivial⟩
  · exact inOrder_of_last (t := Reference.template 2 true 5000000000) (by decide +kernel) rfl
      (by decide +kernel : _ = some (Reference.prevHash 1 1)) (by decide)

/-- A previous hash for the group does not name a job its channel activated under another number. -/
theorem not_allNamed {s s' : ChannelManager Reference.env.channels} {m : SetNewPrevHash}
    {named active : JobId} (h : s'.history = s.history ++ [groupPrevHash m named])
    (hactive : activeJobId s' = some active) (hne : active ≠ named)
    (hplain : ∀ x ∈ s'.downstreams.entries, x.2.requiresCustomWork = false) :
    ¬ ∃ notes, s'.history = s.history ++ notes ∧ AllNamed s s' notes := by
  rintro ⟨notes, hnotes, hall⟩
  obtain rfl := List.append_cancel_left (h.symm.trans hnotes)
  obtain ⟨ch, hch, hwork⟩ := Option.bind_eq_some_iff.mp hactive
  obtain ⟨j, hj, rfl⟩ := Option.map_eq_some_iff.mp hwork
  obtain ⟨ds, hds, hlookup⟩ := channel?_eq_some.mp hch
  have hcustom := hplain ⟨1, ds⟩ (AList.mem_lookup_iff.mp hds)
  obtain ⟨-, j', hj', hid⟩ := hall [] [] 1 1 named _ _ _ [2] rfl ds hds hcustom 2 (by simp)
    .extended ch hlookup
  obtain rfl := Option.some.inj (hj.symm.trans hj')
  exact hne hid

theorem prev_hash_with_other_counters :
    let s := exec ChannelManager.step Reference.manager (openThenFuture
      [.newTemplate (Reference.template 2 false 5000000000) (fun _ => .error "unreachable")
        (fun _ _ => 0)] 3)
    let s' := s.step (.setNewPrevHash (Reference.prevHash 3 3))
    start Reference.env Reference.gridpoolConfig 0 = .ok Reference.manager ∧
      s.lastFutureTemplate = some (Reference.template 3 true 5000000000) ∧
      s.lastNewPrevHash = some (Reference.prevHash 1 1) ∧
      s'.history = s.history ++ [groupPrevHash (Reference.prevHash 3 3) 3] ∧
        activeJobId s' = some 2 ∧
      ¬ ∃ notes, s'.history = s.history ++ notes ∧ AllNamed s s' notes := by
  intro s s'
  have hhistory : s'.history = s.history ++ [groupPrevHash (Reference.prevHash 3 3) 3] := by
    decide +kernel
  have hactive : activeJobId s' = some 2 := by decide +kernel
  exact ⟨Reference.start_manager, by decide +kernel, by decide +kernel, hhistory, hactive,
    not_allNamed hhistory hactive (by decide) (by decide +kernel)⟩

end GridPoolSv2.Pool
