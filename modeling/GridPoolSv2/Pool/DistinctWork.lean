import GridPoolSv2.Pool.CustomWork
import GridPoolSv2.Pool.RpcTemplateProvider

/-!
# Pool.DistinctWork: no two jobs of a channel are the same work

Two commitments of eight bytes keep the headers of different jobs apart. `from_gbt` appends the
template id to the coinbase prefix of every template, and `commit_gridpool_job_refresh` appends the
second of a fee tick to the prefix of the last future template.

* `Receives` is a job message to its own channel, and `NewJob` says where the jobs of one event come
  from.
* `coinbasePrefix_inj` and its companions: published templates differ in their prefix, and a
  committed prefix determines both its template and its second.
* `NoReturn` is the condition on runs. A tick must not take a channel back to outputs that an
  earlier tick of the same second gave it on the same template: the second alone does not tell two
  such jobs apart.
* `work_distinct` is the result over runs of the pool with its provider.

Proof shape: `step_receives` says where a job that is sent comes from, and `Apart` keeps apart
what was sent. A new job is compared with the older ones by their commitments: another template
has another id in its prefix, a tick has a second behind it, and two ticks of one second are
excluded by the condition unless their outputs differ.
-/

namespace GridPoolSv2.Pool

open Consensus (Bytes TxOut)
open Runs Visit ChannelManager

variable {env : Env}

/-! ### Commitments in a coinbase prefix -/

/-- The script ends in a push of eight bytes. -/
def EndsInPush (script : Bytes) : Prop :=
  ∃ (front : Bytes) (n : Nat), script = front ++ [8] ++ Consensus.leBytes 8 n

/-- A commitment can be read off a prefix that ends in it. -/
theorem push_inj {front front' : Bytes} {n n' : Nat}
    (h : front ++ [8] ++ Consensus.leBytes 8 n = front' ++ [8] ++ Consensus.leBytes 8 n') :
    front = front' ∧ Consensus.leBytes 8 n = Consensus.leBytes 8 n' := by
  obtain ⟨hfront, hn⟩ := List.append_inj' h (by simp)
  exact ⟨(List.append_inj' hfront rfl).1, hn⟩

theorem leBytes_inj {n n' : Nat} (hn : n < 2 ^ 64) (hn' : n' < 2 ^ 64)
    (h : Consensus.leBytes 8 n = Consensus.leBytes 8 n') : n = n' := by
  have hread := congrArg Consensus.leNat h
  rwa [Consensus.leNat_leBytes (by simpa using hn), Consensus.leNat_leBytes (by simpa using hn')]
    at hread

/-- The prefix of the template commits to its id, after a script that does not itself end in a
commitment. -/
structure Stamped (t : NewTemplate) : Prop where
  templateId : t.templateId < 2 ^ 64
  coinbasePrefix : ∃ script, ¬ EndsInPush script ∧
    t.coinbasePrefix = script ++ [8] ++ Consensus.leBytes 8 t.templateId

/-- Templates with the same prefix have the same id. -/
theorem Stamped.coinbasePrefix_inj {t t' : NewTemplate} (h : Stamped t) (h' : Stamped t')
    (heq : t.coinbasePrefix = t'.coinbasePrefix) : t.templateId = t'.templateId := by
  obtain ⟨script, -, hpre⟩ := h.coinbasePrefix
  obtain ⟨script', -, hpre'⟩ := h'.coinbasePrefix
  rw [hpre, hpre'] at heq
  exact leBytes_inj h.templateId h'.templateId (push_inj heq).2

theorem ChannelManager.IsTick.coinbasePrefix {last t : NewTemplate} {now : UInt64}
    (h : IsTick last now t) :
    t.coinbasePrefix = last.coinbasePrefix ++ [8] ++ Consensus.leBytes 8 now.toNat := by
  have hcommitted := h.committed
  unfold commitGridpoolJobRefresh at hcommitted
  dsimp only at hcommitted
  split at hcommitted
  · cases hcommitted
  · cases hcommitted
    rfl

/-- The prefix of a tick is not the one of a template. -/
theorem ChannelManager.IsTick.coinbasePrefix_ne {last t u : NewTemplate} {now : UInt64}
    (h : IsTick last now t) (hlast : Stamped last) (hu : Stamped u) :
    t.coinbasePrefix ≠ u.coinbasePrefix := by
  intro heq
  obtain ⟨script, -, hpre⟩ := hlast.coinbasePrefix
  obtain ⟨script', hplain, hpre'⟩ := hu.coinbasePrefix
  rw [h.coinbasePrefix, hpre'] at heq
  exact hplain ⟨script, last.templateId, (push_inj heq).1.symm.trans hpre⟩

/-- The prefix of a tick tells its template and its second. -/
theorem ChannelManager.IsTick.coinbasePrefix_inj {last last' t t' : NewTemplate} {now now' : UInt64}
    (h : IsTick last now t) (h' : IsTick last' now' t') (hlast : Stamped last)
    (hlast' : Stamped last') (heq : t.coinbasePrefix = t'.coinbasePrefix) :
    last.templateId = last'.templateId ∧ now = now' := by
  rw [h.coinbasePrefix, h'.coinbasePrefix] at heq
  obtain ⟨hfront, hnow⟩ := push_inj heq
  exact ⟨hlast.coinbasePrefix_inj hlast' hfront,
    UInt64.toNat_inj.mp (leBytes_inj now.toNat_lt now'.toNat_lt hnow)⟩

/-- The tick of one second makes one template of the last future one. -/
theorem ChannelManager.IsTick.unique {last t t' : NewTemplate} {now : UInt64}
    (h : IsTick last now t) (h' : IsTick last now t') : t = t' :=
  Except.ok.inj (h.committed.symm.trans h'.committed)

/-! ### The jobs a channel receives -/

/-- The channel received the job, in a message of its own. -/
def ChannelManager.Receives (s : ChannelManager env.channels) (d : DownstreamId) (k : ChannelKind)
    (c : ChannelId) (j : Job) : Prop :=
  .sent ⟨d, .job k c j, [c]⟩ ∈ s.history

instance (s : ChannelManager env.channels) (d : DownstreamId) (k : ChannelKind) (c : ChannelId)
    (j : Job) : Decidable (s.Receives d k c j) :=
  inferInstanceAs (Decidable (_ ∈ s.history))

/-- The jobs have the same script signature prefix and the same outputs. -/
def SameWork (j j' : Job) : Prop :=
  ∃ t t', j.template? = some t ∧ j'.template? = some t' ∧
    t.coinbasePrefix = t'.coinbasePrefix ∧ j.coinbaseOutputs = j'.coinbaseOutputs

theorem SameWork.symm {j j' : Job} (h : SameWork j j') : SameWork j' j := by
  obtain ⟨t, t', ht, ht', hpre, houtputs⟩ := h
  exact ⟨t', t, ht', ht, hpre.symm, houtputs.symm⟩

/-- Where a job comes from that event `e` sends to a channel. -/
inductive NewJob (s : ChannelManager env.channels) (d : DownstreamId) (k : ChannelKind)
    (c : ChannelId) (j : Job) : Event → Prop where
  | template {t fetch clock ch} (hch : s.channel? d k c = some ch) (ht : j.template? = some t) :
      NewJob s d k c j (.newTemplate t fetch clock)
  | feeTick {now clock last t ch g payout outputs} (hch : s.channel? d k c = some ch)
      (hlast : s.lastFutureTemplate = some last) (htick : IsTick last now t)
      (hg : s.gridpool = some g) (hpayout : s.gridpoolChannels (d, c) = some payout)
      (houtputs : g.coinbaseOutputs env.readAddress payout t.coinbaseTxValueRemaining (clock d c) =
        .ok outputs)
      (hrotates : ¬ (env.channels.channel.activeJob ch).any fun j =>
        outputs.isPrefixOf j.coinbaseOutputs)
      (ht : j.template? = some t) (hrest : ∃ rest, j.coinbaseOutputs = outputs ++ rest) :
      NewJob s d k c j (.feeTick now clock)
  | opened {t ds msg allocated now} (hds : s.downstreams.lookup d = some ds)
      (hc : c = ds.channelIdFactory) (hlast : s.lastFutureTemplate = some t)
      (ht : j.template? = some t)
      (hused : ∀ ds',
        (s.step (.openChannel k d msg allocated now)).downstreams.lookup d = some ds' →
          c < ds'.channelIdFactory) : NewJob s d k c j (.openChannel k d msg allocated now)

section NewJob

variable {s : ChannelManager env.channels}

/-- The job a channel has for a template it was just given. -/
theorem jobOf_onNewTemplate (law : env.channels.Lawful) {ch ch' : env.channels.Channel}
    {t : NewTemplate} {outputs : List TxOut} {job : Job}
    (h : env.channels.channel.onNewTemplate ch t outputs = .ok ch')
    (hjob : jobOf env.channels.channel ch' t = some job) :
    BuiltFrom job (env.channels.channel.nextJobId ch) t outputs := by
  unfold jobOf at hjob
  cases hf : t.futureTemplate with
  | true =>
      obtain ⟨j, hb, hfuture, -⟩ := law.channel.onNewTemplate_future h hf
      rw [hf, if_pos rfl, hfuture, Function.update_self] at hjob
      exact Option.some.inj hjob ▸ hb
  | false =>
      obtain ⟨j, hb, hactive, -⟩ := law.channel.onNewTemplate_active h hf
      rw [hf, if_neg Bool.false_ne_true, hactive] at hjob
      exact Option.some.inj hjob ▸ hb

/-- The message of a job that is built from GridPool outputs. -/
theorem sent_of_buildsGridPool (law : env.channels.Lawful) {g : GridPoolClient} {d : DownstreamId}
    {k : ChannelKind} {c : ChannelId} {payout : ChannelPayout} {t : NewTemplate} {now : UInt64}
    {ch : env.channels.Channel} {o : Outcome env.channels.Channel Note PoolErrorKind}
    {outputs : List TxOut} (h : BuildsGridPool env g d k c payout t now ch o outputs) {m : Sent}
    (hm : .sent m ∈ o.notes) :
    ∃ job, m = ⟨d, .job k c job, [c]⟩ ∧
      BuiltFrom job (env.channels.channel.nextJobId ch) t outputs := by
  rcases h.notes with ⟨hn, -⟩ | ⟨job, hjob, -, hn⟩
  · simp [hn, builtNote] at hm
  · simp only [hn, builtNote, List.mem_cons, reduceCtorEq, Note.sent.injEq, List.not_mem_nil,
      or_false, false_or] at hm
    exact ⟨job, hm, jobOf_onNewTemplate law h.template hjob⟩

/-- In GridPool mode a template is announced by one message to each channel. -/
theorem newTemplate_received (law : env.channels.Lawful) (hg : s.gridpool ≠ none) {t : NewTemplate}
    {clock : DownstreamId → ChannelId → UInt64}
    {ds : AList fun _ : DownstreamId => Downstream env.channels} {m : Sent}
    (h : .sent m ∈ (visit (s.newTemplateDownstream t clock) ds).notes) :
    ∃ k c job d ch, m = ⟨m.downstream, .job k c job, [c]⟩ ∧ ds.lookup m.downstream = some d ∧
      (d.channels k).lookup c = some ch ∧ job.jobId = env.channels.channel.nextJobId ch ∧
      job.template? = some t := by
  obtain ⟨d, ds, hds, hnote, -⟩ := mem_visit_notes h
  rcases newTemplateDownstream_cases d t s clock ds with
    ⟨-, ho⟩ | ⟨-, -, hn, -⟩ | ⟨-, group, groupJob, -, -, announced, v, hv, ho, hannounced⟩
  · simp [ho] at hnote
  · simp [hn] at hnote
  · rw [ho] at hnote
    rcases List.mem_append.mp hnote with hx | hx
    · -- the group job is announced without GridPool only
      rw [hannounced, if_neg fun hnone => hg hnone.2.2] at hx
      cases hx
    · rw [hv] at hx
      obtain ⟨k, c, ch, hch, hnote, -⟩ := Downstream.mem_visitBoth_notes (by decide) hx
      rcases newTemplateChannel_cases d k c ch t s clock ds.requiresStandardJobs
        (s.downstreamOutputs ds t) groupJob with
        ⟨-, hn, -⟩ | ⟨g, payout, outputs, -, -, hb⟩ | ⟨hnone, -⟩ | ⟨hnone, -⟩
      · simp [hn] at hnote
      · obtain ⟨job, rfl, hbuilt⟩ := sent_of_buildsGridPool law hb hnote
        exact ⟨k, c, job, ds, ch, rfl, hds, hch, hbuilt.jobId, hbuilt.template⟩
      · exact absurd hnone hg
      · exact absurd hnone hg

/-- A fee tick sends a job to channels that it rotates. -/
theorem feeTick_received (law : env.channels.Lawful) {g : GridPoolClient} {t : NewTemplate}
    {clock : DownstreamId → ChannelId → UInt64}
    {ds : AList fun _ : DownstreamId => Downstream env.channels} {m : Sent}
    (h : .sent m ∈ (visit (fun d ds =>
      ds.visitBoth .standard .extended (s.refreshChannel g t clock d)) ds).notes) :
    ∃ k c job d ch payout outputs, m = ⟨m.downstream, .job k c job, [c]⟩ ∧
      ds.lookup m.downstream = some d ∧ (d.channels k).lookup c = some ch ∧
      s.gridpoolChannels (m.downstream, c) = some payout ∧
      g.coinbaseOutputs env.readAddress payout t.coinbaseTxValueRemaining (clock m.downstream c) =
        .ok outputs ∧
      (¬ (env.channels.channel.activeJob ch).any fun j => outputs.isPrefixOf j.coinbaseOutputs) ∧
      BuiltFrom job (env.channels.channel.nextJobId ch) t outputs := by
  obtain ⟨d, ds, hds, hnote, -⟩ := mem_visit_notes h
  obtain ⟨k, c, ch, hch, hnote, -⟩ := Downstream.mem_visitBoth_notes (by decide) hnote
  rcases refreshChannel_cases d k c ch t s clock g with ⟨-, hn⟩ | ⟨payout, outputs, hpayout,
    hb, hdiff⟩
  · simp [hn] at hnote
  · obtain ⟨job, rfl, hbuilt⟩ := sent_of_buildsGridPool law hb hnote
    exact ⟨k, c, job, ds, ch, payout, outputs, rfl, hds, hch, hpayout, hb.computed, hdiff, hbuilt⟩

/-- The one job message among the messages that open a channel. -/
theorem openingNotes_job {d : DownstreamId} {k : ChannelKind} {requestId : Nat}
    {c groupChannelId : ChannelId} {payout : Option ChannelPayout} {t : NewTemplate}
    {msg : SetNewPrevHash} {outputs : List TxOut} {now : UInt64} {new : env.channels.Channel}
    {job : Job} {m : Sent}
    (h : .sent m ∈ s.openingNotes d k requestId c groupChannelId payout t msg outputs now new job)
    (hjob : m.message.isJob = true) : m = ⟨d, .job k c job, [c]⟩ := by
  unfold openingNotes at h
  rcases List.mem_append.mp h with hghost | hsent
  · split at hghost <;> simp [builtNote] at hghost
  · simp only [List.mem_cons, Note.sent.injEq, List.not_mem_nil, or_false] at hsent
    rcases hsent with rfl | rfl | rfl
    · cases hjob
    · rfl
    · cases hjob

/-- The number the next job of a channel gets; zero where there is no channel. -/
def nextNumber (s : ChannelManager env.channels) (d : DownstreamId) (k : ChannelKind)
    (c : ChannelId) : JobId :=
  ((s.channel? d k c).map env.channels.channel.nextJobId).getD 0

/-- The jobs an event sends in GridPool mode: each goes to one channel, and a channel gets one. -/
theorem step_receives (law : env.channels.Lawful) (hg : s.gridpool ≠ none) {e : Event}
    (hrun : s.running = true) :
    ∃ (notes : List Note) (id : DownstreamId → ChannelKind → ChannelId → JobId),
      (s.step e).history = s.history ++ notes ∧
      ∀ m, .sent m ∈ notes → m.message.isJob = true → ∃ k c j,
        m = ⟨m.downstream, .job k c j, [c]⟩ ∧ j.jobId = id m.downstream k c ∧
          NewJob s m.downstream k c j e := by
  have hshape := step_shape s e hrun
  have hplain : ∀ {notes : List Note}, (∀ x ∈ notes, Note.Plain x) → ∀ m : Sent, .sent m ∈ notes →
      m.message.isJob ≠ true := by
    intro notes h m hm
    simp [isJob_of_plain (h _ hm)]
  generalize hsame : s.step e = s' at hshape ⊢
  cases hshape with
  | quiet h | stopped h =>
      obtain ⟨notes, hnotes, hquiet⟩ := h.notes
      exact ⟨notes, nextNumber s, hnotes, fun m hm hjob => absurd hjob (hplain hquiet m hm)⟩
  | template hstep ho =>
      rename_i t fetch clock gridpool o
      subst ho
      have hsome : (s.withTemplate gridpool t).gridpool ≠ none := by
        generalize hbefore : s.gridpool = before at hg hstep
        cases hstep with
        | same => exact hg
        | installed => simp [withTemplate]
      refine ⟨_, nextNumber s, rfl, fun m hm _ => ?_⟩
      obtain ⟨k, c, job, ds, ch, hm, hds, hlookup, hid, ht⟩ :=
        newTemplate_received law hsome (mem_keptNotes hm)
      have hch : s.channel? m.downstream k c = some ch := channel?_eq_some.mpr ⟨ds, hds, hlookup⟩
      exact ⟨k, c, job, hm, by simp [nextNumber, hch, hid], .template hch ht⟩
  | prevHash ho =>
      subst ho
      refine ⟨_, nextNumber s, rfl, fun m hm hjob => ?_⟩
      rw [prevHash_sent (mem_keptNotes hm)] at hjob
      cases hjob
  | opened h =>
      rename_i k d msg allocated now ds ds' payout t prev outputs new ch job
      obtain ⟨notes, running, hstate, hend⟩ := h.settle_state
      rw [hstate]
      refine ⟨notes, fun _ _ _ => job.jobId, rfl, fun m hm hjob => ?_⟩
      rcases hend with ⟨rfl, -⟩ | ⟨-, ⟨requestId, groupId, rfl⟩, -⟩
      · cases hm
      · obtain rfl := openingNotes_job hm hjob
        obtain ⟨-, hb, -⟩ := firstJob_new law h.isNew h.first
        refine ⟨_, _, job, rfl, rfl, .opened h.downstream rfl h.template hb.template ?_⟩
        intro ds₁ hds₁
        rw [hsame, hstate, AList.lookup_insert] at hds₁
        rw [← Option.some.inj hds₁, h.counter]
        exact Nat.lt_succ_self _
  | openedCustom h =>
      obtain ⟨notes, hstate, hquiet⟩ := h.state
      rw [hstate]
      exact ⟨notes, nextNumber s, rfl, fun m hm hjob => absurd hjob (hplain hquiet m hm)⟩
  | custom hds hch hjob hx =>
      refine ⟨_, nextNumber s, rfl, fun m hm hisJob => absurd hisJob (hplain ?_ m hm)⟩
      intro x hmem
      rwa [List.mem_singleton.mp hmem]
  | feeTick hsome hlast htick ho =>
      subst ho
      refine ⟨_, nextNumber s, rfl, fun m hm _ => ?_⟩
      obtain ⟨k, c, job, ds, ch, payout, outputs, hm, hds, hlookup, hpayout, houtputs, hdiff, hb⟩ :=
        feeTick_received law (mem_keptNotes hm)
      have hch : s.channel? m.downstream k c = some ch := channel?_eq_some.mpr ⟨ds, hds, hlookup⟩
      exact ⟨k, c, job, hm, by simp [nextNumber, hch, hb.jobId],
        .feeTick hch hlast htick hsome hpayout houtputs hdiff hb.template hb.outputs⟩
  | connected | closed | polled => exact ⟨[], nextNumber s, by simp, by simp⟩

end NewJob

/-! ### The invariant -/

/-- The template was published before id `n` was handed out, and `f` lists it under its id. -/
structure Issued (f : TemplateId → NewTemplate) (n : TemplateId) (t : NewTemplate) : Prop where
  stamped : Stamped t
  below : t.templateId < n
  listed : f t.templateId = t

theorem Issued.eq {f : TemplateId → NewTemplate} {n : TemplateId} {t t' : NewTemplate}
    (h : Issued f n t) (h' : Issued f n t') (hid : t.templateId = t'.templateId) : t = t' := by
  rw [← h.listed, hid, h'.listed]

/-- The template is earlier than all that wait in the queue. -/
def Earlier (queue : List TemplateDistribution) (u : NewTemplate) : Prop :=
  ∀ t, .newTemplate t ∈ queue → u.templateId < t.templateId

/-- The job was built from a template that was taken from the queue, as it is or after a tick. -/
def Based (f : TemplateId → NewTemplate) (n : TemplateId) (queue : List TemplateDistribution)
    (j : Job) : Prop :=
  ∃ u t, j.template? = some t ∧ Issued f n u ∧ Earlier queue u ∧
    (t = u ∨ ∃ now, IsTick u now t)

/-- The channel id is one the downstream has handed out. -/
def Used (s : ChannelManager env.channels) (d : DownstreamId) (c : ChannelId) : Prop :=
  d < s.downstreamIdFactory ∧ ∀ ds, s.downstreams.lookup d = some ds → c < ds.channelIdFactory

theorem Used.step {s : ChannelManager env.channels} {d : DownstreamId} {c : ChannelId}
    (h : Used s d c) (hrun : s.running = true) (e : Event) : Used (s.step e) d c := by
  refine ⟨Nat.lt_of_lt_of_le h.1 (step_downstreamIdFactory s e), fun ds' hds' => ?_⟩
  rcases step_downstream s e hrun hds' with ⟨ds, hds, hflags⟩ | ⟨hd, -⟩
  · exact Nat.lt_of_lt_of_le (h.2 ds hds) hflags.channelIdFactory
  · exact absurd hd (Nat.ne_of_lt h.1)

/-- A channel that gets a job has a used id. -/
theorem NewJob.used {s : ChannelManager env.channels} {d : DownstreamId} {k : ChannelKind}
    {c : ChannelId} {j : Job} {e : Event} (h : NewJob s d k c j e) (hnumbered : Numbered s)
    (hrun : s.running = true) : Used (s.step e) d c := by
  have hopen : ∀ {ch}, s.channel? d k c = some ch → Used s d c := by
    intro ch hch
    obtain ⟨ds, hds, hlookup⟩ := channel?_eq_some.mp hch
    refine ⟨hnumbered.downstream d ds hds, fun ds' hds' => ?_⟩
    obtain rfl := Option.some.inj (hds.symm.trans hds')
    exact hnumbered.channel d ds k c ch hds hlookup
  cases h with
  | template hch => exact (hopen hch).step hrun _
  | feeTick hch => exact (hopen hch).step hrun _
  | opened hds _ _ _ hused =>
      exact ⟨Nat.lt_of_lt_of_le (hnumbered.downstream d _ hds) (step_downstreamIdFactory s _),
        hused⟩

/-- What the pool keeps to: templates are handled in the order of their ids, every job is built from
one of them, and the jobs of a channel are different work. -/
structure Apart (f : TemplateId → NewTemplate) (s : RpcPool env) : Prop where
  numbered : Numbered s.manager
  gridpool : s.manager.gridpool ≠ none
  queued : ∀ t, .newTemplate t ∈ s.queue → Issued f s.provider.nextTemplateId t
  ordered : s.queue.Pairwise fun m m' => ∀ t t', m = .newTemplate t → m' = .newTemplate t' →
    t.templateId < t'.templateId
  last : s.manager.running = true → ∀ t, s.manager.lastFutureTemplate = some t →
    Issued f s.provider.nextTemplateId t ∧ Earlier s.queue t
  addressed : ∀ m, .sent m ∈ s.manager.history → m.message.isJob = true →
    ∃ k c j, m = ⟨m.downstream, .job k c j, [c]⟩
  based : ∀ d k c j, s.manager.Receives d k c j → Based f s.provider.nextTemplateId s.queue j
  used : ∀ d k c j, s.manager.Receives d k c j → Used s.manager d c
  apart : ∀ d k c j j', s.manager.Receives d k c j → s.manager.Receives d k c j' →
    j.jobId ≠ j'.jobId → ¬ SameWork j j'

/-- The condition on runs. The script of a response does not end in a commitment of its own, the ids
have not wrapped around, and a tick takes no channel back to outputs that it was given before on the
same template in the same second. -/
def NoReturn (s : RpcPool env) : RpcPoolEvent → Prop
  | .publish response _ =>
      s.provider.nextTemplateId < 2 ^ 64 ∧
        ∀ gbt, response = .ok gbt → ¬ EndsInPush gbt.coinbaseScript
  | .manage (.feeTick now clock) _ =>
      ∀ g last t d k c ch payout outputs, s.manager.gridpool = some g →
        s.manager.lastFutureTemplate = some last → IsTick last now t →
        s.manager.channel? d k c = some ch → s.manager.gridpoolChannels (d, c) = some payout →
        g.coinbaseOutputs env.readAddress payout t.coinbaseTxValueRemaining (clock d c) = .ok
          outputs →
        (¬ (env.channels.channel.activeJob ch).any fun j => outputs.isPrefixOf j.coinbaseOutputs) →
        ∀ j, s.manager.Receives d k c j → j.template? = some t →
          ¬ outputs.isPrefixOf j.coinbaseOutputs
  | _ => True

section Invariant

variable {f : TemplateId → NewTemplate} {s : RpcPool env}

theorem apart_initial {config : Config} (hg : config.gridpool ≠ none) (outputs : List TxOut) :
    Apart f (.initial (ChannelManager.initial config outputs : ChannelManager env.channels)) where
  numbered := numbered_initial config outputs
  gridpool := hg
  queued := by simp [RpcPool.initial]
  ordered := .nil
  last := by simp [RpcPool.initial, ChannelManager.initial]
  addressed := by simp [RpcPool.initial, ChannelManager.initial]
  based := by simp [Receives, RpcPool.initial, ChannelManager.initial]
  used := by simp [Receives, RpcPool.initial, ChannelManager.initial]
  apart := by simp [Receives, RpcPool.initial, ChannelManager.initial]

/-- The template of a response is stamped with the id it got. -/
theorem stamped_of_fromGbt {id : TemplateId} {gbt : GetBlockTemplate} {template : RpcTemplate}
    (h : RpcTemplate.fromGbt id (.ok gbt) = .ok template) (hid : id < 2 ^ 64)
    (hplain : ¬ EndsInPush gbt.coinbaseScript) (future : Bool) :
    (template.newTemplate future).templateId = id ∧ Stamped (template.newTemplate future) := by
  simp only [RpcTemplate.fromGbt] at h
  split at h
  · cases h
  · cases h
    exact ⟨rfl, hid, gbt.coinbaseScript, hplain, rfl⟩

/-- A publication queues at most one template, under the next id. -/
theorem publish_queue {response : Except String GetBlockTemplate} {tip : Bool}
    (hc : NoReturn s (.publish response tip)) :
    (s.step (.publish response tip)).provider.nextTemplateId = s.provider.nextTemplateId + 1 ∧
      ((s.step (.publish response tip)).queue = s.queue ∨
        ∃ t rest, (s.step (.publish response tip)).queue = s.queue ++ .newTemplate t :: rest ∧
          (∀ u, .newTemplate u ∉ rest) ∧ t.templateId = s.provider.nextTemplateId ∧ Stamped t) := by
  obtain ⟨hid, hplain⟩ := hc
  simp only [RpcPool.step, RpcPool.providerStep, BitcoinRpcTemplateProvider.publishGbt]
  cases htemplate : RpcTemplate.fromGbt s.provider.nextTemplateId response with
  | error e => exact ⟨rfl, .inl rfl⟩
  | ok template =>
      refine ⟨rfl, .inr ⟨_, _, rfl, ?_, ?_⟩⟩
      · intro u hu
        split at hu
        · cases List.mem_singleton.mp hu
        · cases hu
      · cases response with
        | error e => cases htemplate
        | ok gbt => exact stamped_of_fromGbt htemplate hid (hplain gbt rfl) tip

/-- The manager's part does not depend on how templates are listed. -/
theorem Apart.of_provider (h : Apart f s) {f' : TemplateId → NewTemplate} {s' : RpcPool env}
    (hmanager : s'.manager = s.manager)
    (hissued : ∀ {u}, Issued f s.provider.nextTemplateId u → Issued f' s'.provider.nextTemplateId u)
    (hearlier : ∀ {u},
      Issued f s.provider.nextTemplateId u → Earlier s.queue u → Earlier s'.queue u)
    (hqueued : ∀ t, .newTemplate t ∈ s'.queue → Issued f' s'.provider.nextTemplateId t)
    (hordered : s'.queue.Pairwise fun m m' => ∀ t t', m = .newTemplate t → m' = .newTemplate t' →
      t.templateId < t'.templateId) : Apart f' s' where
  numbered := hmanager ▸ h.numbered
  gridpool := hmanager ▸ h.gridpool
  queued := hqueued
  ordered := hordered
  last := by
    intro hrun u hu
    obtain ⟨hu, hqueue⟩ := h.last (hmanager ▸ hrun) u (hmanager ▸ hu)
    exact ⟨hissued hu, hearlier hu hqueue⟩
  addressed := hmanager ▸ h.addressed
  based := by
    intro d k c j hj
    obtain ⟨u, t, ht, hu, hqueue, hfrom⟩ := h.based d k c j (hmanager ▸ hj)
    exact ⟨u, t, ht, hissued hu, hearlier hu hqueue, hfrom⟩
  used := hmanager ▸ h.used
  apart := hmanager ▸ h.apart

/-- A publication lists its template under an id that no other template has. -/
theorem Apart.publish (h : Apart f s) {response : Except String GetBlockTemplate} {tip : Bool}
    (hc : NoReturn s (.publish response tip)) :
    ∃ f', Apart f' (s.step (.publish response tip)) := by
  obtain ⟨hnext, hqueue⟩ := publish_queue hc
  have hmanager : (s.step (.publish response tip)).manager = s.manager := rfl
  generalize s.step (.publish response tip) = s' at *
  rcases hqueue with hqueue | ⟨t, rest, hqueue, hrest, hid, hstamped⟩
  · have hissued : ∀ {u}, Issued f s.provider.nextTemplateId u →
        Issued f s'.provider.nextTemplateId u := fun h =>
      ⟨h.stamped, hnext ▸ Nat.lt_succ_of_lt h.below, h.listed⟩
    exact ⟨f, h.of_provider hmanager hissued (fun _ hu => hqueue ▸ hu)
      (fun t ht => hissued (h.queued t (hqueue ▸ ht))) (hqueue ▸ h.ordered)⟩
  · have hmem : ∀ {u}, .newTemplate u ∈ s'.queue → .newTemplate u ∈ s.queue ∨ u = t := by
      intro u hu
      rw [hqueue] at hu
      refine (List.mem_append.mp hu).imp_right fun hu => ?_
      rcases List.mem_cons.mp hu with heq | hu
      · cases heq
        rfl
      · exact absurd hu (hrest u)
    have hissued : ∀ {u}, Issued f s.provider.nextTemplateId u →
        Issued (Function.update f t.templateId t) s'.provider.nextTemplateId u := by
      intro u hu
      refine ⟨hu.stamped, hnext ▸ Nat.lt_succ_of_lt hu.below, ?_⟩
      rw [Function.update_of_ne (hid ▸ Nat.ne_of_lt hu.below), hu.listed]
    refine ⟨Function.update f t.templateId t, h.of_provider hmanager hissued ?_ ?_ ?_⟩
    · intro u hu hqueue t' ht'
      rcases hmem ht' with ht' | rfl
      · exact hqueue t' ht'
      · exact hid ▸ hu.below
    · intro u hu
      rcases hmem hu with hu | rfl
      · exact hissued (h.queued u hu)
      · exact ⟨hstamped, by rw [hnext, hid]; exact Nat.lt_succ_self _, Function.update_self ..⟩
    · rw [hqueue, List.pairwise_append]
      refine ⟨h.ordered, List.pairwise_cons.mpr ⟨?_, ?_⟩, ?_⟩
      · rintro m hm u u' - rfl
        exact absurd hm (hrest u')
      · refine List.pairwise_of_forall_mem_list fun m hm m' _ u u' hu _ => ?_
        exact absurd (hu ▸ hm) (hrest u)
      · rintro m hm m' hm' u u' rfl rfl
        rcases List.mem_cons.mp hm' with heq | hm'
        · cases heq
          exact hid ▸ (h.queued u hm).below
        · exact absurd hm' (hrest u')

/-- The template the manager takes is the first one in the queue. -/
theorem managerEvent_template {e : RpcPoolEvent} {t : NewTemplate}
    {fetch : Nat → Except String WorkSelection} {clock : DownstreamId → ChannelId → UInt64}
    (h : s.managerEvent e = some (.newTemplate t fetch clock)) :
    ∃ rest, s.queue = .newTemplate t :: rest ∧ (s.step e).queue = rest := by
  cases e with
  | publish response tip => cases h
  | deliver fetch' clock' =>
      simp only [RpcPool.managerEvent] at h
      split at h
      · cases h
      · rename_i t' rest hqueue
        cases h
        exact ⟨rest, hqueue, by simp [RpcPool.step, RpcPool.providerStep, hqueue]⟩
      · cases h
  | manage e hlocal =>
      cases h
      cases hlocal

/-- An event of the manager leaves the ids alone, and at most takes a message from the queue. -/
theorem managerEvent_provider {e : RpcPoolEvent} {e' : Event} (h : s.managerEvent e = some e') :
    (s.step e).provider = s.provider ∧ (s.step e).manager = s.manager.step e' ∧
      ((s.step e).queue = s.queue ∨ (s.step e).queue = s.queue.tail) := by
  refine ⟨?_, by simp only [RpcPool.step, h], ?_⟩
  · cases e with
    | publish response tip => cases h
    | deliver | manage => rfl
  · cases e with
    | publish response tip => cases h
    | deliver => exact .inr rfl
    | manage => exact .inl rfl

/-- A template that is taken from the queue is issued and earlier than the rest. -/
theorem Apart.taken (h : Apart f s) {t : NewTemplate} {rest : List TemplateDistribution}
    (hqueue : s.queue = .newTemplate t :: rest) :
    Issued f s.provider.nextTemplateId t ∧ Earlier rest t := by
  have hordered := h.ordered
  rw [hqueue, List.pairwise_cons] at hordered
  exact ⟨h.queued t (by simp [hqueue]), fun t' ht' => hordered.1 _ ht' t t' rfl rfl⟩

/-- The new jobs of an event are based on templates that have left the queue. -/
theorem NewJob.based (h : Apart f s) (hrun : s.manager.running = true) {e : RpcPoolEvent}
    {e' : Event} (he : s.managerEvent e = some e') {d : DownstreamId} {k : ChannelKind}
    {c : ChannelId} {j : Job} (hnew : NewJob s.manager d k c j e')
    (hless : ∀ {u}, Earlier s.queue u → Earlier (s.step e).queue u) :
    Based f s.provider.nextTemplateId (s.step e).queue j := by
  cases hnew with
  | template _ ht =>
      obtain ⟨rest, hqueue, hafter⟩ := managerEvent_template he
      obtain ⟨hissued, hearlier⟩ := h.taken hqueue
      exact ⟨_, _, ht, hissued, hafter ▸ hearlier, .inl rfl⟩
  | feeTick _ hlast htick _ _ _ _ ht =>
      obtain ⟨hissued, hearlier⟩ := h.last hrun _ hlast
      exact ⟨_, _, ht, hissued, hless hearlier, .inr ⟨_, htick⟩⟩
  | opened _ _ hlast ht =>
      obtain ⟨hissued, hearlier⟩ := h.last hrun _ hlast
      exact ⟨_, _, ht, hissued, hless hearlier, .inl rfl⟩

/-- A new job is not the same work as one the channel received before. -/
theorem NewJob.apart (h : Apart f s) (hrun : s.manager.running = true) {e : RpcPoolEvent}
    {e' : Event} (he : s.managerEvent e = some e') (hc : NoReturn s e) {d : DownstreamId}
    {k : ChannelKind} {c : ChannelId} {j j' : Job} (hold : s.manager.Receives d k c j)
    (hnew : NewJob s.manager d k c j' e') : ¬ SameWork j j' := by
  rintro ⟨t, t', ht, ht', hpre, houtputs⟩
  obtain ⟨u, t₀, ht₀, hu, hearlier, hfrom⟩ := h.based d k c j hold
  obtain rfl := Option.some.inj (ht₀.symm.trans ht)
  cases hnew with
  | template _ hnew =>
      obtain rfl := Option.some.inj (ht'.symm.trans hnew)
      obtain ⟨rest, hqueue, -⟩ := managerEvent_template he
      have hlt : u.templateId < t'.templateId := hearlier t' (by simp [hqueue])
      have ht' := (h.taken hqueue).1
      rcases hfrom with rfl | ⟨now, htick⟩
      · exact absurd (hu.stamped.coinbasePrefix_inj ht'.stamped hpre) (Nat.ne_of_lt hlt)
      · exact htick.coinbasePrefix_ne hu.stamped ht'.stamped hpre
  | feeTick hch hlast htick hg hpayout hcomputed hrotates hnew hrest =>
      obtain rfl := Option.some.inj (hnew.symm.trans ht')
      obtain ⟨hissued, -⟩ := h.last hrun _ hlast
      rcases hfrom with rfl | ⟨now, hbefore⟩
      · exact htick.coinbasePrefix_ne hissued.stamped hu.stamped hpre.symm
      · -- the same template and the same second: the channel would return to these outputs
        obtain ⟨hid, rfl⟩ := hbefore.coinbasePrefix_inj htick hu.stamped hissued.stamped hpre
        obtain rfl := hu.eq hissued hid
        obtain rfl := hbefore.unique htick
        obtain ⟨rest, hrest⟩ := hrest
        cases e with
        | manage e hlocal =>
            cases he
            refine hc _ _ _ d k c _ _ _ hg hlast htick hch hpayout hcomputed hrotates j hold ht ?_
            rw [houtputs, hrest, List.isPrefixOf_iff_prefix]
            exact List.prefix_append _ _
        | publish => cases he
        | deliver fetch clock =>
            simp only [RpcPool.managerEvent] at he
            split at he <;> cases he
  | opened hds hid =>
      exact absurd hid (Nat.ne_of_lt ((h.used d k c j hold).2 _ hds))

theorem Mining.isJob_job (k : ChannelKind) (c : ChannelId) (j : Job) :
    (Mining.job k c j).isJob = true := by
  cases k <;> rfl

theorem Mining.job_eq {k k' : ChannelKind} {c c' : ChannelId} {j j' : Job}
    (h : Mining.job k c j = Mining.job k' c' j') : k = k' ∧ c = c' ∧ j = j' := by
  cases k <;> cases k' <;> cases h <;> exact ⟨rfl, rfl, rfl⟩

/-- An event of the manager keeps the jobs apart. -/
theorem Apart.manage (law : env.channels.Lawful) (h : Apart f s) {e : RpcPoolEvent} {e' : Event}
    (he : s.managerEvent e = some e') (hc : NoReturn s e) : Apart f (s.step e) := by
  obtain ⟨hprovider, hmanager, hqueue⟩ := managerEvent_provider he
  have hsub : (s.step e).queue.Sublist s.queue := by
    rcases hqueue with hqueue | hqueue
    · rw [hqueue]
    · rw [hqueue]
      exact List.tail_sublist _
  have hless : ∀ {u}, Earlier s.queue u → Earlier (s.step e).queue u := fun hu t ht =>
    hu t (hsub.mem ht)
  have hqueued : ∀ t, .newTemplate t ∈ (s.step e).queue →
      Issued f (s.step e).provider.nextTemplateId t := fun t ht =>
    hprovider ▸ h.queued t (hsub.mem ht)
  have hordered := h.ordered.sublist hsub
  cases hrun : s.manager.running with
  | false =>
      rw [step_of_stopped _ _ hrun] at hmanager
      exact h.of_provider hmanager (hprovider ▸ id) (fun _ => hless) hqueued hordered
  | true =>
      obtain ⟨notes, id, hhistory, hnotes⟩ := step_receives law h.gridpool (e := e') hrun
      have hnew : ∀ {d k c j}, .sent ⟨d, .job k c j, [c]⟩ ∈ notes →
          j.jobId = id d k c ∧ NewJob s.manager d k c j e' := by
        intro d k c j hj
        obtain ⟨k', c', j', hm, hid, hjob⟩ := hnotes _ hj (Mining.isJob_job k c j)
        obtain ⟨rfl, rfl, rfl⟩ := Mining.job_eq (congrArg Sent.message hm)
        exact ⟨hid, hjob⟩
      have hmem : ∀ {d k c j}, (s.manager.step e').Receives d k c j →
          s.manager.Receives d k c j ∨ .sent ⟨d, .job k c j, [c]⟩ ∈ notes := by
        intro d k c j hj
        rw [Receives, hhistory] at hj
        exact List.mem_append.mp hj
      refine ⟨?_, ?_, hqueued, hordered, ?_, ?_, ?_, ?_, ?_⟩
      · exact hmanager ▸ numbered_step law h.numbered e'
      · have hsome := step_gridpool_isSome s.manager e'
        rw [hmanager, ← Option.isSome_iff_ne_none, hsome]
        exact Option.isSome_iff_ne_none.mpr h.gridpool
      · rw [hmanager, hprovider]
        intro hrun' t ht
        rcases step_lastFutureTemplate s.manager e' hrun with
          ⟨t', fetch, clock, rfl, -, ht'⟩ | ⟨-, hsame⟩ | hstop
        · obtain rfl := Option.some.inj (ht'.symm.trans ht)
          obtain ⟨rest, hq, hafter⟩ := managerEvent_template he
          exact (h.taken hq).imp_right fun hu => hafter ▸ hu
        · exact (h.last hrun t (hsame.symm.trans ht)).imp_right hless
        · rw [hstop] at hrun'
          cases hrun'
      · rw [hmanager, hhistory]
        intro m hm hjob
        rcases List.mem_append.mp hm with hm | hm
        · exact h.addressed m hm hjob
        · obtain ⟨k, c, j, hm, -⟩ := hnotes m hm hjob
          exact ⟨k, c, j, hm⟩
      · rw [hmanager, hprovider]
        intro d k c j hj
        rcases hmem hj with hold | hj
        · obtain ⟨u, t, ht, hu, hearlier, hfrom⟩ := h.based d k c j hold
          exact ⟨u, t, ht, hu, hless hearlier, hfrom⟩
        · exact (hnew hj).2.based h hrun he hless
      · rw [hmanager]
        intro d k c j hj
        rcases hmem hj with hold | hj
        · exact (h.used d k c j hold).step hrun e'
        · exact (hnew hj).2.used h.numbered hrun
      · rw [hmanager]
        intro d k c j j' hj hj' hne hsame
        rcases hmem hj with hold | hj
        · rcases hmem hj' with hold' | hj'
          · exact h.apart d k c j j' hold hold' hne hsame
          · exact (hnew hj').2.apart h hrun he hc hold hsame
        · rcases hmem hj' with hold' | hj'
          · exact (hnew hj).2.apart h hrun he hc hold' hsame.symm
          · exact hne ((hnew hj).1.trans (hnew hj').1.symm)

/-- Every event that meets the condition keeps the invariant. -/
theorem Apart.step (law : env.channels.Lawful) (h : Apart f s) {e : RpcPoolEvent}
    (hc : NoReturn s e) : ∃ f', Apart f' (s.step e) := by
  cases he : s.managerEvent e with
  | some e' => exact ⟨f, h.manage law he hc⟩
  | none =>
      cases e with
      | publish response tip => exact h.publish hc
      | manage e hlocal => cases he
      | deliver fetch clock =>
          -- nothing is under way
          have hnil : s.queue = [] := by
            simp only [RpcPool.managerEvent] at he
            split at he
            · assumption
            · cases he
            · cases he
          refine ⟨f, h.of_provider (by simp [RpcPool.step, he]) id (fun _ _ t ht => ?_)
            (fun t ht => ?_) ?_⟩
          · simp [RpcPool.step, RpcPool.providerStep, hnil] at ht
          · simp [RpcPool.step, RpcPool.providerStep, hnil] at ht
          · simp [RpcPool.step, RpcPool.providerStep, hnil]

end Invariant

/-! ### The result -/

/-- In every run without a return the job messages of the pool go to single channels, and no two
jobs that a channel receives under different ids have the same script signature prefix and
outputs. -/
theorem work_distinct (law : env.channels.Lawful) {config : Config} {now : UInt64}
    {manager : ChannelManager env.channels} (hg : config.gridpool ≠ none)
    (hstart : start env config now = .ok manager) {es : List RpcPoolEvent}
    (hc : Along RpcPool.step NoReturn (.initial manager) es) :
    let s := (exec RpcPool.step (.initial manager) es).manager
    (∀ m, .sent m ∈ s.history → m.message.isJob = true →
      ∃ k c j, m.message = .job k c j ∧ m.addressees = [c] ∧ s.Receives m.downstream k c j) ∧
    ∀ d k c j j', s.Receives d k c j → s.Receives d k c j' → j.jobId ≠ j'.jobId →
      ¬ SameWork j j' := by
  intro s
  obtain ⟨outputs, rfl⟩ := start_eq_ok hstart
  obtain ⟨f, h⟩ := exec_induct (I := fun s => ∃ f, Apart f s)
    (fun _ _ ⟨_, h⟩ hc => h.step law hc) ⟨fun id => ⟨id, false, [], 0⟩, apart_initial hg outputs⟩ hc
  refine ⟨fun m hm hjob => ?_, h.apart⟩
  obtain ⟨k, c, j, heq⟩ := h.addressed m hm hjob
  exact ⟨k, c, j, congrArg Sent.message heq, congrArg Sent.addressees heq, heq ▸ hm⟩

/-! ### Two ticks of one second

Updates of the template change the value before each tick, and the ticks build on the last future
template. The second one builds the job of the first once more. -/

/-- The job a note sends. -/
def Note.job? : Note → Option Job
  | .sent ⟨_, .newMiningJob _ j, _⟩ | .sent ⟨_, .newExtendedMiningJob _ j, _⟩ => some j
  | _ => none

theorem mem_jobs_of_receives {s : ChannelManager env.channels} {d : DownstreamId} {k : ChannelKind}
    {c : ChannelId} {j : Job} (h : s.Receives d k c j) : j ∈ s.history.filterMap Note.job? :=
  List.mem_filterMap.mpr ⟨_, h, by cases k <;> rfl⟩

/-- A tick returns to nothing when no job was committed to the last future template yet. -/
theorem noReturn_feeTick {s : RpcPool env} {now : UInt64}
    {clock : DownstreamId → ChannelId → UInt64}
    (h : ∀ last, s.manager.lastFutureTemplate = some last →
      ∀ j ∈ s.manager.history.filterMap Note.job?, ∀ t, j.template? = some t →
        t.templateId = last.templateId → t.futureTemplate = true) :
    NoReturn s (.manage (.feeTick now clock) rfl) := by
  intro g last t d k c ch payout outputs _ hlast htick _ _ _ _ j hj ht
  have hfuture := h last hlast j (mem_jobs_of_receives hj) t ht htick.templateId
  rw [htick.futureTemplate] at hfuture
  cases hfuture

/-- The first template with its previous hash, and a channel. -/
def openExtended : List RpcPoolEvent :=
  openAfter 0

/-- A template of the same tip with another value, and a tick in one fixed second. -/
def updateAndTick (value : UInt64) : List RpcPoolEvent :=
  [.publish (.ok { sampleGbt with coinbaseValue := value }) false,
    .deliver (fun _ => .error "unreachable") (fun _ _ => 0),
    .manage (.feeTick 1700000100 fun _ _ => 1700000100) rfl]

/-- The outputs for the value of the first template. -/
def firstOutputs : List TxOut :=
  [⟨4999999900, Reference.fallbackScript⟩, ⟨100, Reference.operatorScript⟩]

/-- The job of the first template, as it is announced to the new channel. -/
def openingJob : Job where
  jobId := 1
  origin := .newTemplate ⟨1, true, [3, 64, 13, 3, 8, 1, 0, 0, 0, 0, 0, 0, 0], 5000000000⟩
  coinbaseOutputs := firstOutputs
  minNtime := none

/-- The job a tick of that second makes from the first template. -/
def rotatedJob (id : JobId) : Job where
  jobId := id
  origin := .newTemplate
    ⟨1, false, [3, 64, 13, 3, 8, 1, 0, 0, 0, 0, 0, 0, 0, 8, 100, 241, 83, 101, 0, 0, 0, 0],
      5000000000⟩
  coinbaseOutputs := firstOutputs
  minNtime := some 1700000060

/-- The node's script in the runs ends in no push. -/
theorem not_endsInPush_sample (value : UInt64) :
    ¬ EndsInPush ({ sampleGbt with coinbaseValue := value } : GetBlockTemplate).coinbaseScript := by
  rintro ⟨front, n, h⟩
  have hlength := congrArg List.length h
  simp only [sampleGbt, List.length_cons, List.length_nil, List.length_append,
    Consensus.leBytes_length] at hlength
  omega

theorem noReturn_update (value : UInt64) {s : RpcPool env} (tip : Bool)
    (h : s.provider.nextTemplateId < 2 ^ 64) :
    NoReturn s (.publish (.ok { sampleGbt with coinbaseValue := value }) tip) :=
  ⟨h, by rintro gbt ⟨⟩; exact not_endsInPush_sample value⟩

/-- The update was handled, and the tick is next. -/
def beforeTick : RpcPool Reference.env :=
  exec RpcPool.step (.initial Reference.manager) (openExtended ++ (updateAndTick 5000000100).take 2)

theorem one_tick_is_new_work :
    let s := exec RpcPool.step (.initial Reference.manager)
      (openExtended ++ updateAndTick 5000000100)
    s.manager.Receives 1 .extended 2 openingJob ∧ s.manager.Receives 1 .extended 2 (rotatedJob 3) ∧
      ¬ SameWork openingJob (rotatedJob 3) := by
  have hopened : (exec RpcPool.step (.initial Reference.manager)
      (openExtended ++ updateAndTick 5000000100)).manager.Receives 1 .extended 2 openingJob := by
    decide +kernel
  have hrotated : (exec RpcPool.step (.initial Reference.manager)
      (openExtended ++ updateAndTick 5000000100)).manager.Receives 1 .extended 2
        (rotatedJob 3) := by
    decide +kernel
  have hid : (exec RpcPool.step (.initial Reference.manager) openExtended).provider.nextTemplateId <
      2 ^ 64 := by
    decide +kernel
  -- before the tick only the first template's own job and the one of the update were sent
  have hlast : (beforeTick.manager.lastFutureTemplate.map (·.templateId)) = some 1 := by
    decide +kernel
  have hjobs : (beforeTick.manager.history.filterMap Note.job?).all (fun j =>
      j.template?.all fun t => t.templateId != 1 || t.futureTemplate) = true := by
    decide +kernel
  have hbefore : ∀ last, beforeTick.manager.lastFutureTemplate = some last →
      ∀ j ∈ beforeTick.manager.history.filterMap Note.job?, ∀ t, j.template? = some t →
        t.templateId = last.templateId → t.futureTemplate = true := by
    intro last hsome j hj t ht hsame
    have hone := List.all_eq_true.mp hjobs j hj
    rw [hsome] at hlast
    have hid : t.templateId = 1 := hsame.trans (Option.some.inj hlast)
    rw [ht, Option.all_some, hid] at hone
    simpa using hone
  have hc : Along RpcPool.step NoReturn (.initial Reference.manager)
      (openExtended ++ updateAndTick 5000000100) := by
    refine along_append.mpr ⟨?_, ?_⟩
    · exact ⟨noReturn_update 5000000000 true (by decide), trivial, trivial, trivial, trivial,
        trivial⟩
    · refine ⟨noReturn_update 5000000100 false hid, trivial, ?_, trivial⟩
      rw [beforeTick, exec_append] at hbefore
      exact noReturn_feeTick hbefore
  exact ⟨hopened, hrotated,
    (work_distinct Reference.channels_lawful (by simp [Reference.gridpoolConfig,
    Reference.config]) Reference.start_manager hc).2 1 .extended 2 _ _ hopened hrotated (by decide)⟩

/-- The second tick of a second takes the channel back to the work of the first one: the jobs differ
in their id only. -/
theorem second_tick_recreates_work :
    let s := exec RpcPool.step (.initial Reference.manager)
      (openExtended ++ updateAndTick 5000000100)
    let s' := exec RpcPool.step s (updateAndTick 5000000200)
    start Reference.env Reference.gridpoolConfig 0 = .ok Reference.manager ∧
      s.manager.Receives 1 .extended 2 (rotatedJob 3) ∧
      s'.manager.Receives 1 .extended 2 (rotatedJob 3) ∧
      s'.manager.Receives 1 .extended 2 (rotatedJob 5) ∧
      s'.manager.lastNewPrevHash = s.manager.lastNewPrevHash ∧
      SameWork (rotatedJob 3) (rotatedJob 5) := by
  refine ⟨Reference.start_manager, ?_, ?_, ?_, ?_, ⟨_, _, rfl, rfl, rfl, rfl⟩⟩
  · decide +kernel
  · decide +kernel
  · decide +kernel
  · decide +kernel

end GridPoolSv2.Pool
