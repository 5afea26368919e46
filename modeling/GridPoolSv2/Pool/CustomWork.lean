import GridPoolSv2.Lib.Runs
import GridPoolSv2.Pool.FeeMessages

/-!
# Pool.CustomWork: connections that require custom work

A downstream that set `REQUIRES_CUSTOM_WORK` gets its jobs from its own template provider. The
handlers of `NewTemplate` and `SetNewPrevHash` skip it, a standard channel is refused and an
extended one is opened without a job. The fee tick has no such test: the GridPool payout it goes by
is recorded for every channel.

`SparesCustomWork` is the condition that no fee tick rotates a channel of such a downstream, and
`custom_work_excluded` says that the runs that meet it keep these downstreams free of pool jobs.
-/

namespace GridPoolSv2.Pool

open Consensus (Bytes TxOut)
open Runs Visit ChannelManager

variable {env : Env}

/-- A `NewMiningJob` or a `NewExtendedMiningJob`. -/
def Mining.isJob : Mining → Bool
  | .newMiningJob _ _ | .newExtendedMiningJob _ _ => true
  | _ => false

/-- The connection `d` of the run set `REQUIRES_CUSTOM_WORK`. -/
def RequiredCustomWork (s₀ : ChannelManager env.channels) (es : List Event) (d : DownstreamId) :
    Prop :=
  ∃ pre std post, es = pre ++ .connect std true :: post ∧
    (exec ChannelManager.step s₀ pre).downstreams.lookup d = none ∧
    ((exec ChannelManager.step s₀ pre).step (.connect std true)).downstreams.lookup d ≠ none

/-- The downstream was sent no job, and every change of the active job of one of its extended
channels is due to a custom job or to a new previous hash. -/
structure Excluded (s₀ : ChannelManager env.channels) (es : List Event)
    (d : DownstreamId) : Prop where
  unsent : ∀ m, .sent m ∈ (exec ChannelManager.step s₀ es).history → m.downstream = d →
    m.message.isJob = false
  activeJob : ∀ pre e post, es = pre ++ e :: post → ∀ c ch ch',
    (exec ChannelManager.step s₀ pre).channel? d .extended c = some ch →
    ((exec ChannelManager.step s₀ pre).step e).channel? d .extended c = some ch' →
    env.channels.channel.activeJob ch' ≠ env.channels.channel.activeJob ch →
    (∃ m, e = .setNewPrevHash m) ∨
      ∃ msg response, e = .setCustomMiningJob d msg response ∧ msg.channelId = c

/-- A fee tick rotates no channel of a downstream that requires custom work: such a channel is not
due, or the loops end before it. -/
def SparesCustomWork (s : ChannelManager env.channels) : Event → Prop
  | .feeTick now clock => ∀ g last t, s.gridpool = some g → s.lastFutureTemplate = some last →
      commitGridpoolJobRefresh { last with futureTemplate := false } now = .ok t →
      ∀ x ∈ s.slots.takeWhile fun x => !s.stops g t clock x, s.due g t clock x = true →
        ∀ ds, s.downstreams.lookup x.downstream = some ds → ds.requiresCustomWork = false
  | _ => True

/-! ### Who is sent a job

Each kind of event has its lemma. All but the fee tick skip a downstream that requires custom
work. -/

section Sent

variable {s : ChannelManager env.channels} {m : Sent}

theorem isJob_of_plain (h : Note.Plain (.sent m)) : m.message.isJob = false := by
  obtain ⟨m', hm, hplain⟩ := h
  obtain rfl := Note.sent.inj hm
  cases hmessage : m.message <;> first | rfl | (rw [hmessage] at hplain; cases hplain)

/-- A job that is sent was built for the channel. -/
theorem sent_of_builds {g : GridPoolClient} {d : DownstreamId} {k : ChannelKind} {c : ChannelId}
    {payout : ChannelPayout} {t : NewTemplate} {now : UInt64} {ch : env.channels.Channel}
    {o : Outcome env.channels.Channel Note PoolErrorKind} {outputs : List TxOut}
    (h : BuildsGridPool env g d k c payout t now ch o outputs) (hm : .sent m ∈ o.notes) :
    m.downstream = d := by
  rcases h.notes with ⟨hn, -⟩ | ⟨job, -, -, hn⟩
  · simp [hn, builtNote] at hm
  · simp only [hn, builtNote, List.mem_cons, reduceCtorEq, Note.sent.injEq, List.not_mem_nil,
      or_false, false_or] at hm
    rw [hm]

/-- A template is announced to downstreams without custom work only. -/
theorem newTemplate_sent {t : NewTemplate} {clock : DownstreamId → ChannelId → UInt64}
    {ds : AList fun _ : DownstreamId => Downstream env.channels}
    (h : .sent m ∈ (visit (s.newTemplateDownstream t clock) ds).notes) :
    ∃ d, ds.lookup m.downstream = some d ∧ d.requiresCustomWork = false := by
  obtain ⟨d, ds, hds, hnote, -⟩ := mem_visit_notes h
  rcases newTemplateDownstream_cases d t s clock ds with
    ⟨-, ho⟩ | ⟨-, -, hn, -⟩ | ⟨hcustom, group, groupJob, -, -, announced, v, hv, ho, hannounced⟩
  · simp [ho] at hnote
  · simp [hn] at hnote
  · suffices m.downstream = d by
      rw [this]
      exact ⟨ds, hds, hcustom⟩
    rw [ho] at hnote
    rcases List.mem_append.mp hnote with hx | hx
    · rw [hannounced] at hx
      split at hx
      · rw [Note.sent.inj (List.mem_singleton.mp hx)]
      · cases hx
    · rw [hv] at hx
      obtain ⟨k, c, ch, -, hnote, -⟩ := Downstream.mem_visitBoth_notes (by decide) hx
      rcases newTemplateChannel_cases d k c ch t s clock ds.requiresStandardJobs
        (s.downstreamOutputs ds t) groupJob with
        ⟨-, hn, -⟩ | ⟨g, payout, outputs, -, -, hb⟩ | ⟨-, -, -, -, ⟨hn, -⟩ | ⟨job, -, -, hn⟩⟩ |
        ⟨-, -, hn, -, -⟩
      · simp [hn] at hnote
      · exact sent_of_builds hb hnote
      · simp [hn] at hnote
      · rw [hn, List.mem_singleton] at hnote
        rw [Note.sent.inj hnote]
      · simp [hn] at hnote

/-- A previous hash is announced without jobs. -/
theorem prevHash_sent {msg : SetNewPrevHash}
    {ds : AList fun _ : DownstreamId => Downstream env.channels}
    (h : .sent m ∈ (visit (prevHashDownstream msg) ds).notes) : m.message.isJob = false := by
  obtain ⟨d, ds, -, hnote, -⟩ := mem_visit_notes h
  rcases prevHashDownstream_cases d msg ds with
    ⟨-, ho⟩ | ⟨-, -, hn, -⟩ | ⟨-, group, -, announced, v, hv, ho, hannounced⟩
  · simp [ho] at hnote
  · simp [hn] at hnote
  · rw [ho] at hnote
    rcases List.mem_append.mp hnote with hx | hx
    · rcases hannounced with hnil | ⟨job, -, -, -, hone⟩
      · simp [hnil] at hx
      · rw [hone, List.mem_singleton] at hx
        rw [Note.sent.inj hx]
        rfl
    · rw [hv] at hx
      obtain ⟨k, c, ch, -, hnote, -⟩ := Downstream.mem_visitBoth_notes (by decide) hx
      rcases prevHashChannel_cases d k c ch msg ds.requiresStandardJobs with
        ⟨-, hn, -⟩ | ⟨-, hn | ⟨job, -, -, -, hn⟩⟩
      · simp [hn] at hnote
      · simp [hn] at hnote
      · rw [hn, List.mem_singleton] at hnote
        rw [Note.sent.inj hnote]
        rfl

/-- A fee tick that keeps its messages sends them to due channels it reached. -/
theorem feeTick_sent (law : env.channels.Lawful) {g : GridPoolClient} {t : NewTemplate}
    {clock : DownstreamId → ChannelId → UInt64} (htick : t.futureTemplate = false)
    (h : .sent m ∈ keptNotes (s.rotateChannels g t clock)) :
    ∃ x ∈ s.slots.takeWhile fun x => !s.stops g t clock x,
      s.due g t clock x = true ∧ x.downstream = m.downstream := by
  have hsweep := rotateChannels_sweep s g clock law htick
  unfold keptNotes at h
  split at h
  · rename_i hnone
    have herr := Option.isNone_iff_eq_none.mp hnone
    rw [hsweep.notes herr] at h
    obtain ⟨x, hx, hnote⟩ := List.mem_flatMap.mp h
    have hok : ∀ y ∈ s.slots, s.stops g t clock y = false := by
      intro y hy
      have hisNone := rotate_error s g clock law htick y
      rw [hsweep.error.mp herr y hy] at hisNone
      simpa using hisNone.symm
    have hmem : m ∈ messages (s.rotate g t clock x).notes :=
      List.mem_filterMap.mpr ⟨_, hnote, rfl⟩
    refine ⟨x, ?_, ?_⟩
    · rw [List.takeWhile_eq_self_iff.mpr fun y hy => by simp [hok y hy]]
      exact hx
    · obtain ⟨own, hdown, hmessages, -⟩ := exists_message s g clock law htick x
      rw [hmessages (hok x hx)] at hmem
      split at hmem
      · rename_i hdue
        rw [List.mem_singleton.mp hmem]
        exact ⟨hdue, hdown.symm⟩
      · cases hmem
  · have hbuilt := (List.mem_filter.mp h).2
    cases hbuilt

/-- The messages that open a channel go to its downstream. -/
theorem openingNotes_sent {d : DownstreamId} {k : ChannelKind} {requestId : Nat}
    {c groupChannelId : ChannelId} {payout : Option ChannelPayout} {t : NewTemplate}
    {msg : SetNewPrevHash} {outputs : List TxOut} {now : UInt64} {new : env.channels.Channel}
    {job : Job}
    (h : .sent m ∈ s.openingNotes d k requestId c groupChannelId payout t msg outputs now new job) :
    m.downstream = d := by
  unfold openingNotes at h
  rcases List.mem_append.mp h with hghost | hsent
  · split at hghost <;> simp [builtNote] at hghost
  · simp only [List.mem_cons, Note.sent.injEq, List.not_mem_nil, or_false] at hsent
    rcases hsent with rfl | rfl | rfl <;> rfl

/-- Only downstreams without custom work are sent jobs, unless a fee tick rotates a channel of
another one. -/
theorem step_jobs (law : env.channels.Lawful) {e : Event} (hrun : s.running = true)
    (hc : SparesCustomWork s e) :
    ∃ notes, (s.step e).history = s.history ++ notes ∧
      ∀ m, .sent m ∈ notes → m.message.isJob = true →
        ∃ ds, s.downstreams.lookup m.downstream = some ds ∧ ds.requiresCustomWork = false := by
  have hshape := step_shape s e hrun
  generalize s.step e = s' at hshape ⊢
  cases hshape with
  | quiet h | stopped h =>
      obtain ⟨notes, hnotes, hplain⟩ := h.notes
      refine ⟨notes, hnotes, fun m hm hjob => ?_⟩
      rw [isJob_of_plain (hplain _ hm)] at hjob
      cases hjob
  | template hg ho =>
      subst ho
      exact ⟨_, rfl, fun m hm _ => newTemplate_sent (mem_keptNotes hm)⟩
  | prevHash ho =>
      subst ho
      refine ⟨_, rfl, fun m hm hjob => ?_⟩
      rw [prevHash_sent (mem_keptNotes hm)] at hjob
      cases hjob
  | opened h =>
      obtain ⟨notes, running, hstate, hend⟩ := h.settle_state
      rw [hstate]
      refine ⟨notes, rfl, fun m hm _ => ?_⟩
      rcases hend with ⟨rfl, -⟩ | ⟨-, ⟨requestId, groupId, rfl⟩, -⟩
      · cases hm
      · rw [openingNotes_sent hm]
        exact ⟨_, h.downstream, h.requiresCustomWork⟩
  | openedCustom h =>
      obtain ⟨notes, hstate, hplain⟩ := h.state
      rw [hstate]
      refine ⟨notes, rfl, fun m hm hjob => ?_⟩
      rw [isJob_of_plain (hplain _ hm)] at hjob
      cases hjob
  | custom hds hch hjob hx =>
      refine ⟨_, rfl, fun m hm hisJob => ?_⟩
      rw [← List.mem_singleton.mp hm] at hx
      rw [isJob_of_plain hx] at hisJob
      cases hisJob
  | feeTick hg hlast htick ho =>
      subst ho
      refine ⟨_, rfl, fun m hm _ => ?_⟩
      obtain ⟨x, hx, hdue, hdown⟩ := feeTick_sent law htick.futureTemplate hm
      obtain ⟨ds, hds, -⟩ := mem_slots.mp ((List.takeWhile_sublist _).mem hx)
      refine ⟨ds, hdown ▸ hds, hc _ _ _ hg hlast htick.committed x hx hdue ds hds⟩
  | connected | closed | polled => exact ⟨[], by simp, by simp⟩

end Sent

/-! ### What changes an active job -/

section ActiveJob

variable {s : ChannelManager env.channels} {d : DownstreamId} {k : ChannelKind} {c : ChannelId}
  {ch ch' : env.channels.Channel}

/-- A fee tick leaves a channel as it was, or the channel is due and was reached. -/
theorem feeTick_channel (law : env.channels.Lawful) {now : UInt64}
    {clock : DownstreamId → ChannelId → UInt64} (hch : s.channel? d k c = some ch)
    (hch' : (s.refreshGridpoolFeeJobs now clock).1.channel? d k c = some ch') :
    ch' = ch ∨ ∃ g last t, s.gridpool = some g ∧ s.lastFutureTemplate = some last ∧
      commitGridpoolJobRefresh { last with futureTemplate := false } now = .ok t ∧
      ⟨d, k, c, ch⟩ ∈ s.slots.takeWhile (fun x => !s.stops g t clock x) ∧
      s.due g t clock ⟨d, k, c, ch⟩ = true := by
  rcases refreshGridpoolFeeJobs_cases s now clock with hidle | ⟨g, last, t, hg, hlast, htick, hr⟩
  · rw [hidle] at hch'
    exact .inl (Option.some.inj (hch'.symm.trans hch))
  · rw [hr, conclude_fst, channel?] at hch'
    have hmem : (⟨d, k, c, ch⟩ : Slot env.channels) ∈ s.slots :=
      mem_slots.mpr (channel?_eq_some.mp hch)
    rcases rotateChannels_channel law htick.futureTemplate hmem hch' with hsame | ⟨hreached,
      hdue, -⟩
    · exact .inl hsame
    · exact .inr ⟨g, last, t, hg, hlast, htick.committed, hreached, hdue⟩

/-- The active job of a channel of a downstream with custom work changes with a custom job or a
previous hash only. -/
theorem step_activeJob (law : env.channels.Lawful) {e : Event} (hrun : s.running = true)
    (hnumbered : Numbered s) (hc : SparesCustomWork s e) {ds : Downstream env.channels}
    (hds : s.downstreams.lookup d = some ds) (hcustom : ds.requiresCustomWork = true)
    (hch : s.channel? d k c = some ch) (hch' : (s.step e).channel? d k c = some ch')
    (hne : env.channels.channel.activeJob ch' ≠ env.channels.channel.activeJob ch) :
    (∃ m, e = .setNewPrevHash m) ∨
      ∃ msg response, e = .setCustomMiningJob d msg response ∧ msg.channelId = c := by
  have hplain : ∀ ds', s.downstreams.lookup d = some ds' → ds'.requiresCustomWork ≠ false := by
    intro ds' hds'
    obtain rfl := Option.some.inj (hds.symm.trans hds')
    simp [hcustom]
  have hstep := step_channel law s e hrun d k c
  rw [hch, hch'] at hstep
  cases hstep with
  | same => exact absurd rfl hne
  | template hgives h =>
      cases hgives with
      | newTemplate hds' hfalse => exact absurd hfalse (hplain _ hds')
      | feeTick hlast htick hrotates =>
          rename_i now clock last
          rw [ChannelManager.step, if_neg (by simp [hrun])] at hch'
          rcases feeTick_channel law hch hch' with rfl | ⟨g, last, t, hg, hlast, ht, hreached, hdue⟩
          · exact absurd rfl hne
          · exact absurd (hc g last t hg hlast ht _ hreached hdue ds hds) (hplain ds hds)
  | groupJob he hg hds' hfalse => exact absurd hfalse (hplain _ hds')
  | prevHash he => exact .inl ⟨_, he⟩
  | custom he hid => exact .inr ⟨_, _, he, hid⟩
  | opened he hds' hid hfalse => exact absurd hfalse (hplain _ hds')
  | openedCustom he hds' hid =>
      obtain ⟨ds₀, hds₀, hlookup⟩ := channel?_eq_some.mp hch
      obtain rfl := Option.some.inj (hds₀.symm.trans hds')
      exact absurd (hid ▸ hnumbered.channel d _ k c ch hds₀ hlookup) (Nat.lt_irrefl _)

end ActiveJob

/-! ### Runs -/

section Run

variable {s₀ : ChannelManager env.channels} {es : List Event} {d : DownstreamId}

/-- A connection with custom work is one of the run so far, or the event just made it. -/
theorem requiredCustomWork_concat {e : Event} (h : RequiredCustomWork s₀ (es ++ [e]) d) :
    RequiredCustomWork s₀ es d ∨ ∃ std, e = .connect std true ∧
      (exec ChannelManager.step s₀ es).downstreams.lookup d = none ∧
      ((exec ChannelManager.step s₀ es).step e).downstreams.lookup d ≠ none := by
  obtain ⟨pre, std, post, heq, hbefore, hafter⟩ := h
  rcases List.eq_nil_or_concat post with rfl | ⟨post, e', rfl⟩
  · obtain ⟨rfl, he⟩ := List.append_inj' heq rfl
    obtain rfl := List.singleton_inj.mp he
    exact .inr ⟨std, rfl, hbefore, hafter⟩
  · rw [List.concat_eq_append, ← List.cons_append, ← List.append_assoc] at heq
    obtain ⟨rfl, -⟩ := List.append_inj' heq rfl
    exact .inl ⟨pre, std, post, rfl, hbefore, hafter⟩

/-- What a run that spares the custom work has shown so far. -/
structure Spared (s₀ : ChannelManager env.channels) (es : List Event)
    (s : ChannelManager env.channels) : Prop where
  numbered : Numbered s
  known : ∀ m, .sent m ∈ s.history → m.message.isJob = true → m.downstream < s.downstreamIdFactory
  custom : ∀ d, RequiredCustomWork s₀ es d → d < s.downstreamIdFactory ∧
    (∀ ds, s.downstreams.lookup d = some ds → ds.requiresCustomWork = true) ∧
    ∀ m, .sent m ∈ s.history → m.downstream = d → m.message.isJob = false

theorem spared_initial (config : Config) (outputs : List TxOut) :
    Spared (initial config outputs : ChannelManager env.channels) [] (initial config outputs) where
  numbered := numbered_initial config outputs
  known := by
    intro m hm
    cases hm
  custom := by
    rintro d ⟨pre, std, post, heq, -⟩
    simp at heq

/-- A new connection with custom work has the next id and its flag. -/
theorem connected_custom {s : ChannelManager env.channels} {std : Bool} (hrun : s.running = true)
    (hbefore : s.downstreams.lookup d = none)
    (hafter : (s.step (.connect std true)).downstreams.lookup d ≠ none) :
    d = s.downstreamIdFactory ∧
      (s.step (.connect std true)).downstreamIdFactory = s.downstreamIdFactory + 1 ∧
      ∀ ds, (s.step (.connect std true)).downstreams.lookup d = some ds →
        ds.requiresCustomWork = true := by
  have hshape := step_shape s (.connect std true) hrun
  generalize s.step (.connect std true) = s' at hshape hafter ⊢
  obtain ⟨ds', hds'⟩ := Option.ne_none_iff_exists'.mp hafter
  have hquiet : ¬ Quiet s s' := by
    intro h
    obtain ⟨ds, hds, -⟩ := h.downstreams d ds' hds'
    rw [hbefore] at hds
    cases hds
  cases hshape with
  | quiet h | stopped h => exact absurd h hquiet
  | connected =>
      dsimp only at hds' ⊢
      by_cases hd : d = s.downstreamIdFactory
      · subst hd
        refine ⟨rfl, rfl, fun ds hds => ?_⟩
        rw [AList.lookup_insert] at hds
        rw [← Option.some.inj hds]
      · rw [AList.lookup_insert_ne hd, hbefore] at hds'
        cases hds'

/-- Every event that meets the condition keeps the invariant. -/
theorem spared_step (law : env.channels.Lawful) {e : Event}
    (h : Spared s₀ es (exec ChannelManager.step s₀ es))
    (hc : SparesCustomWork (exec ChannelManager.step s₀ es) e) :
    Spared s₀ (es ++ [e]) ((exec ChannelManager.step s₀ es).step e) := by
  have hids := step_downstreamIdFactory (exec ChannelManager.step s₀ es) e
  have hnumbered := numbered_step law h.numbered e
  cases hrun : (exec ChannelManager.step s₀ es).running with
  | false =>
      have hidle := step_of_stopped _ e hrun
      refine ⟨hnumbered, by rw [hidle]; exact h.known, fun d hd => ?_⟩
      rcases requiredCustomWork_concat hd with hd | ⟨std, -, hbefore, hafter⟩
      · rw [hidle]
        exact h.custom d hd
      · rw [hidle] at hafter
        exact absurd hbefore hafter
  | true =>
      obtain ⟨notes, hhistory, hnotes⟩ := step_jobs law hrun hc
      refine ⟨hnumbered, ?_, fun d hd => ?_⟩
      · intro m hm hjob
        rw [hhistory] at hm
        refine Nat.lt_of_lt_of_le ?_ hids
        rcases List.mem_append.mp hm with hm | hm
        · exact h.known m hm hjob
        · obtain ⟨ds, hds, -⟩ := hnotes m hm hjob
          exact h.numbered.downstream _ _ hds
      · rcases requiredCustomWork_concat hd with hd | ⟨std, rfl, hbefore, hafter⟩
        · obtain ⟨hlt, hflag, hunsent⟩ := h.custom d hd
          refine ⟨Nat.lt_of_lt_of_le hlt hids, ?_, ?_⟩
          · intro ds' hds'
            rcases step_downstream _ e hrun hds' with ⟨ds, hds, hsame⟩ | ⟨rfl, -⟩
            · rw [hsame.requiresCustomWork]
              exact hflag ds hds
            · exact absurd hlt (Nat.lt_irrefl _)
          · intro m hm hdown
            rw [hhistory] at hm
            rcases List.mem_append.mp hm with hm | hm
            · exact hunsent m hm hdown
            · by_contra hjob
              obtain ⟨ds, hds, hplain⟩ := hnotes m hm (by simpa using hjob)
              rw [hflag ds (hdown ▸ hds)] at hplain
              cases hplain
        · obtain ⟨hd, hnext, hflag⟩ := connected_custom hrun hbefore hafter
          refine ⟨by rw [hnext, hd]; exact Nat.lt_succ_self _, hflag, ?_⟩
          intro m hm hdown
          by_contra hjob
          have hjob : m.message.isJob = true := by simpa using hjob
          rw [hhistory] at hm
          rcases List.mem_append.mp hm with hm | hm
          · have hlt := h.known m hm hjob
            rw [hdown, hd] at hlt
            exact absurd hlt (Nat.lt_irrefl _)
          · obtain ⟨ds, hds, -⟩ := hnotes m hm hjob
            rw [hdown, hbefore] at hds
            cases hds

/-- The ids of a run only grow. -/
theorem exec_downstreamIdFactory (s : ChannelManager env.channels) (es : List Event) :
    s.downstreamIdFactory ≤ (exec ChannelManager.step s es).downstreamIdFactory := by
  induction es generalizing s with
  | nil => exact le_rfl
  | cons e es ih => exact Nat.le_trans (step_downstreamIdFactory s e) (ih _)

/-- A connection that is there has its flag: its id is not given out again. -/
theorem Spared.flag {pre post : List Event} (h : Spared s₀ pre (exec ChannelManager.step s₀ pre))
    (hd : RequiredCustomWork s₀ (pre ++ post) d) {ds : Downstream env.channels}
    (hds : (exec ChannelManager.step s₀ pre).downstreams.lookup d = some ds) :
    ds.requiresCustomWork = true := by
  obtain ⟨pre₀, std, post₀, heq, hbefore, hafter⟩ := hd
  rcases List.append_eq_append_iff.mp heq with ⟨mid, rfl, -⟩ | ⟨mid, rfl, hmid⟩
  · -- the connection comes later, so its id is not below the counter now
    have hlt := h.numbered.downstream d ds hds
    have hle := exec_downstreamIdFactory (exec ChannelManager.step s₀ pre) mid
    rw [← exec_append] at hle
    cases hrun : (exec ChannelManager.step s₀ (pre ++ mid)).running with
    | false =>
        rw [step_of_stopped _ _ hrun] at hafter
        exact absurd hbefore hafter
    | true =>
        obtain ⟨rfl, -⟩ := connected_custom hrun hbefore hafter
        exact absurd (Nat.lt_of_lt_of_le hlt hle) (Nat.lt_irrefl _)
  · cases mid with
    | nil =>
        rw [List.append_nil, hbefore] at hds
        cases hds
    | cons e mid =>
        obtain ⟨rfl, -⟩ := List.cons.inj hmid
        exact (h.custom d ⟨pre₀, std, mid, rfl, hbefore, hafter⟩).2.1 ds hds

/-- In every run whose fee ticks spare the custom work, a downstream that set `REQUIRES_CUSTOM_WORK`
is sent no job, and the active jobs of its extended channels change with custom jobs and previous
hashes only. -/
theorem custom_work_excluded (law : env.channels.Lawful) {config : Config} {now : UInt64}
    (hstart : start env config now = .ok s₀) (hc : Along ChannelManager.step SparesCustomWork s₀ es)
    (hd : RequiredCustomWork s₀ es d) : Excluded s₀ es d := by
  have hinit : Spared s₀ [] s₀ := by
    obtain ⟨outputs, rfl⟩ := start_eq_ok hstart
    exact spared_initial config outputs
  have hspared : ∀ pre, Along ChannelManager.step SparesCustomWork s₀ pre →
      Spared s₀ pre (exec ChannelManager.step s₀ pre) :=
    fun pre hpre => exec_induct_events (fun _ _ h hc => spared_step law h hc) hinit hpre
  refine ⟨((hspared es hc).custom d hd).2.2, ?_⟩
  rintro pre e post rfl c ch ch' hch hch' hne
  obtain ⟨hpre, he, -⟩ := along_append.mp hc
  have hnow := hspared pre hpre
  obtain ⟨ds, hds, -⟩ := channel?_eq_some.mp hch
  have hcustom := hnow.flag hd hds
  have hrun : (exec ChannelManager.step s₀ pre).running = true := by
    by_contra hstop
    rw [step_of_stopped _ e (by simpa using hstop)] at hch'
    rw [Option.some.inj (hch.symm.trans hch')] at hne
    exact hne rfl
  exact step_activeJob law hrun hnow.numbered he hds hcustom hch hch' hne

end Run

/-! ### A custom work downstream in a GridPool pool -/

/-- The configuration of a pool in GridPool mode with an embedded job declarator. -/
def declaringConfig : Config :=
  { Reference.gridpoolConfig with jobDeclarator := true }

/-- Its manager. -/
def declaringManager : ChannelManager Reference.env.channels :=
  .initial declaringConfig [⟨1, Reference.fallbackScript⟩, ⟨100, Reference.operatorScript⟩]

theorem start_declaringManager : start Reference.env declaringConfig 0 = .ok declaringManager := by
  have houtputs : (Reference.client "tip" [Reference.suffixOutput 100]).constraintOutputs
      Reference.env.readAddress 0 = .ok [⟨1, Reference.fallbackScript⟩,
        ⟨100, Reference.operatorScript⟩] := by
    decide +kernel
  simp only [start, declaringConfig, Reference.gridpoolConfig, Reference.config, houtputs]
  rfl

/-- A tick spares the custom work if only other downstreams have channels. -/
theorem spares_of_slots {s : ChannelManager env.channels} {now : UInt64}
    {clock : DownstreamId → ChannelId → UInt64}
    (h : s.slots.all fun x => (s.downstreams.lookup x.downstream).all (!·.requiresCustomWork)) :
    SparesCustomWork s (.feeTick now clock) := by
  intro g last t _ _ _ x hx _ ds hds
  have hplain := List.all_eq_true.mp h x ((List.takeWhile_sublist _).mem hx)
  rw [hds] at hplain
  simpa using hplain

/-- The first template, a downstream of each kind, a channel of the first one, and a tick that
rotates this channel; then the second one opens a channel and gets a custom job for it. -/
def customJob : List Event :=
  [.newTemplate (Reference.template 1 true 5000000000) (fun _ => .error "unreachable")
      (fun _ _ => 0),
    .setNewPrevHash (Reference.prevHash 1 1), .connect false false, .connect false true,
    .openChannel .extended 1 Reference.openRequest (.ok [1, 2, 3, 4]) 0,
    .poll (.ok (Reference.selection "tip" [Reference.suffixOutput 200])), .feeTick 0 (fun _ _ => 0),
    .openChannel .extended 2 Reference.openRequest (.ok [1, 2, 3, 5]) 0,
    .setCustomMiningJob 2 ⟨2, 1, List.replicate 32 1⟩ .success]

/-- The number of the active job of the second downstream's channel. -/
def customJobId (s : ChannelManager Reference.env.channels) : Option JobId :=
  (s.channel? 2 .extended 2).bind fun ch => (Reference.storeOps.activeJob ch).map (·.jobId)

/-- A custom job that is set after the tick is the active one. -/
theorem custom_job_after_tick :
    start Reference.env declaringConfig 0 = .ok declaringManager ∧
      customJobId (exec ChannelManager.step declaringManager customJob) = some 1 ∧
      Excluded declaringManager customJob 2 := by
  refine ⟨start_declaringManager, by decide +kernel, ?_⟩
  refine custom_work_excluded Reference.channels_lawful start_declaringManager
    ⟨trivial, trivial, trivial, trivial, trivial, trivial, ?_, trivial, trivial, trivial⟩ ?_
  · exact spares_of_slots (by decide +kernel)
  · exact ⟨customJob.take 3, false, customJob.drop 4, rfl, by decide +kernel, by decide +kernel⟩

/-- The first template, a downstream with custom work and its extended channel, and a tick. -/
def customTick : List Event :=
  [.newTemplate (Reference.template 1 true 5000000000) (fun _ => .error "unreachable")
      (fun _ _ => 0),
    .setNewPrevHash (Reference.prevHash 1 1), .connect false true,
    .openChannel .extended 1 Reference.openRequest (.ok [1, 2, 3, 4]) 0, .feeTick 0 (fun _ _ => 0)]

/-- The tick sends the channel a job of the pool. -/
theorem tick_sends_custom_work_a_job :
    start Reference.env declaringConfig 0 = .ok declaringManager ∧
      RequiredCustomWork declaringManager customTick 1 ∧
        ¬ Excluded declaringManager customTick 1 := by
  refine ⟨start_declaringManager, ⟨customTick.take 2, false, customTick.drop 3, rfl,
    by decide +kernel, by decide +kernel⟩, ?_⟩
  intro h
  have hsent : (messages (exec ChannelManager.step declaringManager customTick).history).any
      (fun m => decide (m.downstream = 1) && m.message.isJob) = true := by
    decide +kernel
  obtain ⟨m, hm, hjob⟩ := List.any_eq_true.mp hsent
  rw [Bool.and_eq_true, decide_eq_true_iff] at hjob
  obtain ⟨x, hx, hxm⟩ := List.mem_filterMap.mp hm
  cases x with
  | built b => cases hxm
  | sent m' =>
      obtain rfl := Option.some.inj hxm
      rw [h.unsent m' hx hjob.1] at hjob
      cases hjob.2

end GridPoolSv2.Pool
