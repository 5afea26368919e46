import GridPoolSv2.Lib.Runs
import GridPoolSv2.Pool.History

/-!
# Pool.FeeRotation: when the fee tick leaves a job alone

`refresh_gridpool_fee_jobs` recomputes the outputs of every GridPool channel from the last
future template, and rotates the channel when they are not the ones of its active job.
The active job may come from a later template. `Recorded` is the invariant that ties every
job of a channel to the note of how it was built: channels, downstreams and jobs are
numbered by counters, so the note of a job is the only one with its number.

`fee_tick_keeps_job` says that a tick with the same work selection and fee state as at the
time the active job was built leaves the job alone, if the value of its template is the
value of the last future template.
-/

namespace GridPoolSv2.Pool

open Consensus (Bytes TxOut)
open Runs Visit ChannelManager

variable {env : Env}

/-! ### The jobs of a channel -/

/-- `j` is the active job or a future job. -/
def HasJob (ch : env.channels.Channel) (j : Job) : Prop :=
  env.channels.channel.activeJob ch = some j ∨ ∃ u, env.channels.channel.futureJob ch u = some j

/-- `j'` is `j`, possibly activated. -/
structure SameJob (j j' : Job) : Prop where
  jobId : j'.jobId = j.jobId
  origin : j'.origin = j.origin
  coinbaseOutputs : j'.coinbaseOutputs = j.coinbaseOutputs

theorem SameJob.refl (j : Job) : SameJob j j := ⟨rfl, rfl, rfl⟩

theorem SameJob.trans {j₁ j₂ j₃ : Job} (h : SameJob j₁ j₂) (h' : SameJob j₂ j₃) : SameJob j₁ j₃ :=
  ⟨h'.jobId.trans h.jobId, h'.origin.trans h.origin, h'.coinbaseOutputs.trans h.coinbaseOutputs⟩

/-- The jobs of `ch'` are jobs of `ch`, or new ones with numbers of the counter in between. -/
structure Evolves (ch ch' : env.channels.Channel) : Prop where
  counter : env.channels.channel.nextJobId ch ≤ env.channels.channel.nextJobId ch'
  jobs : ∀ j', HasJob ch' j' → (∃ j, HasJob ch j ∧ SameJob j j') ∨
    (env.channels.channel.nextJobId ch ≤ j'.jobId ∧ j'.jobId < env.channels.channel.nextJobId ch')

theorem Evolves.refl (ch : env.channels.Channel) : Evolves ch ch :=
  ⟨le_rfl, fun j hj => .inl ⟨j, hj, .refl j⟩⟩

theorem Evolves.trans {ch₁ ch₂ ch₃ : env.channels.Channel} (h : Evolves ch₁ ch₂)
    (h' : Evolves ch₂ ch₃) : Evolves ch₁ ch₃ where
  counter := Nat.le_trans h.counter h'.counter
  jobs := by
    intro j₃ hj₃
    rcases h'.jobs j₃ hj₃ with ⟨j₂, hj₂, hsame⟩ | ⟨hlo, hhi⟩
    · rcases h.jobs j₂ hj₂ with ⟨j₁, hj₁, hsame'⟩ | ⟨hlo, hhi⟩
      · exact .inl ⟨j₁, hj₁, hsame'.trans hsame⟩
      · rw [← hsame.jobId] at hlo hhi
        exact .inr ⟨hlo, Nat.lt_of_lt_of_le hhi h'.counter⟩
    · exact .inr ⟨Nat.le_trans h.counter hlo, hhi⟩

section Law

variable (law : env.channels.Lawful) {ch ch' : env.channels.Channel}

include law

/-- A template adds the one job that is built from it. -/
theorem jobs_onNewTemplate {t : NewTemplate} {outputs : List TxOut}
    (h : env.channels.channel.onNewTemplate ch t outputs = .ok ch') :
    env.channels.channel.nextJobId ch' = env.channels.channel.nextJobId ch + 1 ∧
      ∀ j, HasJob ch' j → HasJob ch j ∨ BuiltFrom j (env.channels.channel.nextJobId ch) t
        outputs := by
  cases hf : t.futureTemplate with
  | true =>
      obtain ⟨j, hb, hfuture, hactive, -, hnext⟩ := law.channel.onNewTemplate_future h hf
      refine ⟨hnext, fun j' hj' => ?_⟩
      rcases hj' with hj' | ⟨u, hj'⟩
      · exact .inl (.inl (hactive.symm.trans hj'))
      · rw [hfuture] at hj'
        by_cases hu : u = t.templateId
        · subst hu
          rw [Function.update_self] at hj'
          obtain rfl := Option.some.inj hj'
          exact .inr hb
        · rw [Function.update_of_ne hu] at hj'
          exact .inl (.inr ⟨u, hj'⟩)
  | false =>
      obtain ⟨j, hb, hactive, hfuture, -, hnext⟩ := law.channel.onNewTemplate_active h hf
      refine ⟨hnext, fun j' hj' => ?_⟩
      rcases hj' with hj' | ⟨u, hj'⟩
      · obtain rfl := Option.some.inj (hactive.symm.trans hj')
        exact .inr hb
      · rw [hfuture] at hj'
        exact .inl (.inr ⟨u, hj'⟩)

theorem evolves_onNewTemplate {t : NewTemplate} {outputs : List TxOut}
    (h : env.channels.channel.onNewTemplate ch t outputs = .ok ch') : Evolves ch ch' := by
  obtain ⟨hnext, hjobs⟩ := jobs_onNewTemplate law h
  refine ⟨hnext ▸ Nat.le_succ _, fun j hj => ?_⟩
  refine (hjobs j hj).imp (fun hj => ⟨j, hj, .refl j⟩) fun hb => ?_
  rw [hb.jobId, hnext]
  exact ⟨le_rfl, Nat.lt_succ_self _⟩

theorem evolves_onSetNewPrevHash {m : SetNewPrevHash}
    (h : env.channels.channel.onSetNewPrevHash ch m = .ok ch') : Evolves ch ch' := by
  obtain ⟨-, hnext⟩ := law.channel.onSetNewPrevHash_tip h
  refine ⟨hnext.ge, fun j' hj' => .inl ?_⟩
  rcases hj' with hj' | ⟨u, hj'⟩
  · cases hfuture : env.channels.channel.futureJob ch m.templateId with
    | some j =>
        have hactive := law.channel.onSetNewPrevHash_activates h hfuture
        obtain rfl := Option.some.inj (hactive.symm.trans hj')
        exact ⟨j, .inr ⟨_, hfuture⟩, rfl, rfl, rfl⟩
    | none =>
        obtain ⟨-, hactive⟩ := law.channel.onSetNewPrevHash_unmatched h hfuture
        exact ⟨j', .inl (hactive.symm.trans hj'), .refl j'⟩
  · exact ⟨j', .inr ⟨u, (law.channel.onSetNewPrevHash_future h hj').2⟩, .refl j'⟩

theorem evolves_onSetCustomMiningJob {m : SetCustomMiningJob} {i : JobId}
    (h : env.channels.onSetCustomMiningJob ch m = .ok (i, ch')) : Evolves ch ch' := by
  obtain ⟨⟨j, hactive, hid, -⟩, hfuture, hi, hnext, -⟩ := law.onSetCustomMiningJob h
  refine ⟨hnext ▸ Nat.le_succ _, fun j' hj' => ?_⟩
  rcases hj' with hj' | ⟨u, hj'⟩
  · obtain rfl := Option.some.inj (hactive.symm.trans hj')
    rw [hid, hi, hnext]
    exact .inr ⟨le_rfl, Nat.lt_succ_self _⟩
  · rw [hfuture] at hj'
    exact .inl ⟨j', .inr ⟨u, hj'⟩, .refl j'⟩

/-- A new channel has no jobs. -/
theorem not_hasJob_of_isNew (h : IsNew env ch) (j : Job) : ¬ HasJob ch j := by
  obtain ⟨hactive, hfuture, -⟩ := h.empty law
  rintro (hj | ⟨u, hj⟩)
  · rw [hactive] at hj
    cases hj
  · rw [hfuture u] at hj
    cases hj

/-- In GridPool mode a channel evolves from what it was, or from a new one under a fresh number. -/
theorem channelStep_evolves {s s' : ChannelManager env.channels} {e : Event} {d : DownstreamId}
    {c : ChannelId} {before : Option env.channels.Channel} (hg : s.gridpool ≠ none)
    (h : ChannelStep s e s' d c before (some ch')) :
    (∃ ch, before = some ch ∧ Evolves ch ch') ∨
      ∃ new ds, IsNew env new ∧ s.downstreams.lookup d = some ds ∧ c = ds.channelIdFactory ∧
        Evolves new ch' := by
  cases h with
  | same => exact .inl ⟨ch', rfl, .refl ch'⟩
  | template _ hok => exact .inl ⟨_, rfl, evolves_onNewTemplate law hok⟩
  | groupJob _ hnone => exact absurd hnone hg
  | prevHash _ _ _ hok => exact .inl ⟨_, rfl, evolves_onSetNewPrevHash law hok⟩
  | custom _ _ hok => exact .inl ⟨_, rfl, evolves_onSetCustomMiningJob law hok⟩
  | opened _ hds hc _ _ _ hnew hfirst =>
      obtain ⟨mid, hmid, -, hch⟩ := firstJob_eq_ok hfirst
      exact .inr ⟨_, _, hnew, hds, hc,
        (evolves_onNewTemplate law hmid).trans (evolves_onSetNewPrevHash law hch)⟩
  | openedCustom _ hds hc _ _ hnew hok =>
      exact .inr ⟨_, _, hnew, hds, hc, evolves_onSetNewPrevHash law hok⟩

end Law

/-! ### The invariant

The note of a job has what the tick compares with: the selection, the fee state and the payout. -/

/-- What the note of a built job says about its channel: the job with its number is the job of the
note, and its outputs are the ones of the channel's payout. -/
structure RecordOf (s : ChannelManager env.channels) (b : Built) (ch : env.channels.Channel) :
    Prop where
  jobId : b.jobId < env.channels.channel.nextJobId ch
  job : ∀ j, HasJob ch j → j.jobId = b.jobId →
    j.origin = .newTemplate b.template ∧ ∃ rest, j.coinbaseOutputs = b.outputs ++ rest
  computed : ∃ g payout, s.gridpool = some g ∧
    s.gridpoolChannels (b.downstream, b.channel) = some payout ∧
    outputsFor env.readAddress b.work (g.slotZeroAddress payout b.fee)
      b.template.coinbaseTxValueRemaining = .ok b.outputs

/-- The number of a note is below the counters. -/
structure Past (s : ChannelManager env.channels) (b : Built) : Prop where
  downstream : b.downstream < s.downstreamIdFactory
  channel : ∀ ds, s.downstreams.lookup b.downstream = some ds → b.channel < ds.channelIdFactory

structure Recorded (s : ChannelManager env.channels) : Prop where
  numbered : Numbered s
  gridpool : s.gridpool ≠ none
  counted : ∀ d k c ch, s.channel? d k c = some ch → ∀ j, HasJob ch j →
    j.jobId < env.channels.channel.nextJobId ch
  past : ∀ b, .built b ∈ s.history → Past s b
  built : ∀ b, .built b ∈ s.history → ∀ ch,
    s.channel? b.downstream b.kind b.channel = some ch → RecordOf s b ch

theorem recorded_initial {config : Config} (hg : config.gridpool ≠ none) (outputs : List TxOut) :
    Recorded (initial config outputs : ChannelManager env.channels) where
  numbered := numbered_initial config outputs
  gridpool := hg
  counted := by
    intro d k c ch h
    cases h
  past := by simp [initial]
  built := by simp [initial]

section Step

variable {s : ChannelManager env.channels} {e : Event}

/-- The client in force keeps the address slot zero pays. -/
theorem step_client (hg : s.gridpool ≠ none) (e : Event) :
    ∃ g g', s.gridpool = some g ∧ (s.step e).gridpool = some g' ∧
      ∀ payout fee, g'.slotZeroAddress payout fee = g.slotZeroAddress payout fee := by
  have hstep := step_gridpool s e
  obtain ⟨g, hsome⟩ := Option.ne_none_iff_exists'.mp hg
  rw [hsome] at hstep
  generalize hafter : (s.step e).gridpool = after at hstep
  cases hstep with
  | same => exact ⟨g, g, hsome, rfl, fun _ _ => rfl⟩
  | installed hinstalls hsame =>
      rename_i g'
      refine ⟨g, g', hsome, rfl, fun payout fee => ?_⟩
      simp [GridPoolClient.slotZeroAddress, hsame.config]

/-- A record stays true of its channel. -/
theorem RecordOf.step {b : Built} {ch ch' : env.channels.Channel} (h : RecordOf s b ch)
    (hevolves : Evolves ch ch') (hg : s.gridpool ≠ none)
    (hpayout : (s.step e).gridpoolChannels (b.downstream, b.channel) =
      s.gridpoolChannels (b.downstream, b.channel)) : RecordOf (s.step e) b ch' where
  jobId := Nat.lt_of_lt_of_le h.jobId hevolves.counter
  job := by
    intro j' hj' hid
    rcases hevolves.jobs j' hj' with ⟨j, hj, hsame⟩ | ⟨hlo, -⟩
    · rw [hsame.origin, hsame.coinbaseOutputs]
      exact h.job j hj (hsame.jobId.symm.trans hid)
    · rw [hid] at hlo
      exact absurd h.jobId (Nat.not_lt.mpr hlo)
  computed := by
    obtain ⟨g, payout, hsome, hpaid, hcomputed⟩ := h.computed
    obtain ⟨g₀, g', hsome₀, hsome', haddress⟩ := step_client hg e
    obtain rfl := Option.some.inj (hsome.symm.trans hsome₀)
    exact ⟨g', payout, hsome', hpayout.trans hpaid, by rw [haddress, hcomputed]⟩

/-- The job that was just built is the only one with its number. -/
theorem recordOf_builtNow (law : env.channels.Lawful) {s' : ChannelManager env.channels} {b : Built}
    {ch ch' : env.channels.Channel} {g : GridPoolClient} {payout : ChannelPayout} {now : UInt64}
    (h : BuiltNow s s' b ch ch' g payout now)
    (hcounted : ∀ d k c ch, s.channel? d k c = some ch → ∀ j, HasJob ch j →
      j.jobId < env.channels.channel.nextJobId ch) : RecordOf s' b ch' := by
  have hcomputed : ∃ g payout, s'.gridpool = some g ∧
      s'.gridpoolChannels (b.downstream, b.channel) = some payout ∧
      outputsFor env.readAddress b.work (g.slotZeroAddress payout b.fee)
        b.template.coinbaseTxValueRemaining = .ok b.outputs := by
    refine ⟨g, payout, h.gridpool, h.paid, ?_⟩
    rw [h.work, h.fee]
    exact h.computed
  -- after the template, the job with this number is the one that was built
  have hmid : ∀ {mid}, env.channels.channel.onNewTemplate ch b.template b.outputs = .ok mid →
      (∀ j, HasJob ch j → j.jobId < env.channels.channel.nextJobId ch) →
      b.jobId < env.channels.channel.nextJobId mid ∧ ∀ j, HasJob mid j → j.jobId = b.jobId →
        j.origin = .newTemplate b.template ∧ ∃ rest, j.coinbaseOutputs = b.outputs ++ rest := by
    intro mid hok hless
    obtain ⟨hnext, hjobs⟩ := jobs_onNewTemplate law hok
    refine ⟨by rw [h.jobId, hnext]; exact Nat.lt_succ_self _, fun j hj hid => ?_⟩
    rcases hjobs j hj with hold | hb
    · exact absurd (hid.trans h.jobId) (Nat.ne_of_lt (hless j hold))
    · exact ⟨hb.origin, hb.outputs⟩
  rcases h.given with ⟨hbefore, hok⟩ | ⟨hnew, -, mid, m, hok, hprev⟩
  · obtain ⟨hlt, hjob⟩ := hmid hok (hcounted _ _ _ ch hbefore)
    exact ⟨hlt, hjob, hcomputed⟩
  · obtain ⟨hlt, hjob⟩ := hmid hok fun j hj => absurd hj (not_hasJob_of_isNew law hnew j)
    have hevolves := evolves_onSetNewPrevHash law hprev
    refine ⟨Nat.lt_of_lt_of_le hlt hevolves.counter, fun j' hj' hid => ?_, hcomputed⟩
    rcases hevolves.jobs j' hj' with ⟨j, hj, hsame⟩ | ⟨hlo, -⟩
    · rw [hsame.origin, hsame.coinbaseOutputs]
      exact hjob j hj (hsame.jobId.symm.trans hid)
    · rw [hid] at hlo
      exact absurd hlt (Nat.not_lt.mpr hlo)

theorem Past.step {b : Built} (h : Past s b) (hrun : s.running = true) : Past (s.step e) b where
  downstream := Nat.lt_of_lt_of_le h.downstream (step_downstreamIdFactory s e)
  channel := by
    intro ds' hds'
    rcases step_downstream s e hrun hds' with ⟨ds, hds, hflags⟩ | ⟨hd, -⟩
    · exact Nat.lt_of_lt_of_le (h.channel ds hds) hflags.channelIdFactory
    · exact absurd hd (Nat.ne_of_lt h.downstream)

theorem recorded_step (law : env.channels.Lawful) (h : Recorded s) (e : Event) :
    Recorded (s.step e) := by
  cases hrun : s.running with
  | false =>
      rw [step_of_stopped s e hrun]
      exact h
  | true =>
      have hnumbered := numbered_step law h.numbered e
      refine ⟨hnumbered, ?_, ?_, ?_, ?_⟩
      · obtain ⟨-, g', -, hg', -⟩ := step_client h.gridpool e
        simp [hg']
      · intro d k c ch' hch' j hj
        have hstep := step_channel law s e hrun d k c
        rw [hch'] at hstep
        rcases channelStep_evolves law h.gridpool hstep with ⟨ch, hch, hevolves⟩ | ⟨new, ds, hnew,
          -, -, hevolves⟩
        · rcases hevolves.jobs j hj with ⟨j₀, hj₀, hsame⟩ | ⟨-, hlt⟩
          · rw [hsame.jobId]
            exact Nat.lt_of_lt_of_le (h.counted d k c ch hch j₀ hj₀) hevolves.counter
          · exact hlt
        · rcases hevolves.jobs j hj with ⟨j₀, hj₀, -⟩ | ⟨-, hlt⟩
          · exact absurd hj₀ (not_hasJob_of_isNew law hnew j₀)
          · exact hlt
      · intro b hb
        rcases step_built s e hb with hold | ⟨ch, ch', g, payout, now, hnow⟩
        · exact (h.past b hold).step hrun
        · obtain ⟨ds', hds', hlookup'⟩ := channel?_eq_some.mp hnow.after
          refine ⟨hnumbered.downstream _ _ hds', fun ds hds => ?_⟩
          obtain rfl := Option.some.inj (hds.symm.trans hds')
          exact hnumbered.channel _ _ _ _ _ hds hlookup'
      · intro b hb ch' hch'
        rcases step_built s e hb with hold | ⟨ch, ch'', g, payout, now, hnow⟩
        · have hstep := step_channel law s e hrun b.downstream b.kind b.channel
          rw [hch'] at hstep
          rcases channelStep_evolves law h.gridpool hstep with
            ⟨ch, hch, hevolves⟩ | ⟨new, ds, -, hds, hc, -⟩
          · obtain ⟨ds, hds, -⟩ := channel?_eq_some.mp hch
            exact (h.built b hold ch hch).step hevolves h.gridpool
              (step_payout s e hds ((h.past b hold).channel ds hds) hch')
          · exact absurd hc (Nat.ne_of_lt ((h.past b hold).channel ds hds))
        · obtain rfl := Option.some.inj (hnow.after.symm.trans hch')
          exact recordOf_builtNow law hnow h.counted

end Step

/-! ### The tick -/

theorem Mining.job_inj {k k' : ChannelKind} {c c' : ChannelId} {j j' : Job}
    (h : Mining.job k c j = Mining.job k' c' j') : k = k' ∧ c = c' := by
  cases k <;> cases k' <;> cases h <;> exact ⟨rfl, rfl⟩

/-- The work selection and the fee state of a channel are the ones its job `j` was built under. -/
def SameAsBuilt (s : ChannelManager env.channels) (clock : DownstreamId → ChannelId → UInt64)
    (d : DownstreamId) (k : ChannelKind) (c : ChannelId) (j : Job) : Prop :=
  ∃ b g payout, .built b ∈ s.history ∧ b.downstream = d ∧ b.kind = k ∧ b.channel = c ∧
    b.jobId = j.jobId ∧ s.gridpool = some g ∧ s.gridpoolChannels (d, c) = some payout ∧
    g.work = b.work ∧ g.feeActive payout.payoutAddress (clock d c) = b.fee

/-- The last future template has the value of the job's own template. -/
def SameValue (s : ChannelManager env.channels) (j : Job) : Prop :=
  ∀ t last, j.template? = some t → s.lastFutureTemplate = some last →
    t.coinbaseTxValueRemaining = last.coinbaseTxValueRemaining

/-- The channel is as it was, and no job was sent to it. -/
def LeftAlone (s s' : ChannelManager env.channels) (d : DownstreamId) (k : ChannelKind)
    (c : ChannelId) (ch : env.channels.Channel) : Prop :=
  s'.channel? d k c = some ch ∧ ∃ notes, s'.history = s.history ++ notes ∧
    ∀ m, .sent m ∈ notes → m.downstream = d → ∀ job, m.message ≠ .job k c job

section Tick

variable {s : ChannelManager env.channels} {clock : DownstreamId → ChannelId → UInt64}
  {d : DownstreamId} {k : ChannelKind} {c : ChannelId} {ch : env.channels.Channel} {j : Job}

/-- The outputs the tick computes are the ones of the job. -/
theorem refreshChannel_keep (h : Recorded s) (hch : s.channel? d k c = some ch)
    (hj : env.channels.channel.activeJob ch = some j) (hsame : SameAsBuilt s clock d k c j)
    (hvalue : SameValue s j) {g : GridPoolClient} (hg : s.gridpool = some g) {last t : NewTemplate}
    {now : UInt64} (hlast : s.lastFutureTemplate = some last) (htick : IsTick last now t) :
    s.refreshChannel g t clock d k c ch = .keep ch := by
  obtain ⟨b, g₁, payout, hb, rfl, rfl, rfl, hid, hg₁, hpayout, hwork, hfee⟩ := hsame
  obtain rfl := Option.some.inj (hg.symm.trans hg₁)
  have hrecord := h.built b hb ch hch
  obtain ⟨horigin, rest, hrest⟩ := hrecord.job j (.inl hj) hid.symm
  obtain ⟨g₂, payout₂, hg₂, hpayout₂, hcomputed⟩ := hrecord.computed
  obtain rfl := Option.some.inj (hg.symm.trans hg₂)
  obtain rfl := Option.some.inj (hpayout.symm.trans hpayout₂)
  have htotal : t.coinbaseTxValueRemaining = b.template.coinbaseTxValueRemaining := by
    rw [htick.value, hvalue b.template last (by simp [Job.template?, horigin]) hlast]
  have houtputs : g.coinbaseOutputs env.readAddress payout t.coinbaseTxValueRemaining
      (clock b.downstream b.channel) = .ok b.outputs := by
    rw [GridPoolClient.coinbaseOutputs, hwork, hfee, htotal, hcomputed]
  have hpre : b.outputs.isPrefixOf j.coinbaseOutputs = true := by
    rw [hrest, List.isPrefixOf_iff_prefix]
    exact List.prefix_append _ _
  simp [refreshChannel, hpayout, houtputs, hj, hpre]

/-- A tick that keeps a channel leaves it alone. -/
theorem leftAlone_of_keep (hch : s.channel? d k c = some ch) (now : UInt64)
    (hkeep : ∀ g last t, s.gridpool = some g → s.lastFutureTemplate = some last →
      IsTick last now t → s.refreshChannel g t clock d k c ch = .keep ch) :
    LeftAlone s (s.step (.feeTick now clock)) d k c ch := by
  have hidle : LeftAlone s s d k c ch := ⟨hch, [], by simp, by simp⟩
  cases hrun : s.running with
  | false =>
      rw [step_of_stopped _ _ hrun]
      exact hidle
  | true =>
      simp only [ChannelManager.step, hrun, Bool.not_true, Bool.false_eq_true, if_false]
      rcases refreshGridpoolFeeJobs_cases s now clock with
        hsame | ⟨g, last, t, hg, hlast, htick, hr⟩
      · rw [hsame]
        exact hidle
      have hkept := hkeep g last t hg hlast htick
      obtain ⟨ds, hds, hlookup⟩ := channel?_eq_some.mp hch
      have hne : ChannelKind.standard ≠ .extended := by decide
      rw [hr, conclude_fst]
      refine ⟨?_, _, rfl, ?_⟩
      · rw [channel?]
        rcases visit_entry (fun d ds => Downstream.visitBoth .standard .extended
          (s.refreshChannel g t clock d) ds) s.downstreams d with
          ⟨hnone, -⟩ | ⟨ds₀, hds₀, ⟨hval, -⟩ | ⟨hval, -⟩⟩
        · rw [hds] at hnone
          cases hnone
        · obtain rfl := Option.some.inj (hds.symm.trans hds₀)
          rw [hval, Option.bind_some, hlookup]
        · obtain rfl := Option.some.inj (hds.symm.trans hds₀)
          rw [hval, Option.bind_some]
          rcases Downstream.visitBoth_lookup hne (s.refreshChannel g t clock d) ds k c with
            hsame | ⟨ch₀, hch₀, hvalue, -⟩
          · rw [hsame, hlookup]
          · obtain rfl := Option.some.inj (hlookup.symm.trans hch₀)
            rw [hvalue, hkept, Outcome.keep_value]
      · rintro m hm rfl job hjob
        obtain ⟨d₀, ds₀, hds₀, hnote, -⟩ := mem_visit_notes (mem_keptNotes hm)
        obtain ⟨k₀, c₀, ch₀, hch₀, hnote, -⟩ := Downstream.mem_visitBoth_notes hne hnote
        rcases refreshChannel_cases d₀ k₀ c₀ ch₀ t s clock g with ⟨-, hn⟩ | ⟨payout, outputs,
          -, hb, -⟩
        · simp [hn] at hnote
        · rcases hb.notes with ⟨hn, -⟩ | ⟨job₀, -, -, hn⟩
          · simp [hn, builtNote] at hnote
          · -- the message is the one of this channel, but the channel was kept
            have hm : m = ⟨d₀, .job k₀ c₀ job₀, [c₀]⟩ := by
              simpa [hn, builtNote] using hnote
            subst hm
            obtain ⟨rfl, rfl⟩ := Mining.job_inj hjob
            obtain rfl := Option.some.inj (hds.symm.trans hds₀)
            obtain rfl := Option.some.inj (hlookup.symm.trans hch₀)
            rw [hkept] at hn
            simp at hn

end Tick

/-- In every run of a pool in GridPool mode: a fee tick with the work selection and the fee state a
channel's active job was built under leaves this job alone, if the value of its template is the
value of the last future template. -/
theorem fee_tick_keeps_job (law : env.channels.Lawful) {config : Config}
    (hg : config.gridpool ≠ none) {now₀ : UInt64} {s₀ : ChannelManager env.channels}
    (hstart : start env config now₀ = .ok s₀) (es : List Event) {now : UInt64}
    {clock : DownstreamId → ChannelId → UInt64} {d : DownstreamId} {k : ChannelKind} {c : ChannelId}
    {ch : env.channels.Channel} {j : Job} :
    let s := exec ChannelManager.step s₀ es
    s.channel? d k c = some ch → env.channels.channel.activeJob ch = some j →
      SameAsBuilt s clock d k c j → SameValue s j →
      LeftAlone s (s.step (.feeTick now clock)) d k c ch := by
  intro s hch hj hsame hvalue
  obtain ⟨outputs, rfl⟩ := start_eq_ok hstart
  have h : Recorded s :=
    exec_invariant (I := Recorded) (fun _ e h => recorded_step law h e)
      (recorded_initial hg outputs) es
  exact leftAlone_of_keep hch now fun g last t hg hlast htick =>
    refreshChannel_keep h hch hj hsame hvalue hg hlast htick

/-! ### A template of another value -/

/-- A client with an operator fee of 30 seconds in 1500. -/
def feeClient : GridPoolClient :=
  let client := Reference.client "tip" [Reference.suffixOutput 100]
  { client with config := { client.config with operatorFee := true } }

/-- The manager of a pool with this client. -/
def feeManager : ChannelManager Reference.env.channels :=
  initial (Reference.config (some feeClient))
    [⟨1, Reference.fallbackScript⟩,
      ⟨100, Reference.operatorScript⟩]

/-- A channel is opened on the first template, and then gets a second one for the same tip, which
has another value. -/
def secondTemplate (value : UInt64) : List Event :=
  [.newTemplate (Reference.template 1 true 5000000000) (fun _ => .error "unreachable")
      (fun _ _ => 0),
    .setNewPrevHash (Reference.prevHash 1 1), .connect false false,
    .openChannel .extended 1 Reference.openRequest (.ok [1, 2, 3, 4]) 0,
    .newTemplate (Reference.template 2 false value) (fun _ => .error "unreachable") (fun _ _ => 0)]

/-- The note of the job from the second template. -/
def secondBuilt (value : UInt64) : Built where
  downstream := 1
  kind := .extended
  channel := 2
  jobId := 2
  template := Reference.template 2 false value
  outputs := [⟨value - 100, Reference.fallbackScript⟩,
    ⟨100, Reference.operatorScript⟩]
  work := feeClient.work
  fee := false

/-- The number of the active job of the channel opened in the run, with the id and the value of its
template. -/
def activeJobOf (s : ChannelManager Reference.env.channels) :
    Option (JobId × Option (TemplateId × UInt64)) :=
  (s.channel? 1 .extended 2).bind fun ch => (Reference.storeOps.activeJob ch).map fun j =>
    (j.jobId, j.template?.map fun t => (t.templateId, t.coinbaseTxValueRemaining))

theorem start_feeManager :
    start Reference.env (Reference.config (some feeClient)) 0 = .ok feeManager := by
  have houtputs : feeClient.constraintOutputs Reference.env.readAddress 0 =
      .ok [⟨1, Reference.fallbackScript⟩,
        ⟨100, Reference.operatorScript⟩] := by
    decide +kernel
  simp only [start, Reference.config, houtputs]
  rfl

/-- The second job is active, and the work selection and the fee state are the ones of its note. -/
structure OnSecondJob (s : ChannelManager Reference.env.channels) (value : UInt64) : Prop where
  active : activeJobOf s = some (2, some (2, value))
  built : .built (secondBuilt value) ∈ s.history
  gridpool : s.gridpool = some feeClient
  payout : s.gridpoolChannels (1, 2) = some ⟨Reference.fallbackAddress, "garage-rig".toList⟩
  last : s.lastFutureTemplate = some (Reference.template 1 true 5000000000)

instance (s : ChannelManager Reference.env.channels) (value : UInt64) :
    Decidable (OnSecondJob s value) :=
  decidable_of_iff (activeJobOf s = some (2, some (2, value)) ∧
      .built (secondBuilt value) ∈ s.history ∧ s.gridpool = some feeClient ∧
      s.gridpoolChannels (1, 2) = some ⟨Reference.fallbackAddress, "garage-rig".toList⟩ ∧
      s.lastFutureTemplate = some (Reference.template 1 true 5000000000))
    ⟨fun ⟨hactive, hbuilt, hgridpool, hpayout, hlast⟩ =>
      ⟨hactive, hbuilt, hgridpool, hpayout, hlast⟩,
    fun h => ⟨h.active, h.built, h.gridpool, h.payout, h.last⟩⟩

/-- The second job is active, and nothing it was built from has changed. -/
theorem OnSecondJob.sameAsBuilt {s : ChannelManager Reference.env.channels} {value : UInt64}
    (h : OnSecondJob s value) :
    ∃ ch j, s.channel? 1 .extended 2 = some ch ∧ Reference.storeOps.activeJob ch = some j ∧
      j.template?.map (·.coinbaseTxValueRemaining) = some value ∧
      SameAsBuilt s (fun _ _ => 0) 1 .extended 2 j := by
  obtain ⟨ch, hch, hwork⟩ := Option.bind_eq_some_iff.mp h.active
  obtain ⟨j, hj, hpair⟩ := Option.map_eq_some_iff.mp hwork
  obtain ⟨hid, htemplate⟩ := Prod.mk.inj hpair
  obtain ⟨t, ht, hvalue⟩ := Option.map_eq_some_iff.mp htemplate
  have hfee : feeClient.feeActive Reference.fallbackAddress 0 = false := by decide +kernel
  refine ⟨ch, j, hch, hj, ?_, secondBuilt value, feeClient, _, h.built, rfl, rfl, rfl, hid.symm,
    h.gridpool, h.payout, rfl, hfee⟩
  rw [ht]
  exact congrArg some (Prod.mk.inj hvalue).2

theorem tick_keeps_second_job :
    let s := exec ChannelManager.step feeManager (secondTemplate 5000000000)
    activeJobOf s = some (2, some (2, 5000000000)) ∧ ∃ ch, s.channel? 1 .extended 2 = some ch ∧
      LeftAlone s (s.step (.feeTick 0 fun _ _ => 0)) 1 .extended 2 ch := by
  have h : OnSecondJob (exec ChannelManager.step feeManager (secondTemplate 5000000000))
      5000000000 := by
    decide +kernel
  obtain ⟨ch, j, hch, hj, hvalue, hsame⟩ := h.sameAsBuilt
  refine ⟨h.active, ch, hch, fee_tick_keeps_job Reference.channels_lawful
    (by simp [Reference.config]) start_feeManager (secondTemplate 5000000000) hch hj hsame ?_⟩
  intro t last ht hlast
  obtain rfl := Option.some.inj (h.last.symm.trans hlast)
  rw [ht] at hvalue
  exact Option.some.inj hvalue

theorem tick_replaces_second_job :
    let s := exec ChannelManager.step feeManager (secondTemplate 5000001000)
    start Reference.env (Reference.config (some feeClient)) 0 = .ok feeManager ∧
      activeJobOf s = some (2, some (2, 5000001000)) ∧
      activeJobOf (s.step (.feeTick 0 fun _ _ => 0)) = some (3, some (1, 5000000000)) ∧
      ∃ ch j, s.channel? 1 .extended 2 = some ch ∧ Reference.storeOps.activeJob ch = some j ∧
        SameAsBuilt s (fun _ _ => 0) 1 .extended 2 j ∧
        ¬ LeftAlone s (s.step (.feeTick 0 fun _ _ => 0)) 1 .extended 2 ch := by
  have h : OnSecondJob (exec ChannelManager.step feeManager (secondTemplate 5000001000))
      5000001000 := by
    decide +kernel
  have hafter : activeJobOf ((exec ChannelManager.step feeManager (secondTemplate 5000001000)).step
      (.feeTick 0 fun _ _ => 0)) = some (3, some (1, 5000000000)) := by
    decide +kernel
  obtain ⟨ch, j, hch, hj, -, hsame⟩ := h.sameAsBuilt
  refine ⟨start_feeManager, h.active, hafter, ch, j, hch, hj, hsame, ?_⟩
  rintro ⟨hkept, -⟩
  have hactive := h.active
  rw [activeJobOf, hch] at hactive
  rw [activeJobOf, hkept] at hafter
  rw [hactive] at hafter
  cases hafter

end GridPoolSv2.Pool
