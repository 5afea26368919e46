import GridPoolSv2.Pool.FeeRotation

/-!
# Pool.PayoutModes: whose payout mode a job follows

Without GridPool the outputs of a job come from a payout mode. An open handler uses the mode of the
request's own `user_identity` for the first job of the channel, and stores it as the mode of the
connection. `handle_new_template` reads the stored mode, which is that of the last request, for the
job of the group and of every channel.

`SameModes` says that the outputs of the stored mode are those of every channel's own mode whenever
a template arrives. In the runs that meet it every job of every channel follows the channel's own
identity.

Proof shape: `Pays` says of one channel that its active job and its future jobs follow a mode, and
each job method of `channels_sv2` keeps it. `GivenOutputs` and `OpensOwn` are the two places where
jobs come from, a template and an open. `Owned` is the invariant of a run: every channel pays the
mode it was opened with, and the stored mode of a connection is that of its last request. The ghost
is the run itself, in which `OpenedAs` finds the request of a channel.

The condition is about the outputs of the modes, and not about the modes, because two identities
with different worker names give the same outputs.
-/

namespace GridPoolSv2.Pool

open Consensus (Bytes TxOut)
open Payout (Text PayoutMode)
open Function (update)
open Runs Visit ChannelManager

variable {env : Env}

/-- The channel was opened in the run, by a request with this `user_identity`. -/
def OpenedAs (s₀ : ChannelManager env.channels) (es : List Event) (d : DownstreamId)
    (k : ChannelKind) (c : ChannelId) (identity : Text) : Prop :=
  ∃ pre msg allocated now post, es = pre ++ .openChannel k d msg allocated now :: post ∧
    msg.userIdentity = identity ∧ (exec ChannelManager.step s₀ pre).channel? d k c = none ∧
    ((exec ChannelManager.step s₀ pre).step (.openChannel k d msg allocated now)).channel? d k
    c ≠ none

/-- Every job of the channel that comes from a template pays the value of the template according to
the mode. -/
def Pays (mode : PayoutMode) (poolScript : Bytes) (ch : env.channels.Channel) : Prop :=
  ∀ j t, HasJob ch j → j.template? = some t →
    ∃ rest, j.coinbaseOutputs = mode.coinbaseOutputs t.coinbaseTxValueRemaining poolScript ++ rest

/-- Every channel pays according to the mode of its own identity. -/
def AllPayOwn (s₀ : ChannelManager env.channels) (es : List Event) : Prop :=
  let s := exec ChannelManager.step s₀ es
  ∀ d k c ch identity mode, s.channel? d k c = some ch → OpenedAs s₀ es d k c identity →
    payoutModeOf env identity = some mode → Pays mode s₀.coinbaseRewardScript ch

/-- Whenever a template arrives, the outputs of a connection are those of the own mode of each of
its channels. -/
def SameModes (s₀ : ChannelManager env.channels) (es : List Event) : Prop :=
  ∀ pre t fetch clock post, es = pre ++ .newTemplate t fetch clock :: post →
    let s := exec ChannelManager.step s₀ pre
    ∀ d ds k c ch identity mode, s.downstreams.lookup d = some ds → ds.requiresCustomWork = false →
      (ds.channels k).lookup c = some ch → OpenedAs s₀ pre d k c identity →
      payoutModeOf env identity = some mode →
      s.downstreamOutputs ds t =
        mode.coinbaseOutputs t.coinbaseTxValueRemaining s₀.coinbaseRewardScript

/-! ### Steps of one channel

`Pays mode` says that all jobs of a channel have the outputs of a mode. Whatever the channel is
given has to have them too. -/

section Pays

variable (law : env.channels.Lawful) {ch ch' : env.channels.Channel} {mode : PayoutMode}
  {poolScript : Bytes}

include law

theorem pays_of_isNew (h : IsNew env ch) : Pays mode poolScript ch :=
  fun j _ hj => absurd hj (not_hasJob_of_isNew law h j)

theorem Pays.onNewTemplate {t : NewTemplate} (h : Pays mode poolScript ch)
    (hok : env.channels.channel.onNewTemplate ch t
      (mode.coinbaseOutputs t.coinbaseTxValueRemaining poolScript) = .ok ch') :
    Pays mode poolScript ch' := by
  intro j u hj hu
  rcases (jobs_onNewTemplate law hok).2 j hj with hold | hb
  · exact h j u hold hu
  · obtain rfl := Option.some.inj (hb.template.symm.trans hu)
    exact hb.outputs

theorem Pays.onSetNewPrevHash {m : SetNewPrevHash} (h : Pays mode poolScript ch)
    (hok : env.channels.channel.onSetNewPrevHash ch m = .ok ch') : Pays mode poolScript ch' := by
  intro j t hj ht
  rcases (evolves_onSetNewPrevHash law hok).jobs j hj with ⟨j₀, hj₀, hsame⟩ | ⟨hlo, hhi⟩
  · rw [hsame.coinbaseOutputs]
    refine h j₀ t hj₀ ?_
    rw [← ht, Job.template?, Job.template?, hsame.origin]
  · rw [(law.channel.onSetNewPrevHash_tip hok).2] at hhi
    exact absurd (Nat.lt_of_le_of_lt hlo hhi) (Nat.lt_irrefl _)

theorem Pays.onSetCustomMiningJob {m : SetCustomMiningJob} {i : JobId} (h : Pays mode poolScript ch)
    (hok : env.channels.onSetCustomMiningJob ch m = .ok (i, ch')) : Pays mode poolScript ch' := by
  obtain ⟨⟨j₀, hactive, -, horigin⟩, hfuture, -⟩ := law.onSetCustomMiningJob hok
  intro j t hj ht
  rcases hj with hj | ⟨u, hj⟩
  · obtain rfl := Option.some.inj (hactive.symm.trans hj)
    simp [Job.template?, horigin] at ht
  · rw [hfuture] at hj
    exact h j t (.inr ⟨u, hj⟩) ht

/-- The job of the group is one more job of the channel. -/
theorem Pays.onGroupChannelJob {n : JobId} {t : NewTemplate} {job : Job}
    (h : Pays mode poolScript ch)
    (hb : BuiltFrom job n t (mode.coinbaseOutputs t.coinbaseTxValueRemaining poolScript))
    (hok : env.channels.onGroupChannelJob ch job = .ok ch') : Pays mode poolScript ch' := by
  have hnew : ∀ u, job.template? = some u → ∃ rest, job.coinbaseOutputs =
      mode.coinbaseOutputs u.coinbaseTxValueRemaining poolScript ++ rest := by
    intro u hu
    obtain rfl := Option.some.inj (hb.template.symm.trans hu)
    exact hb.outputs
  intro j u hj hu
  by_cases hfuture : job.minNtime = none
  · obtain ⟨hupdate, hactive, -⟩ := law.onGroupChannelJob_future hok hb.template hfuture
    rcases hj with hj | ⟨v, hj⟩
    · exact h j u (.inl (hactive ▸ hj)) hu
    · rw [hupdate] at hj
      by_cases hv : v = t.templateId
      · subst hv
        rw [Function.update_self] at hj
        obtain rfl := Option.some.inj hj
        exact hnew u hu
      · rw [Function.update_of_ne hv] at hj
        exact h j u (.inr ⟨v, hj⟩) hu
  · obtain ⟨hactive, hsame, -⟩ := law.onGroupChannelJob_active hok hfuture
    rcases hj with hj | ⟨v, hj⟩
    · obtain rfl := Option.some.inj (hactive.symm.trans hj)
      exact hnew u hu
    · rw [hsame] at hj
      exact h j u (.inr ⟨v, hj⟩) hu

theorem pays_firstJob {t : NewTemplate} {m : SetNewPrevHash} {new : env.channels.Channel}
    {job : Job} (hnew : IsNew env new)
    (h : firstJob t m (mode.coinbaseOutputs t.coinbaseTxValueRemaining poolScript) new =
      .ok (job, ch)) : Pays mode poolScript ch := by
  obtain ⟨mid, hmid, -, hch⟩ := firstJob_eq_ok h
  exact ((pays_of_isNew law hnew).onNewTemplate law hmid).onSetNewPrevHash law hch

end Pays

/-! ### Templates -/

section Template

variable {s : ChannelManager env.channels} {t : NewTemplate}
  {clock : DownstreamId → ChannelId → UInt64} {d : DownstreamId} {k : ChannelKind} {c : ChannelId}
  {ch ch' : env.channels.Channel}

/-- The job of a template, as a channel gets it: one of its own or the group's, with the same
outputs. -/
inductive GivenOutputs (env : Env) (ch ch' : env.channels.Channel) (t : NewTemplate)
    (outputs : List TxOut) : Prop where
  | own (h : env.channels.channel.onNewTemplate ch t outputs = .ok ch')
  | group {n job} (hb : BuiltFrom job n t outputs)
      (h : env.channels.onGroupChannelJob ch job = .ok ch')

/-- Without GridPool a channel is left as it was, or gets a job with the outputs of its
downstream. -/
theorem newTemplate_channel (law : env.channels.Lawful) (hg : s.gridpool = none)
    (hch : s.channel? d k c = some ch)
    (hch' : ((visit (s.newTemplateDownstream t clock) s.downstreams).value.lookup d).bind
      (fun ds => (ds.channels k).lookup c) = some ch') :
    ch' = ch ∨ ∃ ds, s.downstreams.lookup d = some ds ∧ ds.requiresCustomWork = false ∧
      GivenOutputs env ch ch' t (s.downstreamOutputs ds t) := by
  obtain ⟨ds, hds, hlookup⟩ := channel?_eq_some.mp hch
  rcases visit_lookup (s.newTemplateDownstream t clock) s.downstreams d with
    hsame | ⟨ds₀, hds₀, hval, -⟩
  · rw [hsame, hds, Option.bind_some, hlookup] at hch'
    exact .inl (Option.some.inj hch').symm
  · obtain rfl := Option.some.inj (hds.symm.trans hds₀)
    rw [hval, Option.bind_some] at hch'
    rcases newTemplateDownstream_cases d t s clock ds with
      ⟨-, ho⟩ | ⟨-, -, -, group, hv⟩ | ⟨hcustom, group, groupJob, hgroup, hjob, announced, v,
        hv, ho, -⟩
    · rw [ho, Outcome.keep_value, hlookup] at hch'
      exact .inl (Option.some.inj hch').symm
    · rw [hv, hlookup] at hch'
      exact .inl (Option.some.inj hch').symm
    · rw [ho, hv] at hch'
      dsimp only at hch'
      have hne : ChannelKind.standard ≠ .extended := by decide
      rcases Downstream.visitBoth_lookup hne (s.newTemplateChannel t clock d
        ds.requiresStandardJobs (s.downstreamOutputs ds t) groupJob) { ds with group := group } k c
        with hsame | ⟨ch₀, hch₀, hval', -⟩
      · rw [hsame, hlookup] at hch'
        exact .inl (Option.some.inj hch').symm
      · obtain rfl := Option.some.inj (hlookup.symm.trans hch₀)
        obtain rfl := Option.some.inj (hval'.symm.trans hch')
        rcases newTemplateChannel_cases d k c ch t s clock ds.requiresStandardJobs
          (s.downstreamOutputs ds t) groupJob with
          ⟨hkeep, -⟩ | ⟨g, payout, outputs, hsome, -⟩ | ⟨-, -, -, htemplate, -⟩ |
          ⟨-, -, -, -, hgiven⟩
        · exact .inl hkeep
        · rw [hg] at hsome
          cases hsome
        · exact .inr ⟨ds, hds, hcustom, .own htemplate⟩
        · exact .inr ⟨ds, hds, hcustom, .group (groupJob_of_onNewTemplate law hgroup hjob) hgiven⟩

end Template

/-! ### Opening a channel -/

section Open

variable {s : ChannelManager env.channels} {d : DownstreamId} {k : ChannelKind}
    {msg : OpenMiningChannel} {allocated : Except String Bytes} {now : UInt64}

/-- What an open request leaves of the channels: perhaps fewer, and perhaps a new one with a first
job that follows the mode of the request, or without a job. -/
inductive OpensOwn (s : ChannelManager env.channels) (d : DownstreamId) (k : ChannelKind)
    (msg : OpenMiningChannel) (r : ChannelManager env.channels × Option PoolError) : Prop where
  | quiet (h : Quiet s r.1)
  | opened {ds ch} (ds' : Downstream env.channels) (hds : s.downstreams.lookup d = some ds)
      (hs : r.1.downstreams = s.downstreams.insert d ds')
      (hchannels : ds'.channels = update ds.channels k
        ((ds.channels k).insert ds.channelIdFactory ch))
      (hpays : env.channels.Lawful → s.gridpool = none → ∀ mode,
        payoutModeOf env msg.userIdentity = some mode → Pays mode s.coinbaseRewardScript ch)

/-- Without GridPool the first job of a channel follows the mode of its request. -/
theorem rewardOutputs_of_none (hg : s.gridpool = none) {payout : Option ChannelPayout}
    {mode : PayoutMode} {t : NewTemplate} {outputs : List TxOut}
    (h : s.rewardOutputs payout mode t now = .ok outputs) :
    outputs = mode.coinbaseOutputs t.coinbaseTxValueRemaining s.coinbaseRewardScript := by
  simp only [rewardOutputs, hg] at h
  exact (Except.ok.inj h).symm

theorem opensOwn_standard :
    OpensOwn s d .standard msg (s.handleOpenStandardMiningChannel d msg allocated now) := by
  unfold handleOpenStandardMiningChannel
  split
  · exact .quiet (.refl s)
  · rename_i ds hds
    split
    · exact .quiet (quiet_reply s d rfl)
    · split
      · exact .quiet (.refl s)
      · exact .quiet (.refl s)
      · rename_i t m ht hm
        split
        · exact .quiet (quiet_reply s d rfl)
        · exact .quiet (quiet_reply s d rfl)
        · rename_i payout mode hpayout hmode
          split
          · exact .quiet (.refl s)
          · rename_i outputs houtputs
            have hcounted := quiet_setDownstream hds
              { ds with payoutMode := some mode, channelIdFactory := ds.channelIdFactory + 1 }
              ⟨rfl, rfl, rfl, rfl, Nat.le_succ _⟩
            dsimp only
            split
            · exact .quiet (quiet_setDownstream hds { ds with payoutMode := some mode }
                ⟨rfl, rfl, rfl, rfl, le_rfl⟩)
            · split
              · exact .quiet (hcounted.trans (quiet_reply _ d rfl))
              · exact .quiet hcounted
              · rename_i new hnew
                split
                · exact .quiet (quiet_failedOpen hds
                    { ds with
                      payoutMode := some mode, channelIdFactory := ds.channelIdFactory + 1 }
                    ⟨rfl, rfl, rfl, rfl, Nat.le_succ _⟩ payout)
                · rename_i job ch hfirst
                  have hopened : ∀ (r : ChannelManager env.channels × Option PoolError) group,
                      r.1.downstreams =
                        s.downstreams.insert d (ds.withChannel mode group .standard ch) →
                      OpensOwn s d .standard msg r := by
                    intro r group hr
                    refine .opened _ hds hr rfl fun law hg mode' hmode' => ?_
                    obtain rfl := Option.some.inj (hmode.symm.trans hmode')
                    have houtputs := rewardOutputs_of_none hg houtputs
                    subst houtputs
                    exact pays_firstJob law ⟨_, _, _, .inl hnew⟩ hfirst
                  split
                  · exact hopened _ ds.group (by simp [note, setDownstream, setPayout,
                      AList.insert_insert, Downstream.insertChannel, Downstream.withChannel])
                  · split
                    · exact hopened _ ds.group (by simp [setDownstream, setPayout,
                        AList.insert_insert, Downstream.insertChannel, Downstream.withChannel])
                    · rename_i group _
                      exact hopened _ group (by simp [note, setDownstream, setPayout,
                        AList.insert_insert, Downstream.insertChannel, Downstream.withChannel])

theorem opensOwn_extended :
    OpensOwn s d .extended msg (s.handleOpenExtendedMiningChannel d msg allocated now) := by
  unfold handleOpenExtendedMiningChannel
  split
  · exact .quiet (.refl s)
  · rename_i ds hds
    split
    · exact .quiet (quiet_reply s d rfl)
    · split
      · exact .quiet (quiet_reply s d rfl)
      · split
        · exact .quiet (quiet_reply s d rfl)
        · exact .quiet (quiet_reply s d rfl)
        · rename_i payout mode hpayout hmode
          have hcounted := quiet_setDownstream hds
            { ds with payoutMode := some mode, channelIdFactory := ds.channelIdFactory + 1 }
            ⟨rfl, rfl, rfl, rfl, Nat.le_succ _⟩
          have hfailed := quiet_failedOpen hds
            { ds with payoutMode := some mode, channelIdFactory := ds.channelIdFactory + 1 }
            ⟨rfl, rfl, rfl, rfl, Nat.le_succ _⟩ payout
          dsimp only
          split
          · exact .quiet (hcounted.trans (quiet_reply _ d rfl))
          · exact .quiet hcounted
          · rename_i new hnew
            have hnew : IsNew env new := ⟨_, _, _, .inr hnew⟩
            split
            · exact .quiet hfailed
            · exact .quiet hfailed
            · rename_i m t hm ht
              split
              · split
                · exact .quiet hfailed
                · rename_i ch hch
                  refine .opened (ds.withChannel mode ds.group .extended ch) hds ?_ rfl ?_
                  · simp [note, setDownstream, setPayout, AList.insert_insert,
                      Downstream.insertChannel, Downstream.withChannel]
                  · intro law _ mode' _
                    exact (pays_of_isNew law hnew).onSetNewPrevHash law hch
              · split
                · exact .quiet hfailed
                · rename_i outputs houtputs
                  split
                  · exact .quiet hfailed
                  · rename_i job ch hfirst
                    split
                    · exact .quiet hfailed
                    · rename_i group hgroup
                      refine .opened (ds.withChannel mode group .extended ch) hds ?_ rfl ?_
                      · simp [note, setDownstream, setPayout, AList.insert_insert,
                          Downstream.insertChannel, Downstream.withChannel]
                      · intro law hg mode' hmode'
                        obtain rfl := Option.some.inj (hmode.symm.trans hmode')
                        have houtputs := rewardOutputs_of_none hg houtputs
                        subst houtputs
                        exact pays_firstJob law hnew hfirst

end Open

/-! ### Runs -/

section Run

variable {s : ChannelManager env.channels}

theorem handleErrorAction_coinbaseRewardScript (s : ChannelManager env.channels) (e : PoolError) :
    (s.handleErrorAction e).coinbaseRewardScript = s.coinbaseRewardScript := by
  unfold handleErrorAction
  split <;> rfl

theorem settle_coinbaseRewardScript (r : ChannelManager env.channels × Option PoolError) :
    (settle r).coinbaseRewardScript = r.1.coinbaseRewardScript := by
  unfold settle
  split
  · rfl
  · exact handleErrorAction_coinbaseRewardScript _ _

theorem conclude_coinbaseRewardScript (s : ChannelManager env.channels)
    (o : Outcome (AList fun _ : DownstreamId => Downstream env.channels) Note PoolErrorKind) :
    (s.conclude o).1.coinbaseRewardScript = s.coinbaseRewardScript := by
  rw [conclude_fst]

/-- The script of the pool is fixed. -/
theorem step_coinbaseRewardScript (s : ChannelManager env.channels) (e : Event) :
    (s.step e).coinbaseRewardScript = s.coinbaseRewardScript := by
  unfold ChannelManager.step
  split
  · rfl
  · cases e with
    | openChannel k d msg allocated now =>
        cases k with
        | standard =>
            dsimp only
            rw [settle_coinbaseRewardScript]
            unfold handleOpenStandardMiningChannel
            repeat' first | rfl | split | dsimp only
        | extended =>
            dsimp only
            rw [settle_coinbaseRewardScript]
            unfold handleOpenExtendedMiningChannel
            repeat' first | rfl | split | dsimp only
    | connect std custom =>
        dsimp only
        rw [settle_coinbaseRewardScript]
        unfold connect
        repeat' first | rfl | split | dsimp only
    | disconnect d => rfl
    | newTemplate t fetch clock =>
        dsimp only
        rw [settle_coinbaseRewardScript]
        rcases handleNewTemplate_cases s t fetch clock with ⟨e, hr⟩ | ⟨gridpool, -, hr⟩
        · rw [hr]
        · rw [hr, conclude_coinbaseRewardScript]
          rfl
    | setNewPrevHash m =>
        dsimp only
        rw [settle_coinbaseRewardScript, handleSetNewPrevHash, conclude_coinbaseRewardScript]
    | closeChannel d c =>
        dsimp only
        rw [settle_coinbaseRewardScript]
        unfold handleCloseChannel
        split <;> rfl
    | setCustomMiningJob d msg response =>
        dsimp only
        rw [settle_coinbaseRewardScript]
        unfold handleSetCustomMiningJob
        repeat' first | rfl | split
    | feeTick now clock =>
        dsimp only
        rcases refreshGridpoolFeeJobs_cases s now clock with h | ⟨g, last, t, -, -, -, hr⟩
        · rw [h]
        · rw [hr, conclude_coinbaseRewardScript]
    | poll response => rfl

/-- A channel of the run so far, or the one the event opens. -/
theorem openedAs_concat {s₀ : ChannelManager env.channels} {es : List Event} {e : Event}
    {d : DownstreamId} {k : ChannelKind} {c : ChannelId} {identity : Text}
    (h : OpenedAs s₀ (es ++ [e]) d k c identity) :
    OpenedAs s₀ es d k c identity ∨ ∃ msg allocated now, e = .openChannel k d msg allocated now ∧
      msg.userIdentity = identity ∧ (exec ChannelManager.step s₀ es).channel? d k c = none ∧
      ((exec ChannelManager.step s₀ es).step e).channel? d k c ≠ none := by
  obtain ⟨pre, msg, allocated, now, post, heq, hidentity, hbefore, hafter⟩ := h
  rcases List.eq_nil_or_concat post with rfl | ⟨post, e', rfl⟩
  · obtain ⟨rfl, he⟩ := List.append_inj' heq rfl
    obtain rfl := List.singleton_inj.mp he
    exact .inr ⟨msg, allocated, now, rfl, hidentity, hbefore, hafter⟩
  · rw [List.concat_eq_append, ← List.cons_append, ← List.append_assoc] at heq
    obtain ⟨rfl, -⟩ := List.append_inj' heq rfl
    exact .inl ⟨pre, msg, allocated, now, post, rfl, hidentity, hbefore, hafter⟩

/-- The channel an open request made follows the mode of the request. -/
theorem pays_opened (law : env.channels.Lawful) (hg : s.gridpool = none) (hrun : s.running = true)
    {d : DownstreamId} {k : ChannelKind} {c : ChannelId} {msg : OpenMiningChannel}
    {allocated : Except String Bytes} {now : UInt64} (hbefore : s.channel? d k c = none)
    {ch : env.channels.Channel}
    (hch : (s.step (.openChannel k d msg allocated now)).channel? d k c = some ch)
    {mode : PayoutMode} (hmode : payoutModeOf env msg.userIdentity = some mode) :
    Pays mode s.coinbaseRewardScript ch := by
  obtain ⟨r, hstep, hopens⟩ : ∃ r, s.step (.openChannel k d msg allocated now) = settle r ∧
      OpensOwn s d k msg r := by
    cases k with
    | standard => exact ⟨_, by rw [ChannelManager.step, if_neg (by simp [hrun])], opensOwn_standard⟩
    | extended => exact ⟨_, by rw [ChannelManager.step, if_neg (by simp [hrun])], opensOwn_extended⟩
  rw [hstep] at hch
  have hr : r.1.channel? d k c = some ch := by
    rcases (quiet_settle r).channel d k c with hsame | hnone
    · rw [← hsame, hch]
    · rw [hnone] at hch
      cases hch
  cases hopens with
  | quiet h =>
      rcases h.channel d k c with hsame | hnone
      · rw [hsame, hbefore] at hr
        cases hr
      · rw [hnone] at hr
        cases hr
  | opened ds' hds hs hchannels hpays =>
      rcases channel?_insert s r.1 hs d k c with ⟨-, heq⟩ | ⟨hne, -⟩
      · rw [hr] at heq
        rcases lookup_insertChannel hchannels k c with ⟨-, -, hlookup⟩ | ⟨-, hlookup⟩
        · obtain rfl := Option.some.inj (heq.trans hlookup)
          exact hpays law hg mode hmode
        · rw [channel?, hds, Option.bind_some, ← hlookup, ← heq] at hbefore
          cases hbefore
      · exact absurd rfl hne

/-- What a run without GridPool has shown so far, if its templates meet the modes of the
channels. -/
structure Owned (s₀ : ChannelManager env.channels) (es : List Event)
    (s : ChannelManager env.channels) : Prop where
  numbered : Numbered s
  gridpool : s.gridpool = none
  poolScript : s.coinbaseRewardScript = s₀.coinbaseRewardScript
  used : ∀ d k c identity, OpenedAs s₀ es d k c identity → d < s.downstreamIdFactory ∧
    ∀ ds, s.downstreams.lookup d = some ds → c < ds.channelIdFactory
  pays : ∀ d k c ch identity mode, s.channel? d k c = some ch → OpenedAs s₀ es d k c identity →
    payoutModeOf env identity = some mode → Pays mode s₀.coinbaseRewardScript ch

variable {s₀ : ChannelManager env.channels} {es : List Event}

theorem owned_initial {config : Config} (hg : config.gridpool = none) (outputs : List TxOut) :
    Owned (initial config outputs : ChannelManager env.channels) [] (initial config outputs) where
  numbered := numbered_initial config outputs
  gridpool := hg
  poolScript := rfl
  used := by
    rintro d k c identity ⟨pre, msg, allocated, now, post, heq, -⟩
    simp at heq
  pays := by
    intro d k c ch identity mode hch
    cases hch

/-- A template leaves a channel as it was, or gives it a job with the outputs of its downstream. -/
theorem step_newTemplate (law : env.channels.Lawful) (hg : s.gridpool = none)
    (hrun : s.running = true) {t : NewTemplate} {fetch : Nat → Except String WorkSelection}
    {clock : DownstreamId → ChannelId → UInt64} {d : DownstreamId} {k : ChannelKind} {c : ChannelId}
    {ch ch' : env.channels.Channel} (hch : s.channel? d k c = some ch)
    (hch' : (s.step (.newTemplate t fetch clock)).channel? d k c = some ch') :
    ch' = ch ∨ ∃ ds, s.downstreams.lookup d = some ds ∧ ds.requiresCustomWork = false ∧
      GivenOutputs env ch ch' t (s.downstreamOutputs ds t) := by
  rw [ChannelManager.step, if_neg (by simp [hrun])] at hch'
  rcases handleNewTemplate_cases s t fetch clock with ⟨e, hr⟩ | ⟨gridpool, hgridpool, hr⟩
  · rw [hr] at hch'
    exact .inl (Option.some.inj (hch'.symm.trans hch))
  · obtain rfl : gridpool = none := by
      rcases hgridpool with rfl | ⟨g, g', hsome, -⟩
      · exact hg
      · rw [hg] at hsome
        cases hsome
    rw [hr, settle_conclude] at hch'
    exact newTemplate_channel (s := s.withTemplate none t) law rfl hch hch'

/-- The channel of an earlier request, after one more step. -/
theorem Owned.pays_step (law : env.channels.Lawful) {e : Event}
    (h : Owned s₀ es s) (hrun : s.running = true)
    (hmodes : ∀ t fetch clock, e = .newTemplate t fetch clock →
      ∀ d ds k c ch identity mode, s.downstreams.lookup d = some ds →
        ds.requiresCustomWork = false →
        (ds.channels k).lookup c = some ch → OpenedAs s₀ es d k c identity →
        payoutModeOf env identity = some mode → s.downstreamOutputs ds t =
          mode.coinbaseOutputs t.coinbaseTxValueRemaining s₀.coinbaseRewardScript)
    {d : DownstreamId} {k : ChannelKind} {c : ChannelId} {ch' : env.channels.Channel}
    {identity : Text} {mode : PayoutMode} (hch' : (s.step e).channel? d k c = some ch')
    (hopened : OpenedAs s₀ es d k c identity) (hmode : payoutModeOf env identity = some mode) :
    Pays mode s₀.coinbaseRewardScript ch' := by
  have hfresh : ∀ ds, s.downstreams.lookup d = some ds → c ≠ ds.channelIdFactory :=
    fun ds hds => Nat.ne_of_lt ((h.used d k c identity hopened).2 ds hds)
  have hstep := step_channel law s e hrun d k c
  rw [hch'] at hstep
  cases hbefore : s.channel? d k c with
  | none =>
      rw [hbefore] at hstep
      cases hstep with
      | opened _ hds hc => exact absurd hc (hfresh _ hds)
      | openedCustom _ hds hc => exact absurd hc (hfresh _ hds)
  | some ch =>
      have hpays := h.pays d k c ch identity mode hbefore hopened hmode
      rw [hbefore] at hstep
      have htemplate : ∀ t fetch clock, e = .newTemplate t fetch clock →
          Pays mode s₀.coinbaseRewardScript ch' := by
        rintro t fetch clock rfl
        rcases step_newTemplate law h.gridpool hrun hbefore hch' with
          rfl | ⟨ds, hds, hcustom, hgiven⟩
        · exact hpays
        · obtain ⟨ds₀, hds₀, hlookup⟩ := channel?_eq_some.mp hbefore
          obtain rfl := Option.some.inj (hds.symm.trans hds₀)
          rw [hmodes t fetch clock rfl d ds k c ch identity mode hds hcustom hlookup hopened hmode]
            at hgiven
          cases hgiven with
          | own hok => exact hpays.onNewTemplate law hok
          | group hb hok => exact hpays.onGroupChannelJob law hb hok
      cases hstep with
      | same => exact hpays
      | template hgives hok =>
          cases hgives with
          | newTemplate hds hcustom => exact htemplate _ _ _ rfl
          | feeTick hlast htick hrotates =>
              obtain ⟨g, -, -, hsome, -⟩ := hrotates
              rw [h.gridpool] at hsome
              cases hsome
      | groupJob he => exact htemplate _ _ _ he
      | prevHash _ _ _ hok => exact hpays.onSetNewPrevHash law hok
      | custom _ _ hok => exact hpays.onSetCustomMiningJob law hok
      | opened _ hds hc => exact absurd hc (hfresh _ hds)
      | openedCustom _ hds hc => exact absurd hc (hfresh _ hds)

/-- Every event of a run that meets the condition keeps the invariant. -/
theorem owned_step (law : env.channels.Lawful) {e : Event}
    (h : Owned s₀ es (exec ChannelManager.step s₀ es))
    (hmodes : SameModes s₀ (es ++ [e])) :
    Owned s₀ (es ++ [e]) ((exec ChannelManager.step s₀ es).step e) := by
  have hnumbered := numbered_step law h.numbered e
  have hnone : ((exec ChannelManager.step s₀ es).step e).gridpool = none := by
    have hsome := step_gridpool_isSome (exec ChannelManager.step s₀ es) e
    rw [h.gridpool] at hsome
    simpa using hsome
  have hscript := (step_coinbaseRewardScript (exec ChannelManager.step s₀ es) e).trans h.poolScript
  cases hrun : (exec ChannelManager.step s₀ es).running with
  | false =>
      have hidle := step_of_stopped _ e hrun
      have hold : ∀ {d k c identity}, OpenedAs s₀ (es ++ [e]) d k c identity →
          OpenedAs s₀ es d k c identity := by
        intro d k c identity hopened
        rcases openedAs_concat hopened with hopened | ⟨msg, allocated, now, -, -, hbefore, hafter⟩
        · exact hopened
        · rw [hidle] at hafter
          exact absurd hbefore hafter
      refine ⟨hnumbered, hnone, hscript, ?_, ?_⟩
      · intro d k c identity hopened
        rw [hidle]
        exact h.used d k c identity (hold hopened)
      · intro d k c ch identity mode hch hopened
        rw [hidle] at hch
        exact h.pays d k c ch identity mode hch (hold hopened)
  | true =>
      refine ⟨hnumbered, hnone, hscript, ?_, ?_⟩
      · intro d k c identity hopened
        rcases openedAs_concat hopened with hopened | ⟨msg, allocated, now, -, -, -, hafter⟩
        · obtain ⟨hd, hc⟩ := h.used d k c identity hopened
          refine ⟨Nat.lt_of_lt_of_le hd (step_downstreamIdFactory _ e), fun ds' hds' => ?_⟩
          rcases step_downstream _ e hrun hds' with ⟨ds, hds, hsame⟩ | ⟨rfl, -⟩
          · exact Nat.lt_of_lt_of_le (hc ds hds) hsame.channelIdFactory
          · exact absurd hd (Nat.lt_irrefl _)
        · obtain ⟨ch, hch⟩ := Option.ne_none_iff_exists'.mp hafter
          obtain ⟨ds, hds, hlookup⟩ := channel?_eq_some.mp hch
          refine ⟨hnumbered.downstream d ds hds, fun ds' hds' => ?_⟩
          obtain rfl := Option.some.inj (hds.symm.trans hds')
          exact hnumbered.channel d ds k c ch hds hlookup
      · intro d k c ch identity mode hch hopened hmode
        rcases openedAs_concat hopened with hopened | ⟨msg, allocated, now, rfl, rfl, hbefore, -⟩
        · refine h.pays_step law hrun ?_ hch hopened hmode
          rintro t fetch clock rfl
          exact hmodes es t fetch clock [] rfl
        · rw [← h.poolScript]
          exact pays_opened law h.gridpool hrun hbefore hch hmode

/-- A part of a run whose templates meet the modes. -/
theorem SameModes.of_append {fs : List Event} (h : SameModes s₀ (es ++ fs)) : SameModes s₀ es :=
  fun pre t fetch clock post heq =>
    h pre t fetch clock (post ++ fs) (by rw [heq, List.append_assoc, List.cons_append])

/-- In every run without GridPool in which the stored mode of a connection pays like the own mode of
each of its channels whenever a template arrives, every job of every channel follows the channel's
own identity. -/
theorem jobs_pay_own_mode (law : env.channels.Lawful) {config : Config}
    (hg : config.gridpool = none) {now : UInt64} (hstart : start env config now = .ok s₀)
    (hmodes : SameModes s₀ es) : AllPayOwn s₀ es := by
  obtain ⟨outputs, rfl⟩ := start_eq_ok hstart
  have h : Owned (initial config outputs) es
      (exec ChannelManager.step (initial config outputs : ChannelManager env.channels) es) := by
    induction es using List.reverseRecOn with
    | nil => exact owned_initial hg outputs
    | append_singleton es e ih =>
        rw [exec_append, exec_cons, exec_nil]
        exact owned_step law (ih hmodes.of_append) hmodes
  exact h.pays

/-- A run whose templates meet the modes, and one more event that does. -/
theorem SameModes.concat {e : Event} (h : SameModes s₀ es)
    (he : ∀ t fetch clock, e = .newTemplate t fetch clock →
      let s := exec ChannelManager.step s₀ es
      ∀ d ds k c ch identity mode, s.downstreams.lookup d = some ds →
        ds.requiresCustomWork = false →
        (ds.channels k).lookup c = some ch → OpenedAs s₀ es d k c identity →
        payoutModeOf env identity = some mode → s.downstreamOutputs ds t =
          mode.coinbaseOutputs t.coinbaseTxValueRemaining s₀.coinbaseRewardScript) :
    SameModes s₀ (es ++ [e]) := by
  intro pre t fetch clock post heq
  rcases List.eq_nil_or_concat post with rfl | ⟨post, e', rfl⟩
  · obtain ⟨rfl, he'⟩ := List.append_inj' heq rfl
    obtain rfl := List.singleton_inj.mp he'
    exact he t fetch clock rfl
  · rw [List.concat_eq_append, ← List.cons_append, ← List.append_assoc] at heq
    obtain ⟨rfl, -⟩ := List.append_inj' heq rfl
    exact h pre t fetch clock post rfl

end Run

/-! ### Two channels of one connection -/

/-- The manager of a pool without GridPool. -/
def plainManager : ChannelManager Reference.env.channels :=
  .initial (Reference.config none) [⟨0, Reference.operatorScript⟩]

theorem start_plainManager :
    start Reference.env (Reference.config none) 0 = .ok plainManager := rfl

/-- A solo identity with this address, and a name of the worker. -/
def soloIdentity (address worker : Text) : Text :=
  ['s', 'r', 'i', '/', 's', 'o', 'l', 'o', '/'] ++ address ++ ['/'] ++ worker

/-- A request that opens a channel with this identity. -/
def openAs (identity : Text) (extranoncePrefix : Bytes) : Event :=
  .openChannel .extended 1 { Reference.openRequest with userIdentity := identity }
    (.ok extranoncePrefix) 0

/-- The second template. -/
def secondFuture : NewTemplate := Reference.template 2 true 6000000000

/-- One connection opens two channels with these identities. -/
def twoChannels (first second : Text) : List Event :=
  [.newTemplate (Reference.template 1 true 5000000000) (fun _ => .error "unreachable")
      (fun _ _ => 0),
    .setNewPrevHash (Reference.prevHash 1 1), .connect false false, openAs first [1, 2, 3, 4],
    openAs second [1, 2, 3, 5]]

/-- Then there is a second template. -/
def thenTemplate (es : List Event) : List Event :=
  es ++ [.newTemplate secondFuture (fun _ => .error "unreachable") (fun _ _ => 0)]

/-- The job of the first channel for the second template: its template and its outputs. -/
def secondJob (s : ChannelManager Reference.env.channels) :
    Option (Option NewTemplate × List TxOut) :=
  (s.channel? 1 .extended 2).bind fun ch =>
    (Reference.storeOps.futureJob ch 2).map fun j => (j.template?, j.coinbaseOutputs)

/-- The identities of two workers with one address. -/
def garage : Text := soloIdentity Reference.fallbackAddress ['g', 'a', 'r', 'a', 'g', 'e']
def attic : Text := soloIdentity Reference.fallbackAddress ['a', 't', 't', 'i', 'c']

/-- The identity of a miner with another address. -/
def neighbour : Text := soloIdentity Reference.operatorAddress ['p', 'o', 'r', 'c', 'h']

/-- Two workers of one miner have the same mode. -/
theorem payoutModeOf_worker {identity : Text} (h : identity = garage ∨ identity = attic) :
    payoutModeOf Reference.env identity =
      some (.solo (String.ofList Reference.fallbackAddress) Reference.fallbackScript) := by
  rcases h with rfl | rfl <;> decide +kernel

/-- The identities of the channels opened in these runs. -/
theorem identity_of_twoChannels {first second identity : Text} {d : DownstreamId} {k : ChannelKind}
    {c : ChannelId} (h : OpenedAs plainManager (twoChannels first second) d k c identity) :
    identity = first ∨ identity = second := by
  obtain ⟨pre, msg, allocated, now, post, heq, rfl, -⟩ := h
  have hmem : Event.openChannel k d msg allocated now ∈ twoChannels first second :=
    heq ▸ List.mem_append_right _ List.mem_cons_self
  simp only [twoChannels, openAs, List.mem_cons, reduceCtorEq, Event.openChannel.injEq,
    List.not_mem_nil, or_false, false_or] at hmem
  rcases hmem with ⟨-, -, rfl, -⟩ | ⟨-, -, rfl, -⟩
  · exact .inl rfl
  · exact .inr rfl

/-- The first template meets no channel. -/
theorem sameModes_twoChannels (first second : Text) :
    SameModes plainManager (twoChannels first second) := by
  intro pre t fetch clock post heq s d ds k c ch identity mode hds
  cases pre with
  | nil =>
      have hempty : plainManager.downstreams.lookup d = none := AList.lookup_empty d
      rw [show s = plainManager from rfl, hempty] at hds
      cases hds
  | cons e pre =>
      rw [twoChannels, List.cons_append] at heq
      obtain ⟨-, hrest⟩ := List.cons.inj heq
      have hmem : Event.newTemplate t fetch clock ∈ pre ++ Event.newTemplate t fetch
        clock :: post :=
        List.mem_append_right _ List.mem_cons_self
      rw [← hrest] at hmem
      simp [openAs] at hmem

theorem two_workers_pay_own_mode :
    start Reference.env (Reference.config none) 0 = .ok plainManager ∧
      secondJob (exec ChannelManager.step plainManager (thenTemplate (twoChannels garage attic))) =
        some (some secondFuture, [⟨6000000000, Reference.fallbackScript⟩]) ∧
      AllPayOwn plainManager (thenTemplate (twoChannels garage attic)) := by
  have hall : ∀ x ∈ (exec ChannelManager.step plainManager
      (twoChannels garage attic)).downstreams.entries,
      (exec ChannelManager.step plainManager (twoChannels garage attic)).downstreamOutputs x.2
        secondFuture = [⟨6000000000, Reference.fallbackScript⟩] := by
    decide +kernel
  have hmodes : SameModes plainManager (thenTemplate (twoChannels garage attic)) := by
    refine (sameModes_twoChannels garage attic).concat ?_
    intro t fetch clock heq s d ds k c ch identity mode hds _ _ hopened hmode
    obtain ⟨rfl, -⟩ := Event.newTemplate.inj heq
    rw [payoutModeOf_worker (identity_of_twoChannels hopened)] at hmode
    obtain rfl := Option.some.inj hmode
    exact hall ⟨d, ds⟩ (AList.mem_lookup_iff.mp hds)
  exact ⟨start_plainManager, by decide +kernel,
    jobs_pay_own_mode Reference.channels_lawful rfl start_plainManager hmodes⟩

theorem neighbour_takes_first_channel :
    start Reference.env (Reference.config none) 0 = .ok plainManager ∧
      ¬ AllPayOwn plainManager (thenTemplate (twoChannels garage neighbour)) := by
  refine ⟨start_plainManager, fun h => ?_⟩
  have hsecond : secondJob
      (exec ChannelManager.step plainManager (thenTemplate (twoChannels garage neighbour))) =
        some (some secondFuture, [⟨6000000000, Reference.operatorScript⟩]) := by
    decide +kernel
  have hopened : OpenedAs plainManager (thenTemplate (twoChannels garage neighbour)) 1 .extended 2
      garage :=
    ⟨(twoChannels garage neighbour).take 3, { Reference.openRequest with userIdentity := garage },
      .ok [1, 2, 3, 4], 0, (thenTemplate (twoChannels garage neighbour)).drop 4, rfl, rfl,
      by decide +kernel, by decide +kernel⟩
  obtain ⟨ch, hch, hfuture⟩ := Option.bind_eq_some_iff.mp hsecond
  obtain ⟨j, hj, hpair⟩ := Option.map_eq_some_iff.mp hfuture
  obtain ⟨htemplate, houtputs⟩ := Prod.mk.inj hpair
  obtain ⟨rest, hrest⟩ := h 1 .extended 2 ch garage _ hch hopened (payoutModeOf_worker (.inl rfl)) j
    secondFuture (.inr ⟨2, hj⟩) htemplate
  -- the job pays the neighbour's script in the place of the channel's own
  rw [houtputs] at hrest
  obtain ⟨hhead, -⟩ := List.cons.inj hrest
  exact absurd hhead (by decide)

end GridPoolSv2.Pool
