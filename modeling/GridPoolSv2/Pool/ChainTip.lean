import GridPoolSv2.Lib.Runs
import GridPoolSv2.Pool.History

/-!
# Pool.ChainTip: active jobs and the chain tip a channel holds

A template is published for a chain tip: `tipOf` names it. The active job of a channel
should come from a template for the tip the channel holds. The last future template and
the previous hash that activates it arrive as two messages, and the fee tick builds active
jobs from the former.

* `Published` is what the template provider promises: a template that is not a future one
  is for the tip announced last, and a previous hash is the one of the last future
  template.
* `InStep` is the condition on the manager's own steps: a tick that rotates a channel
  comes when the last future template has been activated, and the channel has been told;
  a custom job is for the tip the channel holds.
* `Current` is the invariant, and `active_job_for_held_tip` the result over runs.

Proof shape: `Follows` says that a channel has what the messages of the provider make of it,
and each way to change a channel (`ChannelStep`) keeps it. The tip of a job is read off its
template, so nothing has to be known of the outputs.
-/

namespace GridPoolSv2.Pool

open Consensus (Bytes TxOut)
open Runs ChannelManager

variable {env : Env} {tipOf : TemplateId → Bytes}

/-! ### Conditions

One on the template provider and one on the manager. Both are read in the state before an event. -/

/-- The promise of the template provider. -/
def Published (tipOf : TemplateId → Bytes) (s : ChannelManager env.channels) : Event → Prop
  | .newTemplate t _ _ => t.futureTemplate = false →
      ∃ m, s.lastNewPrevHash = some m ∧ m.prevHash = tipOf t.templateId
  | .setNewPrevHash m => m.prevHash = tipOf m.templateId ∧
      ∃ t, s.lastFutureTemplate = some t ∧ t.templateId = m.templateId
  | _ => True

/-- The condition on fee ticks and custom jobs. -/
def InStep (s : ChannelManager env.channels) : Event → Prop
  | .feeTick _ clock => ∀ d k c ch ds t, s.downstreams.lookup d = some ds →
      (ds.channels k).lookup c = some ch → s.lastFutureTemplate = some t →
      s.Rotates clock t d c ch → ∃ m, s.lastNewPrevHash = some m ∧ m.templateId = t.templateId ∧
        (ds.requiresCustomWork = true → env.channels.channel.chainTip ch = some m.prevHash)
  | .setCustomMiningJob d msg _ => ∀ ds m, s.downstreams.lookup d = some ds →
      ds.requiresCustomWork = false → s.lastNewPrevHash = some m → msg.prevHash = m.prevHash
  | _ => True

/-- Without custom work a tick is in step when the last future template has been activated. -/
theorem inStep_feeTick {s : ChannelManager env.channels} (t : NewTemplate) (m : SetNewPrevHash)
    (ht : s.lastFutureTemplate = some t) (hm : s.lastNewPrevHash = some m)
    (hid : m.templateId = t.templateId)
    (hplain : ∀ x ∈ s.downstreams.entries, x.2.requiresCustomWork = false) {now : UInt64}
    {clock : DownstreamId → ChannelId → UInt64} : InStep s (.feeTick now clock) := by
  intro d k c ch ds t' hds _ ht' _
  obtain rfl := Option.some.inj (ht.symm.trans ht')
  refine ⟨m, hm, hid, fun hcustom => ?_⟩
  have hentry : (⟨d, ds⟩ : Sigma _) ∈ s.downstreams.entries := AList.mem_lookup_iff.mp hds
  rw [hplain _ hentry] at hcustom
  cases hcustom

/-! ### The invariant -/

/-- The active job, if it comes from a template, is for the tip the channel holds. -/
def ForHeldTip (tipOf : TemplateId → Bytes) (ch : env.channels.Channel) : Prop :=
  ∀ j t, env.channels.channel.activeJob ch = some j → j.template? = some t →
    env.channels.channel.chainTip ch = some (tipOf t.templateId)

/-- A channel that takes its work from templates holds the tip announced last, and has a future job
for the last future template if that was not activated yet. -/
def Follows (t : NewTemplate) (m : SetNewPrevHash) (ch : env.channels.Channel) : Prop :=
  env.channels.channel.chainTip ch = some m.prevHash ∧
    (t.templateId ≠ m.templateId → env.channels.channel.futureJob ch t.templateId ≠ none)

structure Current (tipOf : TemplateId → Bytes) (s : ChannelManager env.channels) : Prop where
  keyed : AllKeyed s
  held : ∀ d k c ch, s.channel? d k c = some ch → ForHeldTip tipOf ch
  announced : s.running = true → ∀ m, s.lastNewPrevHash = some m → m.prevHash = tipOf m.templateId
  connected : s.running = true → ∀ d ds, s.downstreams.lookup d = some ds →
    ∃ t m, s.lastFutureTemplate = some t ∧ s.lastNewPrevHash = some m
  follows : s.running = true → ∀ d k c ch ds t m, s.downstreams.lookup d = some ds →
    (ds.channels k).lookup c = some ch → ds.requiresCustomWork = false →
    s.lastFutureTemplate = some t → s.lastNewPrevHash = some m → Follows t m ch

theorem current_initial (config : Config) (outputs : List TxOut) :
    Current tipOf (initial config outputs : ChannelManager env.channels) where
  keyed := allKeyed_initial config outputs
  held := by
    intro d k c ch h
    cases h
  announced := by
    intro _ m h
    cases h
  connected := by
    intro _ d ds h
    cases h
  follows := by
    intro _ d k c ch ds t m h
    cases h

/-! ### One step -/

section Step

variable {s : ChannelManager env.channels} {e : Event}

/-- A job that came from a template, and what it says about the template. -/
theorem template?_unique {j : Job} {t t' : NewTemplate} (h : j.template? = some t)
    (h' : j.template? = some t') : t = t' :=
  Option.some.inj (h.symm.trans h')

/-- A channel that got its active job from a template for the tip it holds. -/
theorem forHeldTip_of_active {ch : env.channels.Channel} {j : Job} {t : NewTemplate}
    (hj : env.channels.channel.activeJob ch = some j) (ht : j.template? = some t)
    (htip : env.channels.channel.chainTip ch = some (tipOf t.templateId)) :
    ForHeldTip tipOf ch := by
  intro j' t' hj' ht'
  obtain rfl := Option.some.inj (hj.symm.trans hj')
  obtain rfl := template?_unique ht ht'
  exact htip

/-- The property depends on the active job and the tip. -/
theorem ForHeldTip.of_eq {ch ch' : env.channels.Channel} (h : ForHeldTip tipOf ch)
    (hactive : env.channels.channel.activeJob ch' = env.channels.channel.activeJob ch)
    (htip : env.channels.channel.chainTip ch' = env.channels.channel.chainTip ch) :
    ForHeldTip tipOf ch' := by
  intro j t hj ht
  rw [htip]
  exact h j t (hactive ▸ hj) ht

/-- A channel without an active job has nothing to compare. -/
theorem forHeldTip_of_none {ch : env.channels.Channel}
    (h : env.channels.channel.activeJob ch = none) : ForHeldTip tipOf ch := by
  intro j t hj
  rw [h] at hj
  cases hj

/-- The previous hash of the last future template: the channel activates its job for it, or it held
this tip before. -/
theorem forHeldTip_onSetNewPrevHash (law : env.channels.Lawful) {ch ch' : env.channels.Channel}
    {m : SetNewPrevHash} (hkeyed : Keyed env.channels.channel ch) (hheld : ForHeldTip tipOf ch)
    (hm : m.prevHash = tipOf m.templateId)
    (htip : env.channels.channel.futureJob ch m.templateId = none →
      env.channels.channel.chainTip ch = some m.prevHash)
    (h : env.channels.channel.onSetNewPrevHash ch m = .ok ch') : ForHeldTip tipOf ch' := by
  obtain ⟨htip', -⟩ := law.channel.onSetNewPrevHash_tip h
  cases hj : env.channels.channel.futureJob ch m.templateId with
  | some j =>
      obtain ⟨-, t, ht, hid⟩ := hkeyed _ _ hj
      refine forHeldTip_of_active (law.channel.onSetNewPrevHash_activates h hj) (t := t) ht ?_
      rw [htip', hm, hid]
  | none =>
      obtain ⟨-, hactive⟩ := law.channel.onSetNewPrevHash_unmatched h hj
      exact hheld.of_eq hactive (htip'.trans (htip hj).symm)

/-- A channel that takes its work from templates holds the tip of a template that is not a future
one. -/
theorem Current.heldTip (h : Current tipOf s) (hrun : s.running = true) {d : DownstreamId}
    {k : ChannelKind} {c : ChannelId} {ch : env.channels.Channel} {ds : Downstream env.channels}
    (hds : s.downstreams.lookup d = some ds) (hlookup : (ds.channels k).lookup c = some ch)
    (hcustom : ds.requiresCustomWork = false) {t : NewTemplate}
    (hp : ∃ m, s.lastNewPrevHash = some m ∧ m.prevHash = tipOf t.templateId) :
    env.channels.channel.chainTip ch = some (tipOf t.templateId) := by
  obtain ⟨m, hm, hmt⟩ := hp
  obtain ⟨last, m', hlast, hm'⟩ := h.connected hrun d ds hds
  obtain rfl := Option.some.inj (hm.symm.trans hm')
  rw [(h.follows hrun d k c ch ds last m hds hlookup hcustom hlast hm).1, hmt]

/-- The active job of every channel is for the tip it holds, after every step. -/
theorem Current.held_step (law : env.channels.Lawful) (h : Current tipOf s)
    (hrun : s.running = true) (hp : Published tipOf s e) (hs : InStep s e) {d : DownstreamId}
    {k : ChannelKind} {c : ChannelId}
    {ch' : env.channels.Channel} (hch' : (s.step e).channel? d k c = some ch') :
    ForHeldTip tipOf ch' := by
  have hstep := step_channel law s e hrun d k c
  rw [hch'] at hstep
  generalize hbefore : s.channel? d k c = before at hstep
  cases hstep with
  | same => exact h.held d k c ch' hbefore
  | template hgives hok =>
      rename_i ch t outputs
      obtain ⟨ds, hds, hlookup⟩ := channel?_eq_some.mp hbefore
      cases hgives with
      | newTemplate hds' hcustom =>
          obtain rfl := Option.some.inj (hds.symm.trans hds')
          cases hf : t.futureTemplate with
          | true =>
              obtain ⟨j, -, -, hactive, htip, -⟩ := law.channel.onNewTemplate_future hok hf
              exact (h.held d k c ch hbefore).of_eq hactive htip
          | false =>
              obtain ⟨j, hb, hactive, -, htip, -⟩ := law.channel.onNewTemplate_active hok hf
              refine forHeldTip_of_active hactive hb.template ?_
              rw [htip, h.heldTip hrun hds hlookup hcustom (hp hf)]
      | feeTick hlast htick hrotates =>
          rename_i now clock lastFuture
          obtain ⟨j, hb, hactive, -, htip, -⟩ :=
            law.channel.onNewTemplate_active hok htick.futureTemplate
          obtain ⟨m, hm, hid, htold⟩ := hs d k c ch ds lastFuture hds hlookup hlast hrotates
          have hheld : env.channels.channel.chainTip ch = some m.prevHash := by
            cases hcustom : ds.requiresCustomWork with
            | true => exact htold hcustom
            | false => exact (h.follows hrun d k c ch ds lastFuture m hds hlookup hcustom
                hlast hm).1
          refine forHeldTip_of_active hactive hb.template ?_
          rw [htip, hheld, h.announced hrun m hm, hid, htick.templateId]
  | groupJob he hg hds hcustom htemplate hfuture hok =>
      rename_i ch t fetch clock job ds
      subst he
      obtain ⟨ds', hds', hlookup⟩ := channel?_eq_some.mp hbefore
      obtain rfl := Option.some.inj (hds.symm.trans hds')
      cases hf : t.futureTemplate with
      | true =>
          obtain ⟨-, hactive, htip⟩ := law.onGroupChannelJob_future hok htemplate (hfuture.mpr hf)
          exact (h.held d k c ch hbefore).of_eq hactive htip
      | false =>
          obtain ⟨hactive, -, htip⟩ := law.onGroupChannelJob_active hok (by simp [hfuture, hf])
          refine forHeldTip_of_active hactive htemplate ?_
          rw [htip, h.heldTip hrun hds hlookup hcustom (hp hf)]
  | prevHash he hds hcustom hok =>
      rename_i ch m ds
      subst he
      obtain ⟨hm, t, ht, hid⟩ := hp
      refine forHeldTip_onSetNewPrevHash law (h.keyed d k c ch hbefore) (h.held d k c ch hbefore) hm
        ?_ hok
      intro hnone
      obtain ⟨ds', hds', hlookup⟩ := channel?_eq_some.mp hbefore
      obtain rfl := Option.some.inj (hds.symm.trans hds')
      obtain ⟨t', m', ht', hm'⟩ := h.connected hrun d ds hds
      obtain rfl := Option.some.inj (ht.symm.trans ht')
      obtain ⟨htip, hpending⟩ := h.follows hrun d k c ch ds t m' hds hlookup hcustom ht hm'
      -- a job is only missing when the same template was activated before, for the same tip
      have hsame : t.templateId = m'.templateId := by
        by_contra hne
        exact hpending hne (hid ▸ hnone)
      rw [htip, h.announced hrun m' hm', hm, ← hid, hsame]
  | custom he hc hok =>
      obtain ⟨⟨j, hactive, -, horigin⟩, -⟩ := law.onSetCustomMiningJob hok
      intro j' t hj' ht
      obtain rfl := Option.some.inj (hactive.symm.trans hj')
      simp [Job.template?, horigin] at ht
  | opened he hds hc hcustom ht hm hnew hfirst =>
      obtain ⟨hid, hb, -, hactive, -, htip⟩ := firstJob_new law hnew hfirst
      refine forHeldTip_of_active hactive hb.template ?_
      rw [htip, h.announced hrun _ hm, hid]
  | openedCustom he hds hc hcustom hm hnew hok =>
      obtain ⟨hactive, hempty, -⟩ := hnew.empty law
      obtain ⟨-, hsame⟩ := law.channel.onSetNewPrevHash_unmatched hok (hempty _)
      exact forHeldTip_of_none (hsame.trans hactive)

/-! What a step makes of a channel that follows the messages of the provider. -/

section Follows

variable {t t₀ t' : NewTemplate} {m : SetNewPrevHash} {ch ch' : env.channels.Channel}

/-- A channel that keeps its future jobs and its tip follows the same messages. -/
theorem Follows.of_eq (h : Follows t m ch)
    (hfuture : env.channels.channel.futureJob ch' = env.channels.channel.futureJob ch)
    (htip : env.channels.channel.chainTip ch' = env.channels.channel.chainTip ch) :
    Follows t m ch' := by
  refine ⟨htip.trans h.1, fun hne => ?_⟩
  rw [hfuture]
  exact h.2 hne

/-- The channel gets a future job for another template, which is the last one from now on. -/
theorem Follows.of_update (h : Follows t m ch) {j : Job}
    (hfuture : env.channels.channel.futureJob ch' =
      Function.update (env.channels.channel.futureJob ch) t₀.templateId (some j))
    (htip : env.channels.channel.chainTip ch' = env.channels.channel.chainTip ch) :
    Follows t₀ m ch' := by
  refine ⟨htip.trans h.1, fun _ => ?_⟩
  rw [hfuture, Function.update_self]
  simp

theorem Follows.template (h : Follows t m ch) (law : env.channels.Lawful) {outputs : List TxOut}
    (hok : env.channels.channel.onNewTemplate ch t₀ outputs = .ok ch')
    (hlast : some t' = if t₀.futureTemplate then some t₀ else some t) : Follows t' m ch' := by
  cases hf : t₀.futureTemplate with
  | true =>
      rw [hf, if_pos rfl] at hlast
      obtain rfl := Option.some.inj hlast
      obtain ⟨j, -, hfuture, -, htip, -⟩ := law.channel.onNewTemplate_future hok hf
      exact h.of_update hfuture htip
  | false =>
      rw [hf, if_neg Bool.false_ne_true] at hlast
      obtain rfl := Option.some.inj hlast
      obtain ⟨j, -, -, hfuture, htip, -⟩ := law.channel.onNewTemplate_active hok hf
      exact h.of_eq hfuture htip

theorem Follows.groupJob (h : Follows t m ch) (law : env.channels.Lawful) {j : Job}
    (hok : env.channels.onGroupChannelJob ch j = .ok ch') (htemplate : j.template? = some t₀)
    (hfuture : j.minNtime = none ↔ t₀.futureTemplate = true)
    (hlast : some t' = if t₀.futureTemplate then some t₀ else some t) : Follows t' m ch' := by
  cases hf : t₀.futureTemplate with
  | true =>
      rw [hf, if_pos rfl] at hlast
      obtain rfl := Option.some.inj hlast
      obtain ⟨hupdate, -, htip⟩ := law.onGroupChannelJob_future hok htemplate (hfuture.mpr hf)
      exact h.of_update hupdate htip
  | false =>
      rw [hf, if_neg Bool.false_ne_true] at hlast
      obtain rfl := Option.some.inj hlast
      obtain ⟨-, hsame, htip⟩ := law.onGroupChannelJob_active hok (by simp [hfuture, hf])
      exact h.of_eq hsame htip

/-- A custom job may bring the tip along, which is then the one announced last. -/
theorem Follows.custom (h : Follows t m ch) (law : env.channels.Lawful)
    {msg : SetCustomMiningJob} {i : JobId}
    (hok : env.channels.onSetCustomMiningJob ch msg = .ok (i, ch'))
    (htip : msg.prevHash = m.prevHash) : Follows t m ch' := by
  obtain ⟨-, hsame, -, -, hheld⟩ := law.onSetCustomMiningJob hok
  refine ⟨?_, fun hne => ?_⟩
  · rcases hheld with hheld | hheld
    · exact hheld.trans h.1
    · rw [hheld, htip]
  · rw [hsame]
    exact h.2 hne

end Follows

/-- Channels that take their work from templates follow the messages of the provider. -/
theorem Current.follows_step (law : env.channels.Lawful) (h : Current tipOf s)
    (hrun : s.running = true) (hp : Published tipOf s e) (hs : InStep s e)
    (hrun' : (s.step e).running = true) {d : DownstreamId} {k : ChannelKind} {c : ChannelId}
    {ch' : env.channels.Channel} {ds' : Downstream env.channels} {t' : NewTemplate}
    {m' : SetNewPrevHash} (hds' : (s.step e).downstreams.lookup d = some ds')
    (hlookup' : (ds'.channels k).lookup c = some ch') (hcustom' : ds'.requiresCustomWork = false)
    (ht' : (s.step e).lastFutureTemplate = some t') (hm' : (s.step e).lastNewPrevHash = some m') :
    Follows t' m' ch' := by
  have hstep := step_channel law s e hrun d k c
  rw [channel?_eq_some.mpr ⟨ds', hds', hlookup'⟩] at hstep
  generalize hbefore : s.channel? d k c = before at hstep
  -- the downstream was connected before: a new one has no channels
  obtain ⟨ds, hds, hflags⟩ : ∃ ds, s.downstreams.lookup d = some ds ∧ SameFlags ds ds' := by
    rcases step_downstream s e hrun hds' with hold | ⟨-, -, hempty, -⟩
    · exact hold
    · rw [hempty] at hlookup'
      cases hlookup'
  have hcustom : ds.requiresCustomWork = false := hflags.requiresCustomWork.symm.trans hcustom'
  obtain ⟨t, m, ht, hm⟩ := h.connected hrun d ds hds
  have hfollows : ∀ ch, before = some ch → Follows t m ch := by
    intro ch hch
    obtain ⟨ds₀, hds₀, hlookup⟩ := channel?_eq_some.mp (hbefore.trans hch)
    obtain rfl := Option.some.inj (hds.symm.trans hds₀)
    exact h.follows hrun d k c ch ds t m hds hlookup hcustom ht hm
  obtain ⟨hlast, hprev⟩ := step_last s e hrun hrun'
  rw [ht'] at hlast
  rw [hm'] at hprev
  cases hstep with
  | same hidle =>
      have hreach := hidle ds hds hcustom rfl hrun'
      cases e with
      | newTemplate | setNewPrevHash => cases hreach
      | _ =>
          obtain rfl := Option.some.inj (hlast.trans ht)
          obtain rfl := Option.some.inj (hprev.trans hm)
          exact hfollows ch' rfl
  | template hgives hok =>
      rename_i ch t₀ outputs
      cases hgives with
      | newTemplate _ _ =>
          obtain rfl := Option.some.inj (hprev.trans hm)
          exact (hfollows ch rfl).template law hok (by rw [hlast, templateAfter, ht])
      | feeTick _ htick _ =>
          obtain rfl := Option.some.inj (hprev.trans hm)
          obtain rfl := Option.some.inj (hlast.trans ht)
          exact (hfollows ch rfl).template law hok (by simp [htick.futureTemplate])
  | groupJob he hg hds₀ hcustom₀ htemplate hfuture hok =>
      rename_i ch t₀ fetch clock job ds₀
      subst he
      obtain rfl := Option.some.inj (hprev.trans hm)
      exact (hfollows ch rfl).groupJob law hok htemplate hfuture (by rw [hlast, templateAfter, ht])
  | prevHash he hds₀ hcustom₀ hok =>
      rename_i ch m₀ ds₀
      subst he
      obtain rfl := Option.some.inj hprev
      obtain rfl := Option.some.inj (hlast.trans ht)
      obtain ⟨-, t₀, ht₀, hid⟩ := hp
      obtain rfl := Option.some.inj (ht.symm.trans ht₀)
      exact ⟨(law.channel.onSetNewPrevHash_tip hok).1, fun hne => absurd hid hne⟩
  | custom he hc hok =>
      rename_i ch msg response i
      subst he
      obtain rfl := Option.some.inj (hprev.trans hm)
      obtain rfl := Option.some.inj (hlast.trans ht)
      exact (hfollows ch rfl).custom law hok (hs ds m' hds hcustom hm)
  | opened he hds₀ hc₀ hcustom₀ ht₀ hm₀ hnew hfirst =>
      subst he
      obtain rfl := Option.some.inj (hprev.trans hm₀)
      obtain rfl := Option.some.inj (hlast.trans ht₀)
      obtain ⟨hid, -, -, -, -, htip⟩ := firstJob_new law hnew hfirst
      exact ⟨htip, fun hne => absurd hid hne⟩
  | openedCustom he hds₀ hc₀ hcustom₀ hm₀ hnew hok =>
      obtain rfl := Option.some.inj (hds.symm.trans hds₀)
      rw [hcustom] at hcustom₀
      cases hcustom₀

/-- Every event that meets the conditions keeps the invariant. -/
theorem current_step (law : env.channels.Lawful) (h : Current tipOf s)
    (hc : Published tipOf s e ∧ InStep s e) : Current tipOf (s.step e) := by
  obtain ⟨hp, hs⟩ := hc
  cases hrun : s.running with
  | false =>
      rw [step_of_stopped s e hrun]
      exact h
  | true =>
      refine ⟨allKeyed_step law h.keyed e, fun d k c ch hch => h.held_step law hrun hp hs hch, ?_,
        ?_, fun hrun' d k c ch ds t m hds hlookup hcustom ht hm =>
          h.follows_step law hrun hp hs hrun' hds hlookup hcustom ht hm⟩
      · intro hrun' m hm
        have hprev := (step_last s e hrun hrun').2
        rw [hm] at hprev
        cases e with
        | setNewPrevHash m₀ =>
            obtain rfl := Option.some.inj hprev
            exact hp.1
        | _ => exact h.announced hrun m hprev.symm
      · intro hrun' d ds' hds'
        exact step_connected hrun hrun' (h.connected hrun) hds'

end Step

/-! ### The result -/

/-- In every run that meets the conditions, the active job of every channel that was built from a
template is for the tip the channel holds, and a fee tick only makes a job active whose template has
been activated by its previous hash. -/
theorem active_job_for_held_tip (law : env.channels.Lawful) {config : Config} {now : UInt64}
    {s₀ : ChannelManager env.channels} (hstart : start env config now = .ok s₀) {es : List Event}
    (hc : Along ChannelManager.step (fun s e => Published tipOf s e ∧ InStep s e) s₀ es) :
    let s := exec ChannelManager.step s₀ es
    (∀ d k c ch j t, s.channel? d k c = some ch → env.channels.channel.activeJob ch = some j →
      j.template? = some t → env.channels.channel.chainTip ch = some (tipOf t.templateId)) ∧
    (∀ now clock d k c ch ch' j t, InStep s (.feeTick now clock) → s.channel? d k c = some ch →
      (s.step (.feeTick now clock)).channel? d k c = some ch' →
      env.channels.channel.activeJob ch' = some j → j.template? = some t →
      env.channels.channel.activeJob ch ≠ some j →
      ∃ m, s.lastNewPrevHash = some m ∧ m.templateId = t.templateId) := by
  intro s
  obtain ⟨outputs, rfl⟩ := start_eq_ok hstart
  have h : Current tipOf s :=
    exec_induct (I := Current tipOf) (fun _ _ h hc => current_step law h hc)
      (current_initial config outputs) hc
  refine ⟨fun d k c ch j t hch hj ht => h.held d k c ch hch j t hj ht, ?_⟩
  intro now clock d k c ch ch' j t hstep hch hch' hj ht hnew
  cases hrun : s.running with
  | false =>
      rw [step_of_stopped s _ hrun, hch] at hch'
      obtain rfl := Option.some.inj hch'
      exact absurd hj hnew
  | true =>
      have hchannel := step_channel law s (.feeTick now clock) hrun d k c
      rw [hch, hch'] at hchannel
      cases hchannel with
      | same => exact absurd hj hnew
      | template hgives hok =>
          cases hgives with
          | feeTick hlast htick hrotates =>
              rename_i outputs lastFuture
              obtain ⟨ds, hds, hlookup⟩ := channel?_eq_some.mp hch
              obtain ⟨m, hm, hid, -⟩ := hstep d k c ch ds lastFuture hds hlookup hlast hrotates
              obtain ⟨j', hb, hactive, -⟩ :=
                law.channel.onNewTemplate_active hok htick.futureTemplate
              obtain rfl := Option.some.inj (hactive.symm.trans hj)
              obtain rfl := template?_unique hb.template ht
              exact ⟨m, hm, hid.trans htick.templateId.symm⟩
      | groupJob he => cases he
      | prevHash he => cases he
      | custom he => cases he
      | opened he => cases he
      | openedCustom he => cases he

/-! ### A tick before and after the previous hash -/

/-- The tip of the template numbered `id`. -/
def numberedTip (id : TemplateId) : Bytes := List.replicate 32 (UInt8.ofNat id)

/-- A channel is opened on the first template, and the second one arrives with a new work
selection. -/
def untilSecondTemplate : List Event :=
  [.newTemplate (Reference.template 1 true 5000000000) (fun _ => .error "unreachable")
      (fun _ _ => 0),
    .setNewPrevHash (Reference.prevHash 1 1), .connect false false,
    .openChannel .extended 1 Reference.openRequest (.ok [1, 2, 3, 4]) 0,
    .newTemplate (Reference.template 2 true 5000000000)
      (fun _ => .ok (Reference.selection "next" [Reference.suffixOutput 300])) (fun _ _ => 0)]

/-- The job, its template and the tip of the channel opened in the run. -/
def workOf (s : ChannelManager Reference.env.channels) :
    Option (JobId × Option TemplateId × Option Bytes) :=
  (s.channel? 1 .extended 2).bind fun ch => (Reference.storeOps.activeJob ch).map fun j =>
    (j.jobId, j.template?.map (·.templateId), Reference.storeOps.chainTip ch)

/-- Then the second template becomes active, and a poll replaces the work selection. -/
def untilPoll : List Event :=
  untilSecondTemplate ++ [.setNewPrevHash (Reference.prevHash 2 2),
    .poll (.ok (Reference.selection "next" [Reference.suffixOutput 500]))]

def tick : Event := .feeTick 1700000100 (fun _ _ => 1700000100)

/-- After the previous hash, the tick builds on the tip the channel holds. -/
theorem tick_after_prev_hash_keeps_tip :
    let s := exec ChannelManager.step Reference.manager (untilPoll ++ [tick])
    workOf s = some (3, some 2, some (numberedTip 2)) ∧
      ∀ ch j t, s.channel? 1 .extended 2 = some ch → Reference.storeOps.activeJob ch = some j →
        j.template? = some t → Reference.storeOps.chainTip ch = some
          (numberedTip t.templateId) := by
  have hc : Along ChannelManager.step (fun s e => Published numberedTip s e ∧ InStep s e)
      Reference.manager (untilPoll ++ [tick]) := by
    refine ⟨⟨nofun, trivial⟩, ⟨⟨rfl, _, rfl, rfl⟩, trivial⟩, ⟨trivial, trivial⟩, ⟨trivial, trivial⟩,
      ⟨nofun, trivial⟩, ⟨⟨rfl, Reference.template 2 true 5000000000, ?_, rfl⟩, trivial⟩,
      ⟨trivial, trivial⟩, ⟨trivial, ?_⟩, trivial⟩
    · decide +kernel
    · exact inStep_feeTick (Reference.template 2 true 5000000000) (Reference.prevHash 2 2)
        (by decide +kernel) (by decide +kernel) rfl (by decide +kernel)
  exact ⟨by decide +kernel,
    (active_job_for_held_tip Reference.channels_lawful Reference.start_manager hc).1 1 .extended 2⟩

/-- Before the previous hash, the tick builds on the next tip. -/
theorem tick_before_prev_hash_leaves_tip :
    start Reference.env Reference.gridpoolConfig 0 = .ok Reference.manager ∧
    Along ChannelManager.step (Published numberedTip) Reference.manager
      (untilSecondTemplate ++ [tick]) ∧
    workOf (exec ChannelManager.step Reference.manager
      (untilSecondTemplate ++ [tick])) =
        some (3, some 2, some (numberedTip 1)) ∧
    numberedTip 1 ≠ numberedTip 2 := by
  refine ⟨Reference.start_manager, ?_, by decide +kernel, by decide⟩
  exact ⟨nofun, ⟨rfl, _, rfl, rfl⟩, trivial, trivial, nofun, trivial, trivial⟩

end GridPoolSv2.Pool
