import GridPoolSv2.Lib.Runs
import GridPoolSv2.Pool.FeeRotation

/-!
# Pool.OpenWindow: channels opened between a future template and its previous hash

A future `NewTemplate` sets `last_future_template` at once, and the `SetNewPrevHash` that activates
it sets `last_new_prev_hash` later. In between the two cells are about different templates. The open
handlers build the first job from the one and activate it with the other, and so does
`bootstrap_group_channel` for a new connection.

A channel and a group take this differently. The group keeps the template as a future job and takes
the previous hash all the same, so the connection is accepted. A channel that is opened on it, or on
any other connection, has a future job which the last previous hash does not name, and this is an
error that ends the manager.

* `InWindow` is that part of a run, and `OpensWell` what opening a channel in it should do.
* `Harmless` lists the requests that are turned down before a first job is built, and the
  connections.
* `opens_well_iff_harmless`: exactly these requests end well. All others end the manager.
-/

namespace GridPoolSv2.Pool

open Consensus (Bytes TxOut)
open Runs ChannelManager

variable {env : Env}

/-- The last future template was handled, and its previous hash was not. -/
def InWindow (s : ChannelManager env.channels) (t : NewTemplate) : Prop :=
  s.running = true ∧ s.lastFutureTemplate = some t ∧
    ∀ m, s.lastNewPrevHash = some m → m.templateId ≠ t.templateId

/-- A new connection, or a channel of one. -/
def ChannelManager.Event.opens : Event → Bool
  | .connect _ _ | .openChannel _ _ _ _ _ => true
  | _ => false

/-- The event does not end the manager, and a channel it opens for the pool's jobs has the
template's job active once the previous hash is handled. -/
def OpensWell (s : ChannelManager env.channels) (t : NewTemplate) (e : Event) : Prop :=
  (s.step e).running = true ∧
    ∀ d k c ch ds, s.channel? d k c = none → (s.step e).channel? d k c = some ch →
      (s.step e).downstreams.lookup d = some ds → ds.requiresCustomWork = false →
      ∀ m, m.templateId = t.templateId →
        ∃ ch' j, ((s.step e).step (.setNewPrevHash m)).channel? d k c = some ch' ∧
          env.channels.channel.activeJob ch' = some j ∧ j.template? = some t

/-- The group of a new connection can be made, and takes the template. -/
def TakesConnection (s : ChannelManager env.channels) (t : NewTemplate) : Prop :=
  ∃ g g', env.channels.newGroup 1 = .ok g ∧
    env.channels.group.onNewTemplate g t [⟨t.coinbaseTxValueRemaining, s.coinbaseRewardScript⟩] =
      .ok g'

/-- The event is turned down before a first job is built, or opens an extended channel for custom
work, which gets none, or is a connection, for which a group is enough. -/
def Harmless (s : ChannelManager env.channels) (t : NewTemplate) : Event → Prop
  | .connect _ _ => s.lastNewPrevHash = none ∨ TakesConnection s t
  | .openChannel .standard d msg allocated now =>
      ∀ ds m payout mode outputs, s.downstreams.lookup d = some ds → ds.requiresCustomWork = false →
        s.lastNewPrevHash = some m → s.resolvePayout msg.userIdentity = .ok payout →
        payoutModeOf env msg.userIdentity = some mode →
        s.rewardOutputs payout mode t now = .ok outputs →
        ∃ p e, allocated = .ok p ∧ env.channels.newStandard ds.channelIdFactory msg p = .error e
  | .openChannel .extended d msg allocated now =>
      ∀ ds m p payout mode new, s.downstreams.lookup d = some ds → ds.requiresStandardJobs = false →
        allocated = .ok p → s.resolvePayout msg.userIdentity = .ok payout →
        payoutModeOf env msg.userIdentity = some mode →
        env.channels.newExtended ds.channelIdFactory msg p = .ok new → s.lastNewPrevHash = some m →
        if ds.requiresCustomWork then ∃ ch, env.channels.channel.onSetNewPrevHash new m = .ok ch
        else ∃ e, s.rewardOutputs payout mode t now = .error e
  | _ => True

section Window

variable {s : ChannelManager env.channels} {t : NewTemplate}

/-- The manager goes on after every error but a shutdown. -/
theorem settle_running_iff (r : ChannelManager env.channels × Option PoolError) :
    (settle r).running = true ↔
      r.1.running = true ∧ ∀ e, r.2 = some e → e.action ≠ .shutdown := by
  unfold settle
  split
  · rename_i h
    simp [h]
  · rename_i e h
    unfold handleErrorAction
    split <;> rename_i hact <;> simp [h, hact, removeDownstream]

/-- No first job can be built in the window: the previous hash activates another template. -/
theorem firstJob_of_ne (law : env.channels.Lawful) {m : SetNewPrevHash}
    {new : env.channels.Channel} (hnew : IsNew env new) (hne : m.templateId ≠ t.templateId)
    (outputs : List TxOut) : ∃ e, firstJob t m outputs new = .error e := by
  cases h : firstJob t m outputs new with
  | error e => exact ⟨e, rfl⟩
  | ok r => exact absurd (firstJob_new law hnew h).1.symm hne

/-- A group is bootstrapped with a future template and whatever previous hash, once it takes the
template. -/
theorem bootstrap_isSome_iff (law : env.channels.Lawful) (hfuture : t.futureTemplate = true)
    (m : SetNewPrevHash) : (s.bootstrapGroupChannel t m 1).isSome ↔ TakesConnection s t := by
  unfold bootstrapGroupChannel TakesConnection
  cases hg : env.channels.newGroup 1 with
  | error e => simp
  | ok g =>
      dsimp only
      cases hg' : env.channels.group.onNewTemplate g t
          [⟨t.coinbaseTxValueRemaining, s.coinbaseRewardScript⟩] with
      | error e => simp [hg']
      | ok g' =>
          -- the template is a future job of the group now
          obtain ⟨j, -, hjobs, -⟩ := law.group.onNewTemplate_future hg' hfuture
          have hsome : env.channels.group.futureJob g' t.templateId ≠ none := by
            rw [hjobs, Function.update_self]
            exact Option.some_ne_none j
          obtain ⟨g'', hg''⟩ := law.group.onSetNewPrevHash_ok.mpr ⟨t.templateId, hsome⟩
          dsimp only
          rw [hg'']
          exact iff_of_true rfl ⟨g, g', rfl, hg'⟩

theorem connect_running_iff (law : env.channels.Lawful) (h : InWindow s t)
    (hfuture : t.futureTemplate = true) (std custom : Bool) :
    (s.step (.connect std custom)).running = true ↔ Harmless s t (.connect std custom) := by
  obtain ⟨hrun, hlast, -⟩ := h
  rw [ChannelManager.step, if_neg (by simp [hrun]), settle_running_iff, Harmless]
  unfold connect
  split
  · rename_i t' m ht hm
    obtain rfl := Option.some.inj (hlast.symm.trans ht)
    have hclosed : s.lastNewPrevHash ≠ none := by simp [hm]
    rw [or_iff_right hclosed]
    have hboot : ∀ i, (bootstrapGroupChannel { s with downstreamIdFactory := i } t m 1).isSome ↔
        TakesConnection s t := fun _ => bootstrap_isSome_iff law hfuture m
    specialize hboot (s.downstreamIdFactory + 1)
    dsimp only
    split
    · rename_i hnone
      rw [hnone] at hboot
      exact iff_of_false (by simp [PoolError.shutdown]) fun htakes =>
        by simpa using hboot.mpr htakes
    · rename_i g hsome
      rw [hsome] at hboot
      exact iff_of_true ⟨hrun, by simp⟩ (hboot.mp rfl)
  · rename_i hnone
    have hprev : s.lastNewPrevHash = none := by
      by_contra hne
      obtain ⟨m, hm⟩ := Option.ne_none_iff_exists'.mp hne
      exact hnone t m hlast hm
    exact iff_of_true ⟨hrun, by simp⟩ (.inl hprev)

section Open

variable {d : DownstreamId} {ds : Downstream env.channels} {msg : OpenMiningChannel}
  {m : SetNewPrevHash} {payout : Option ChannelPayout} {mode : Payout.PayoutMode} {now : UInt64}

/-- A request that gets as far as the outputs of the first job is harmless if the channel cannot be
made. -/
theorem harmless_standard_iff {allocated : Except String Bytes} {outputs : List TxOut}
    (hds : s.downstreams.lookup d = some ds) (hcustom : ds.requiresCustomWork = false)
    (hm : s.lastNewPrevHash = some m) (hpayout : s.resolvePayout msg.userIdentity = .ok payout)
    (hmode : payoutModeOf env msg.userIdentity = some mode)
    (houtputs : s.rewardOutputs payout mode t now = .ok outputs) :
    Harmless s t (.openChannel .standard d msg allocated now) ↔
      ∃ p e, allocated = .ok p ∧
        env.channels.newStandard ds.channelIdFactory msg p = .error e := by
  refine ⟨fun h => h ds m payout mode outputs hds hcustom hm hpayout hmode houtputs, ?_⟩
  intro h ds' _ _ _ _ hds' _ _ _ _ _
  obtain rfl := Option.some.inj (hds.symm.trans hds')
  exact h

/-- A request whose channel can be made is harmless if nothing comes of its first job. -/
theorem harmless_extended_iff {p : Bytes} {new : env.channels.Channel}
    (hds : s.downstreams.lookup d = some ds) (hstd : ds.requiresStandardJobs = false)
    (hpayout : s.resolvePayout msg.userIdentity = .ok payout)
    (hmode : payoutModeOf env msg.userIdentity = some mode)
    (hnew : env.channels.newExtended ds.channelIdFactory msg p = .ok new)
    (hm : s.lastNewPrevHash = some m) :
    Harmless s t (.openChannel .extended d msg (.ok p) now) ↔
      if ds.requiresCustomWork then ∃ ch, env.channels.channel.onSetNewPrevHash new m = .ok ch
      else ∃ e, s.rewardOutputs payout mode t now = .error e := by
  refine ⟨fun h => h ds m p payout mode new hds hstd rfl hpayout hmode hnew hm, ?_⟩
  intro h ds' m' p' payout' mode' new' hds' _ hp' hpayout' hmode' hnew' hm'
  obtain rfl := Option.some.inj (hds.symm.trans hds')
  obtain rfl := Except.ok.inj hp'
  obtain rfl := Except.ok.inj (hpayout.symm.trans hpayout')
  obtain rfl := Option.some.inj (hmode.symm.trans hmode')
  obtain rfl := Except.ok.inj (hnew.symm.trans hnew')
  obtain rfl := Option.some.inj (hm.symm.trans hm')
  exact h

/-- Without a channel there is no first job. -/
theorem harmless_extended_of_error {p : Bytes} {e : ChannelError}
    (hds : s.downstreams.lookup d = some ds)
    (hnew : env.channels.newExtended ds.channelIdFactory msg p = .error e) :
    Harmless s t (.openChannel .extended d msg (.ok p) now) := by
  intro ds' _ p' _ _ new' hds' _ hp' _ _ hok
  obtain rfl := Option.some.inj (hds.symm.trans hds')
  obtain rfl := Except.ok.inj hp'
  rw [hnew] at hok
  cases hok

end Open

theorem openStandard_running_iff (law : env.channels.Lawful) (h : InWindow s t) (d : DownstreamId)
    (msg : OpenMiningChannel) (allocated : Except String Bytes) (now : UInt64) :
    (s.step (.openChannel .standard d msg allocated now)).running = true ↔
      Harmless s t (.openChannel .standard d msg allocated now) := by
  obtain ⟨hrun, hlast, hne⟩ := h
  rw [ChannelManager.step, if_neg (by simp [hrun]), settle_running_iff]
  unfold handleOpenStandardMiningChannel
  split
  · exact iff_of_true ⟨hrun, by simp [PoolError.disconnect]⟩ (by simp [Harmless, *])
  · rename_i ds hds
    split
    · rename_i hcustom
      refine iff_of_true ⟨hrun, by simp⟩ ?_
      intro ds' _ _ _ _ hds' hfalse
      obtain rfl := Option.some.inj (hds.symm.trans hds')
      simp [hcustom] at hfalse
    · rename_i hcustom
      split
      · rename_i hnone
        rw [hlast] at hnone
        cases hnone
      · rename_i hnone _
        exact iff_of_true ⟨hrun, by simp [PoolError.disconnect]⟩ (by simp [Harmless, hnone])
      · rename_i t' m ht hm
        obtain rfl := Option.some.inj (hlast.symm.trans ht)
        split
        · rename_i herr
          exact iff_of_true ⟨hrun, by simp⟩ (by simp [Harmless, herr])
        · rename_i hnone _
          exact iff_of_true ⟨hrun, by simp⟩ (by simp [Harmless, hnone])
        · rename_i payout mode hpayout hmode
          split
          · rename_i e herr
            refine iff_of_true ⟨hrun, by simp [PoolError.disconnect]⟩ ?_
            intro _ _ payout' mode' _ _ _ _ hpayout' hmode' hok
            obtain rfl := Except.ok.inj (hpayout.symm.trans hpayout')
            obtain rfl := Option.some.inj (hmode.symm.trans hmode')
            rw [herr] at hok
            cases hok
          · rename_i outputs houtputs
            rw [harmless_standard_iff hds (by simpa using hcustom) hm hpayout hmode houtputs]
            split
            · exact iff_of_false (by simp [PoolError.shutdown]) (by simp)
            · rename_i p
              dsimp only
              split
              · rename_i code hnew
                exact iff_of_true ⟨hrun, by simp⟩ ⟨p, _, rfl, hnew⟩
              · rename_i e hnew
                exact iff_of_true ⟨hrun, by simp [PoolError.disconnect]⟩ ⟨p, _, rfl, hnew⟩
              · rename_i new hnew
                obtain ⟨e, hfirst⟩ :=
                  firstJob_of_ne law ⟨_, _, _, .inl hnew⟩ (hne m hm) outputs
                rw [hfirst]
                refine iff_of_false (by simp [PoolError.shutdown]) ?_
                rintro ⟨p', e', ⟨⟩, herr⟩
                rw [hnew] at herr
                cases herr

theorem openExtended_running_iff (law : env.channels.Lawful) (h : InWindow s t) (d : DownstreamId)
    (msg : OpenMiningChannel) (allocated : Except String Bytes) (now : UInt64) :
    (s.step (.openChannel .extended d msg allocated now)).running = true ↔
      Harmless s t (.openChannel .extended d msg allocated now) := by
  obtain ⟨hrun, hlast, hne⟩ := h
  rw [ChannelManager.step, if_neg (by simp [hrun]), settle_running_iff]
  unfold handleOpenExtendedMiningChannel
  split
  · exact iff_of_true ⟨hrun, by simp [PoolError.disconnect]⟩ (by simp [Harmless, *])
  · rename_i ds hds
    split
    · rename_i hstd
      refine iff_of_true ⟨hrun, by simp⟩ ?_
      intro ds' _ _ _ _ _ hds' hfalse
      obtain rfl := Option.some.inj (hds.symm.trans hds')
      simp [hstd] at hfalse
    · rename_i hstd
      split
      · exact iff_of_true ⟨hrun, by simp⟩ (by simp [Harmless])
      · rename_i p
        split
        · rename_i herr
          exact iff_of_true ⟨hrun, by simp⟩ (by simp [Harmless, herr])
        · rename_i hnone _
          exact iff_of_true ⟨hrun, by simp⟩ (by simp [Harmless, hnone])
        · rename_i payout mode hpayout hmode
          dsimp only
          split
          · rename_i code hnew
            exact iff_of_true ⟨hrun, by simp⟩ (harmless_extended_of_error hds hnew)
          · rename_i e hnew
            exact iff_of_true ⟨hrun, by simp [PoolError.disconnect]⟩
              (harmless_extended_of_error hds hnew)
          · rename_i new hnew
            -- the channel exists, and gets its first job
            split
            · rename_i hnone
              have hnone : s.lastNewPrevHash = none := hnone
              exact iff_of_true ⟨hrun, by simp [PoolError.disconnect]⟩ (by simp [Harmless, hnone])
            · rename_i hnone _
              have hlast' : s.lastFutureTemplate = none := hnone
              rw [hlast] at hlast'
              cases hlast'
            · rename_i m t' hm ht
              have ht : s.lastFutureTemplate = some t' := ht
              have hm : s.lastNewPrevHash = some m := hm
              obtain rfl := Option.some.inj (hlast.symm.trans ht)
              rw [harmless_extended_iff hds (by simpa using hstd) hpayout hmode hnew hm]
              split
              · split
                · rename_i e herr
                  refine iff_of_false (by simp [PoolError.shutdown]) ?_
                  rintro ⟨ch, hok⟩
                  rw [herr] at hok
                  cases hok
                · rename_i ch hok
                  exact iff_of_true ⟨hrun, by simp⟩ ⟨ch, hok⟩
              · have houtputs : ((s.setDownstream d { ds with
                    payoutMode := some mode, channelIdFactory :=
                      ds.channelIdFactory + 1 }).setPayout d
                      ds.channelIdFactory payout).rewardOutputs payout mode t now =
                    s.rewardOutputs payout mode t now := rfl
                rw [houtputs]
                split
                · rename_i e herr
                  exact iff_of_true ⟨hrun, by simp [PoolError.disconnect]⟩ ⟨e, herr⟩
                · rename_i outputs hok
                  obtain ⟨e, hfirst⟩ :=
                    firstJob_of_ne law ⟨_, _, _, .inr hnew⟩ (hne m hm) outputs
                  rw [hfirst]
                  refine iff_of_false (by simp [PoolError.shutdown]) ?_
                  rintro ⟨e', herr⟩
                  rw [hok] at herr
                  cases herr

/-- An event in the window opens no channel that takes the pool's jobs. -/
theorem not_opened_of_window (law : env.channels.Lawful) (h : InWindow s t) {e : Event}
    {d : DownstreamId} {k : ChannelKind} {c : ChannelId} {ch : env.channels.Channel}
    {ds : Downstream env.channels} (hnone : s.channel? d k c = none)
    (hch : (s.step e).channel? d k c = some ch) (hds : (s.step e).downstreams.lookup d = some ds) :
    ds.requiresCustomWork = true := by
  obtain ⟨hrun, hlast, hne⟩ := h
  have hstep := step_channel law s e hrun d k c
  rw [hnone, hch] at hstep
  cases hstep with
  | opened _ _ _ _ ht hm hnew hfirst =>
      obtain rfl := Option.some.inj (hlast.symm.trans ht)
      exact absurd (firstJob_new law hnew hfirst).1.symm (hne _ hm)
  | openedCustom _ hds₀ _ hcustom =>
      rcases step_downstream s e hrun hds with ⟨ds₁, hds₁, hflags⟩ | ⟨-, -, hchannels, -⟩
      · obtain rfl := Option.some.inj (hds₀.symm.trans hds₁)
        exact hflags.requiresCustomWork.trans hcustom
      · obtain ⟨ds₂, hds₂, hlookup⟩ := channel?_eq_some.mp hch
        obtain rfl := Option.some.inj (hds.symm.trans hds₂)
        rw [hchannels] at hlookup
        cases hlookup

/-- In the window the requests that end well are the ones that are turned down, and the
connections. -/
theorem opens_well_iff_harmless (law : env.channels.Lawful) (h : InWindow s t)
    (hfuture : t.futureTemplate = true) {e : Event} (he : e.opens = true) :
    OpensWell s t e ↔ Harmless s t e := by
  have hrunning : (s.step e).running = true ↔ Harmless s t e := by
    cases e with
    | connect std custom => exact connect_running_iff law h hfuture std custom
    | openChannel k d msg allocated now =>
        cases k with
        | standard => exact openStandard_running_iff law h d msg allocated now
        | extended => exact openExtended_running_iff law h d msg allocated now
    | _ => cases he
  rw [← hrunning]
  refine ⟨And.left, fun hrun => ⟨hrun, fun d k c ch ds hnone hch hds hcustom => ?_⟩⟩
  rw [not_opened_of_window law h hnone hch hds] at hcustom
  cases hcustom

/-- The last future template is one. -/
def KeepsFuture (s : ChannelManager env.channels) : Prop :=
  s.running = true → ∀ t, s.lastFutureTemplate = some t → t.futureTemplate = true

theorem keepsFuture_step (h : KeepsFuture s) (e : Event) : KeepsFuture (s.step e) := by
  intro hrun' t ht
  cases hrun : s.running with
  | false =>
      rw [step_of_stopped s e hrun, hrun] at hrun'
      cases hrun'
  | true =>
      rcases step_lastFutureTemplate s e hrun with ⟨t', _, _, -, hf, ht'⟩ | ⟨-, hsame⟩ | hstop
      · obtain rfl := Option.some.inj (ht'.symm.trans ht)
        exact hf
      · exact h hrun t (hsame.symm.trans ht)
      · rw [hstop] at hrun'
        cases hrun'

end Window

/-! ### Runs -/

/-- Every channel and connection that is opened in a window of the run ends well. -/
def AlwaysOpensWell (s₀ : ChannelManager env.channels) (es : List Event) : Prop :=
  ∀ pre e post t, es = pre ++ e :: post → InWindow (exec ChannelManager.step s₀ pre) t →
    e.opens = true → OpensWell (exec ChannelManager.step s₀ pre) t e

/-- The condition on runs: what is asked for in a window is turned down, or a connection. -/
def HarmlessInWindow (s : ChannelManager env.channels) (e : Event) : Prop :=
  ∀ t, InWindow s t → e.opens = true → Harmless s t e

/-- A run of the manager opens well exactly if each of its events does. -/
theorem always_opens_well_iff (law : env.channels.Lawful) {config : Config} {now : UInt64}
    {manager : ChannelManager env.channels} (hstart : start env config now = .ok manager)
    (es : List Event) :
    AlwaysOpensWell manager es ↔ Along ChannelManager.step HarmlessInWindow manager es := by
  have hfuture : ∀ pre, KeepsFuture (exec ChannelManager.step manager pre) := by
    obtain ⟨outputs, rfl⟩ := start_eq_ok hstart
    have hstarted : KeepsFuture (initial config outputs : ChannelManager env.channels) := by
      intro _ t ht
      cases ht
    exact exec_invariant (I := KeepsFuture) (fun _ e h => keepsFuture_step h e) hstarted
  have hiff : ∀ pre e t, InWindow (exec ChannelManager.step manager pre) t → e.opens = true →
      (OpensWell (exec ChannelManager.step manager pre) t e ↔
        Harmless (exec ChannelManager.step manager pre) t e) := fun pre e t h he =>
    opens_well_iff_harmless law h (hfuture pre h.1 t h.2.1) he
  rw [along_iff_splits]
  constructor
  · intro h pre e post hsplit t hwin he
    exact (hiff pre e t hwin he).mp (h pre e post t hsplit hwin he)
  · intro h pre e post t hsplit hwin he
    exact (hiff pre e t hwin he).mpr (h pre e post hsplit t hwin he)

end GridPoolSv2.Pool
