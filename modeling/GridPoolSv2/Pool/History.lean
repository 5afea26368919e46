import GridPoolSv2.Pool.Effects

/-!
# Pool.History: what one event does to the manager's own state

The companion of `Pool.Effects` for everything that is not a channel. `Shape` lists the
forms the state can take after one event, and `step_shape` says that there are no others.
From it follow which work selection a step leaves in force (`step_gridpool`), what becomes
of the last future template and the last previous hash, which downstreams there are
(`step_downstream`), and what every note about a built job stands for (`step_built`).

`Shape` keeps the whole state and not only the channels: the next state is written out for each
form, so a field is read off it by `cases` and `rfl`. `ClientStep` does the same for the client
of GridPool, whose work selection changes at a poll and at a refresh for a new chain tip.

The last part names the ghosts. A note `built` is put into the history for each job a loop
builds with GridPool, and `step_built` says which client, payout and time it was built with.
-/

namespace GridPoolSv2.Pool

open Consensus (Bytes TxOut)
open Function (update)
open Visit

namespace ChannelManager

variable {env : Env} {s s' : ChannelManager env.channels} {e : Event}

/-! ### The forms of a step

Every event ends in one of the forms of `Shape`. A failed open, a refused custom job and a closed
connection all are `quiet`; an event that reaches a stopped manager changes nothing. -/

/-- The client only ever changes its work selection, and its memory of the last tip. -/
structure SameClient (g g' : GridPoolClient) : Prop where
  config : g'.config = g.config
  token : g'.token = g.token

/-- The event, in state `s`, puts the work selection `w` in force, in a client that was `g`
before. -/
inductive Installs (s : ChannelManager env.channels) (g : GridPoolClient) :
    Event → WorkSelection → Prop where
  | poll {w} : Installs s g (.poll (.ok w)) w
  | refresh {t fetch clock g'} (hdue : s.RefreshDue t) (h : g.refreshForChainTip fetch = .ok g') :
      Installs s g (.newTemplate t fetch clock) g'.work

/-- What a step does to the client. -/
inductive ClientStep (s : ChannelManager env.channels) (e : Event) :
    Option GridPoolClient → Option GridPoolClient → Prop where
  | same {g} : ClientStep s e g g
  | installed {g g'} (h : Installs s g e g'.work) (hsame : SameClient g g') :
      ClientStep s e (some g) (some g')

/-- A refresh for a new chain tip changes the work selection and nothing else of the client. -/
theorem sameClient_refresh {g g' : GridPoolClient} {fetch : Nat → Except String WorkSelection}
    (h : g.refreshForChainTip fetch = .ok g') : SameClient g g' := by
  unfold GridPoolClient.refreshForChainTip at h
  dsimp only at h
  split at h
  · cases h
  · split at h
    · cases h
    · cases h
      exact ⟨rfl, rfl⟩

/-- The forms of the state `s'` that event `e` leads to. -/
inductive Shape (s : ChannelManager env.channels) : Event → ChannelManager env.channels → Prop where
  | quiet {e : Event} {s'} (h : Quiet s s') (he : e.reachesAll = false) : Shape s e s'
  | stopped {e : Event} {s'} (h : Quiet s s') (hrun : s'.running = false) : Shape s e s'
  | connected {std custom t m group} (ht : s.lastFutureTemplate = some t)
      (hm : s.lastNewPrevHash = some m) (hgroup : s.bootstrapGroupChannel t m 1 = some group) :
      Shape s (.connect std custom) { s with
        downstreamIdFactory := s.downstreamIdFactory + 1
        downstreams := s.downstreams.insert s.downstreamIdFactory
          { requiresStandardJobs := std
            requiresCustomWork := custom
            payoutMode := none
            group := group
            channels := fun _ => ∅
            channelIdFactory := 2 } }
  | template {t fetch clock gridpool o}
      (hg : ClientStep s (.newTemplate t fetch clock) s.gridpool gridpool)
      (ho : o = visit ((s.withTemplate gridpool t).newTemplateDownstream t clock) s.downstreams) :
      Shape s (.newTemplate t fetch clock) { s.withTemplate gridpool t with
        downstreams := o.value
        history := s.history ++ keptNotes o
        running := s.running && o.error.isNone }
  | prevHash {m o} (ho : o = visit (prevHashDownstream m) s.downstreams) :
      Shape s (.setNewPrevHash m) { s with
        lastNewPrevHash := some m
        downstreams := o.value
        history := s.history ++ keptNotes o
        running := s.running && o.error.isNone }
  | opened {k d msg allocated now r ds ds' payout t m outputs new ch job}
      (h : Opening s d k now r ds ds' payout t m outputs new ch job) :
      Shape s (.openChannel k d msg allocated now) (settle r)
  | openedCustom {k d msg allocated now r ds ds' payout m new ch}
      (h : OpeningCustom s d k r ds ds' payout m new ch) :
      Shape s (.openChannel k d msg allocated now) (settle r)
  | closed {d c ds ds'} (hds : s.downstreams.lookup d = some ds)
      (hds' : ds' = { ds with
        group := if c ∈ env.channels.members ds.group then env.channels.removeChannelId ds.group c
          else ds.group
        channels := fun k => (ds.channels k).erase c }) :
      Shape s (.closeChannel d c) { s with
        downstreams := s.downstreams.insert d ds'
        gridpoolChannels := update s.gridpoolChannels (d, c) none }
  | custom {d msg response ds ch i ch' x} (hds : s.downstreams.lookup d = some ds)
      (hch : (ds.channels .extended).lookup msg.channelId = some ch)
      (hjob : env.channels.onSetCustomMiningJob ch msg = .ok (i, ch')) (hx : Note.Plain x) :
      Shape s (.setCustomMiningJob d msg response) { s with
        downstreams := s.downstreams.insert d (ds.insertChannel .extended msg.channelId ch')
        history := s.history ++ [x] }
  | feeTick {now clock g lastFuture t o} (hg : s.gridpool = some g)
      (hlast : s.lastFutureTemplate = some lastFuture) (htick : IsTick lastFuture now t)
      (ho : o = visit (fun d ds =>
        ds.visitBoth .standard .extended (s.refreshChannel g t clock d)) s.downstreams) :
      Shape s (.feeTick now clock) { s with
        downstreams := o.value
        history := s.history ++ keptNotes o }
  | polled {response} :
      Shape s (.poll response) { s with gridpool := s.gridpool.map (·.poll response) }

/-- The effects of the two handlers of opening, after the error action. -/
theorem shape_of_open {k : ChannelKind} {d : DownstreamId} {msg : OpenMiningChannel}
    {allocated : Except String Bytes} {now : UInt64}
    {r : ChannelManager env.channels × Option PoolError} (h : OpenEffect s d k now r) :
    Shape s (.openChannel k d msg allocated now) (settle r) := by
  cases h with
  | quiet h => exact .quiet (h.trans (quiet_settle r)) rfl
  | opened ds' h => exact .opened h
  | openedCustom ds' h => exact .openedCustom h

/-- A running manager takes one of these forms. -/
theorem step_shape (s : ChannelManager env.channels) (e : Event) (hrun : s.running = true) :
    Shape s e (s.step e) := by
  cases e with
  | connect std custom =>
      simp only [step, hrun, Bool.not_true, Bool.false_eq_true, if_false]
      rcases connect_cases s std custom with hq | ⟨t, m, group, ht, hm, hgroup, hr⟩
      · exact .quiet (hq.trans (quiet_settle _)) rfl
      · rw [hr]
        exact .connected ht hm hgroup
  | disconnect d =>
      simp only [step, hrun, Bool.not_true, Bool.false_eq_true, if_false]
      exact .quiet (quiet_removeDownstream s d) rfl
  | newTemplate t fetch clock =>
      simp only [step, hrun, Bool.not_true, Bool.false_eq_true, if_false]
      rcases handleNewTemplate_cases s t fetch clock with ⟨e, hr⟩ | ⟨gridpool, hg, hr⟩
      · rw [hr]
        exact .stopped (quiet_settle (s, _)) rfl
      · rw [hr, settle_conclude]
        refine .template ?_ rfl
        rcases hg with rfl | ⟨g, g', hg, hdue, hrefresh, rfl⟩
        · exact .same
        · rw [hg]
          exact .installed (.refresh hdue hrefresh) (sameClient_refresh hrefresh)
  | setNewPrevHash m =>
      simp only [step, hrun, Bool.not_true, Bool.false_eq_true, if_false]
      rw [handleSetNewPrevHash, settle_conclude]
      exact .prevHash rfl
  | openChannel k d msg allocated now =>
      cases k with
      | standard =>
          simp only [step, hrun, Bool.not_true, Bool.false_eq_true, if_false]
          exact shape_of_open (openEffect_standard msg allocated now)
      | extended =>
          simp only [step, hrun, Bool.not_true, Bool.false_eq_true, if_false]
          exact shape_of_open (openEffect_extended msg allocated now)
  | closeChannel d c =>
      simp only [step, hrun, Bool.not_true, Bool.false_eq_true, if_false]
      rcases handleCloseChannel_cases s d c with hq | ⟨ds, ds', hds, hds', hr⟩
      · exact .quiet (hq.trans (quiet_settle _)) rfl
      · rw [hr]
        exact .closed hds hds'
  | setCustomMiningJob d msg response =>
      simp only [step, hrun, Bool.not_true, Bool.false_eq_true, if_false]
      rcases handleSetCustomMiningJob_cases s d msg response with
        hq | ⟨ds, ch, i, ch', x, hds, hch, hjob, hx, hr⟩
      · exact .quiet (hq.trans (quiet_settle _)) rfl
      · rw [hr]
        exact .custom hds hch hjob hx
  | feeTick now clock =>
      simp only [step, hrun, Bool.not_true, Bool.false_eq_true, if_false]
      rcases refreshGridpoolFeeJobs_cases s now clock with
        hidle | ⟨g, lastFuture, t, hg, hlast, htick, hr⟩
      · rw [hidle]
        exact .quiet (.refl s) rfl
      · rw [hr, conclude_fst]
        exact .feeTick hg hlast htick rfl
  | poll response =>
      rw [step, if_neg (by simp [hrun])]
      exact .polled

theorem step_of_stopped (s : ChannelManager env.channels) (e : Event) (h : s.running = false) :
    s.step e = s := by
  simp [step, h]

/-- The state after a channel was opened. -/
theorem Opening.settle_state {d : DownstreamId} {k : ChannelKind} {now : UInt64}
    {r : ChannelManager env.channels × Option PoolError} {ds ds' : Downstream env.channels}
    {payout : Option ChannelPayout} {t : NewTemplate} {m : SetNewPrevHash} {outputs : List TxOut}
    {new ch : env.channels.Channel} {job : Job}
    (h : Opening s d k now r ds ds' payout t m outputs new ch job) :
    ∃ notes running, settle r =
        { s with
          downstreams := s.downstreams.insert d ds'
          gridpoolChannels := (s.setPayout d ds.channelIdFactory payout).gridpoolChannels
          history := s.history ++ notes
          running := running } ∧
      ((notes = [] ∧ running = false) ∨
        (running = s.running ∧ (∃ requestId groupId, notes =
            s.openingNotes d k requestId ds.channelIdFactory groupId payout t m outputs now
              new job) ∧
          if ds.requiresStandardJobs then k = .standard ∧ ds'.group = ds.group
          else env.channels.addChannelId ds.group ds.channelIdFactory = .ok ds'.group)) := by
  obtain ⟨notes, hstate, ⟨hnil, e, he⟩ | ⟨hnone, hnotes, hgroup⟩⟩ := h.state
  · refine ⟨notes, false, ?_, .inl ⟨hnil, rfl⟩⟩
    simp only [settle, he, handleErrorAction, PoolError.shutdown, hstate]
  · refine ⟨notes, s.running, ?_, .inr ⟨rfl, hnotes, hgroup⟩⟩
    simp only [settle, hnone, hstate]

/-! ### Consequences -/

/-- The client of GridPool after a step: the old one, or one with a work selection that a poll or a
refresh has installed. -/
theorem step_gridpool (s : ChannelManager env.channels) (e : Event) :
    ClientStep s e s.gridpool (s.step e).gridpool := by
  cases hrun : s.running with
  | false =>
      rw [step_of_stopped s e hrun]
      exact .same
  | true =>
      have hshape := step_shape s e hrun
      generalize s.step e = s' at hshape ⊢
      cases hshape with
      | quiet h | stopped h =>
          rw [h.gridpool]
          exact .same
      | template hg ho => exact hg
      | opened h =>
          obtain ⟨notes, running, hstate, -⟩ := h.settle_state
          rw [hstate]
          exact .same
      | openedCustom h =>
          obtain ⟨notes, hstate, -⟩ := h.state
          rw [hstate]
          exact .same
      | polled =>
          rename_i response
          cases s.gridpool with
          | none => exact .same
          | some g =>
              cases response with
              | error e => exact .same
              | ok w => exact .installed .poll ⟨rfl, rfl⟩
      | connected | prevHash | closed | custom | feeTick => exact .same

/-- No event changes the constraints that were announced at the start. -/
theorem step_constraints (s : ChannelManager env.channels) (e : Event) :
    (s.step e).constraints = s.constraints := by
  cases hrun : s.running with
  | false => rw [step_of_stopped s e hrun]
  | true =>
      have hshape := step_shape s e hrun
      generalize s.step e = s' at hshape ⊢
      cases hshape with
      | quiet h | stopped h => exact h.constraints
      | opened h =>
          obtain ⟨notes, running, hstate, -⟩ := h.settle_state
          rw [hstate]
      | openedCustom h =>
          obtain ⟨notes, hstate, -⟩ := h.state
          rw [hstate]
          rfl
      | connected | template | prevHash | closed | custom | feeTick | polled => rfl

/-- Only a previous hash is stored as the last one, unless the manager stops. -/
theorem step_lastNewPrevHash (s : ChannelManager env.channels) (e : Event)
    (hrun : s.running = true) :
    (∃ m, e = .setNewPrevHash m ∧ (s.step e).lastNewPrevHash = some m) ∨
      ((∀ m, e ≠ .setNewPrevHash m) ∧ (s.step e).lastNewPrevHash = s.lastNewPrevHash) ∨
      (s.step e).running = false := by
  have hshape := step_shape s e hrun
  generalize s.step e = s' at hshape ⊢
  cases hshape with
  | quiet h he =>
      refine .inr (.inl ⟨?_, h.prevHash⟩)
      rintro m rfl
      cases he
  | stopped h hstop => exact .inr (.inr hstop)
  | prevHash ho => exact .inl ⟨_, rfl, rfl⟩
  | opened h =>
      obtain ⟨notes, running, hstate, -⟩ := h.settle_state
      exact .inr (.inl ⟨by simp, by rw [hstate]⟩)
  | openedCustom h =>
      obtain ⟨notes, hstate, -⟩ := h.state
      exact .inr (.inl ⟨by simp, by rw [hstate]; rfl⟩)
  | connected | template | closed | custom | feeTick | polled => exact .inr (.inl ⟨by simp, rfl⟩)

/-- Only a future template is stored as the last one, unless the manager stops. -/
theorem step_lastFutureTemplate (s : ChannelManager env.channels) (e : Event)
    (hrun : s.running = true) :
    (∃ t fetch clock, e = .newTemplate t fetch clock ∧ t.futureTemplate = true ∧
        (s.step e).lastFutureTemplate = some t) ∨
      ((∀ t fetch clock, e = .newTemplate t fetch clock → t.futureTemplate = false) ∧
        (s.step e).lastFutureTemplate = s.lastFutureTemplate) ∨
      (s.step e).running = false := by
  have hshape := step_shape s e hrun
  generalize s.step e = s' at hshape ⊢
  cases hshape with
  | quiet h he =>
      refine .inr (.inl ⟨?_, h.template⟩)
      rintro t fetch clock rfl
      cases he
  | stopped h hstop => exact .inr (.inr hstop)
  | template hg ho =>
      rename_i t fetch clock gridpool o
      cases hf : t.futureTemplate with
      | true => exact .inl ⟨t, fetch, clock, rfl, hf, by simp [withTemplate, hf]⟩
      | false =>
          refine .inr (.inl ⟨?_, by simp [withTemplate, hf]⟩)
          rintro t' fetch' clock' ⟨⟩
          exact hf
  | opened h =>
      obtain ⟨notes, running, hstate, -⟩ := h.settle_state
      exact .inr (.inl ⟨by simp, by rw [hstate]⟩)
  | openedCustom h =>
      obtain ⟨notes, hstate, -⟩ := h.state
      exact .inr (.inl ⟨by simp, by rw [hstate]; rfl⟩)
  | connected | prevHash | closed | custom | feeTick | polled => exact .inr (.inl ⟨by simp, rfl⟩)

/-- The last future template after an event. -/
def templateAfter (s : ChannelManager env.channels) : Event → Option NewTemplate
  | .newTemplate t _ _ => if t.futureTemplate then some t else s.lastFutureTemplate
  | _ => s.lastFutureTemplate

/-- The last previous hash after an event. -/
def prevHashAfter (s : ChannelManager env.channels) : Event → Option SetNewPrevHash
  | .setNewPrevHash m => some m
  | _ => s.lastNewPrevHash

/-- The last future template and the last previous hash of a manager that is still running. -/
theorem step_last (s : ChannelManager env.channels) (e : Event) (hrun : s.running = true)
    (hrun' : (s.step e).running = true) :
    (s.step e).lastFutureTemplate = s.templateAfter e ∧
      (s.step e).lastNewPrevHash = s.prevHashAfter e := by
  refine ⟨?_, ?_⟩
  · rcases step_lastFutureTemplate s e hrun with ⟨t, fetch, clock, rfl, hf, ht⟩ | ⟨hnot, ht⟩ | hstop
    · simp [templateAfter, ht, hf]
    · cases e with
      | newTemplate t fetch clock => simp [templateAfter, ht, hnot t fetch clock rfl]
      | _ => exact ht
    · rw [hstop] at hrun'
      cases hrun'
  · rcases step_lastNewPrevHash s e hrun with ⟨m, rfl, hm⟩ | ⟨hnot, hm⟩ | hstop
    · exact hm
    · cases e with
      | setNewPrevHash m => exact absurd rfl (hnot m)
      | _ => exact hm
    · rw [hstop] at hrun'
      cases hrun'

/-! ### Downstreams

A connection keeps the flags of its setup as long as it lives, and hands out channel ids in
increasing order. -/

/-- What a step leaves of a downstream: its flags, and a channel counter that only grows. -/
structure SameFlags (ds ds' : Downstream env.channels) : Prop where
  requiresStandardJobs : ds'.requiresStandardJobs = ds.requiresStandardJobs
  requiresCustomWork : ds'.requiresCustomWork = ds.requiresCustomWork
  channelIdFactory : ds.channelIdFactory ≤ ds'.channelIdFactory

theorem SameFlags.refl (ds : Downstream env.channels) : SameFlags ds ds := ⟨rfl, rfl, le_rfl⟩

/-- Visiting the channels changes no flag of the downstream. -/
theorem sameFlags_visitBoth (first second : ChannelKind)
    (f : ChannelKind → ChannelId → env.channels.Channel →
      Outcome env.channels.Channel Note PoolErrorKind) (ds : Downstream env.channels) :
    SameFlags ds (ds.visitBoth first second f).value := by
  obtain ⟨channels, h⟩ := Downstream.visitBoth_frame first second f ds
  rw [h]
  exact ⟨rfl, rfl, le_rfl⟩

theorem sameFlags_newTemplateDownstream (s₁ : ChannelManager env.channels) (t : NewTemplate)
    (clock : DownstreamId → ChannelId → UInt64) (d : DownstreamId) (ds : Downstream env.channels) :
    SameFlags ds (s₁.newTemplateDownstream t clock d ds).value := by
  rcases newTemplateDownstream_cases d t s₁ clock ds with
    ⟨-, ho⟩ | ⟨-, -, -, group, hv⟩ | ⟨-, group, groupJob, -, -, announced, v, hv, ho, -⟩
  · rw [ho]
    exact .refl ds
  · rw [hv]
    exact ⟨rfl, rfl, le_rfl⟩
  · rw [ho, hv]
    have h := sameFlags_visitBoth .standard .extended
      (s₁.newTemplateChannel t clock d ds.requiresStandardJobs (s₁.downstreamOutputs ds t) groupJob)
      { ds with group := group }
    exact ⟨h.requiresStandardJobs, h.requiresCustomWork, h.channelIdFactory⟩

theorem sameFlags_prevHashDownstream (m : SetNewPrevHash) (d : DownstreamId)
    (ds : Downstream env.channels) : SameFlags ds (prevHashDownstream m d ds).value := by
  rcases prevHashDownstream_cases d m ds with
    ⟨-, ho⟩ | ⟨-, -, -, group, hv⟩ | ⟨-, group, -, announced, v, hv, ho, -⟩
  · rw [ho]
    exact .refl ds
  · rw [hv]
    exact ⟨rfl, rfl, le_rfl⟩
  · rw [ho, hv]
    have h := sameFlags_visitBoth .extended .standard (prevHashChannel m d ds.requiresStandardJobs)
      { ds with group := group }
    exact ⟨h.requiresStandardJobs, h.requiresCustomWork, h.channelIdFactory⟩

/-- A downstream was there before, with the same flags, or it has just connected and has no
channels. -/
theorem step_downstream (s : ChannelManager env.channels) (e : Event) (hrun : s.running = true)
    {d : DownstreamId} {ds' : Downstream env.channels}
    (h : (s.step e).downstreams.lookup d = some ds') :
    (∃ ds, s.downstreams.lookup d = some ds ∧ SameFlags ds ds') ∨
      (d = s.downstreamIdFactory ∧ (s.step e).downstreamIdFactory = d + 1 ∧
        ds'.channels = (fun _ => ∅) ∧ ds'.channelIdFactory = 2 ∧
        ∃ t m, s.lastFutureTemplate = some t ∧ s.lastNewPrevHash = some m ∧
          s.bootstrapGroupChannel t m 1 = some ds'.group) := by
  have hshape := step_shape s e hrun
  generalize s.step e = s' at hshape h ⊢
  have hinsert : ∀ {d₀ ds₀ ds₁}, s.downstreams.lookup d₀ = some ds₀ →
      (s.downstreams.insert d₀ ds₁).lookup d = some ds' → SameFlags ds₀ ds₁ →
      ∃ ds, s.downstreams.lookup d = some ds ∧ SameFlags ds ds' := by
    intro d₀ ds₀ ds₁ hds₀ hlookup hsame
    by_cases hd : d = d₀
    · subst hd
      rw [AList.lookup_insert] at hlookup
      obtain rfl := Option.some.inj hlookup
      exact ⟨ds₀, hds₀, hsame⟩
    · rw [AList.lookup_insert_ne hd] at hlookup
      exact ⟨ds', hlookup, .refl ds'⟩
  have hvisit : ∀ {f : DownstreamId → Downstream env.channels →
      Outcome (Downstream env.channels) Note PoolErrorKind},
      (visit f s.downstreams).value.lookup d = some ds' →
      (∀ d ds, SameFlags ds (f d ds).value) →
      ∃ ds, s.downstreams.lookup d = some ds ∧ SameFlags ds ds' := by
    intro f hlookup hf
    obtain ⟨ds, hds, rfl | rfl⟩ := visit_lookup_some hlookup
    · exact ⟨ds', hds, .refl ds'⟩
    · exact ⟨ds, hds, hf d ds⟩
  cases hshape with
  | quiet hq | stopped hq =>
      obtain ⟨ds, hds, hk⟩ := hq.downstreams d ds' h
      exact .inl ⟨ds, hds, hk.requiresStandardJobs, hk.requiresCustomWork, hk.channelIdFactory⟩
  | connected ht hm hgroup =>
      by_cases hd : d = s.downstreamIdFactory
      · subst hd
        dsimp only at h
        rw [AList.lookup_insert] at h
        obtain rfl := Option.some.inj h
        exact .inr ⟨rfl, rfl, rfl, rfl, _, _, ht, hm, hgroup⟩
      · dsimp only at h
        rw [AList.lookup_insert_ne hd] at h
        exact .inl ⟨ds', h, .refl ds'⟩
  | template hg ho =>
      subst ho
      exact .inl (hvisit h (sameFlags_newTemplateDownstream _ _ _))
  | prevHash ho =>
      subst ho
      exact .inl (hvisit h (sameFlags_prevHashDownstream _))
  | opened ho =>
      obtain ⟨notes, running, hstate, -⟩ := ho.settle_state
      rw [hstate] at h
      refine .inl (hinsert ho.downstream h ⟨ho.flags.1, ?_, ?_⟩)
      · rw [ho.flags.2, ho.requiresCustomWork]
      · rw [ho.counter]
        exact Nat.le_succ _
  | openedCustom ho =>
      obtain ⟨notes, hstate, -⟩ := ho.state
      rw [hstate] at h
      refine .inl (hinsert ho.downstream h ⟨ho.flags.1, ?_, ?_⟩)
      · rw [ho.flags.2, ho.requiresCustomWork]
      · rw [ho.counter]
        exact Nat.le_succ _
  | closed hds hds' =>
      refine .inl (hinsert hds h ?_)
      rw [hds']
      exact ⟨rfl, rfl, le_rfl⟩
  | custom hds hch hjob hx => exact .inl (hinsert hds h ⟨rfl, rfl, le_rfl⟩)
  | feeTick hg hlast htick ho =>
      subst ho
      exact .inl (hvisit h fun _ ds => sameFlags_visitBoth _ _ _ ds)
  | polled => exact .inl ⟨ds', h, .refl ds'⟩

/-- No downstream connects before the first template and the first previous hash. -/
theorem step_connected (hrun : s.running = true) (hrun' : (s.step e).running = true)
    (h : ∀ d ds, s.downstreams.lookup d = some ds →
      ∃ t m, s.lastFutureTemplate = some t ∧ s.lastNewPrevHash = some m)
    {d : DownstreamId} {ds' : Downstream env.channels}
    (hds' : (s.step e).downstreams.lookup d = some ds') :
    ∃ t m, (s.step e).lastFutureTemplate = some t ∧ (s.step e).lastNewPrevHash = some m := by
  obtain ⟨hlast, hprev⟩ := step_last s e hrun hrun'
  obtain ⟨t, m, ht, hm⟩ : ∃ t m, s.lastFutureTemplate = some t ∧ s.lastNewPrevHash = some m := by
    rcases step_downstream s e hrun hds' with ⟨ds, hds, -⟩ | ⟨-, -, -, -, t, m, ht, hm, -⟩
    · exact h d ds hds
    · exact ⟨t, m, ht, hm⟩
  rw [hlast, hprev]
  cases e with
  | newTemplate t₀ fetch clock =>
      cases hf : t₀.futureTemplate <;> simp [templateAfter, prevHashAfter, hf, ht, hm]
  | _ => simp [templateAfter, prevHashAfter, ht, hm]

/-- A pool is in GridPool mode or not, for the whole run. -/
theorem ClientStep.isSome {before after : Option GridPoolClient} (h : s.ClientStep e before after) :
    after.isSome = before.isSome := by
  cases h with
  | same => rfl
  | installed => rfl

/-- A manager keeps working with GridPool, or without it. -/
theorem step_gridpool_isSome (s : ChannelManager env.channels) (e : Event) :
    (s.step e).gridpool.isSome = s.gridpool.isSome :=
  (step_gridpool s e).isSome

/-! ### Built jobs

`BuiltNow` ties a ghost note to the channel it is about: the job is in the job store of the channel,
under the outputs and at the time the note says. -/

/-- What a note about a built job stands for: outputs computed by the client that is in force, for
the payout of a channel that was given a template with them. -/
structure BuiltNow (s s' : ChannelManager env.channels) (b : Built)
    (ch ch' : env.channels.Channel) (g : GridPoolClient) (payout : ChannelPayout) (now : UInt64) :
    Prop where
  gridpool : s'.gridpool = some g
  paid : s'.gridpoolChannels (b.downstream, b.channel) = some payout
  computed : g.coinbaseOutputs env.readAddress payout b.template.coinbaseTxValueRemaining now =
    .ok b.outputs
  work : b.work = g.work
  fee : b.fee = g.feeActive payout.payoutAddress now
  jobId : b.jobId = env.channels.channel.nextJobId ch
  after : s'.channel? b.downstream b.kind b.channel = some ch'
  given : (s.channel? b.downstream b.kind b.channel = some ch ∧
      env.channels.channel.onNewTemplate ch b.template b.outputs = .ok ch') ∨
    (IsNew env ch ∧ (∃ ds, s.downstreams.lookup b.downstream = some ds ∧
        b.channel = ds.channelIdFactory) ∧
      ∃ mid m, env.channels.channel.onNewTemplate ch b.template b.outputs = .ok mid ∧
        env.channels.channel.onSetNewPrevHash mid m = .ok ch')

theorem mem_keptNotes {V : Type*} {o : Outcome V Note PoolErrorKind} {x : Note}
    (h : x ∈ keptNotes o) : x ∈ o.notes := by
  unfold keptNotes at h
  split at h
  · exact h
  · exact List.mem_of_mem_filter h

/-- The one built note of a visit that builds a job from GridPool outputs. -/
theorem eq_builtNote_of_builds {g : GridPoolClient} {d : DownstreamId} {k : ChannelKind}
    {c : ChannelId} {payout : ChannelPayout} {t : NewTemplate} {now : UInt64}
    {ch : env.channels.Channel} {o : Outcome env.channels.Channel Note PoolErrorKind}
    {outputs : List TxOut} (h : BuildsGridPool env g d k c payout t now ch o outputs) {b : Built}
    (hb : .built b ∈ o.notes) : .built b = builtNote env g d k c payout t outputs now ch := by
  rcases h.notes with ⟨hn, -⟩ | ⟨job, -, -, hn⟩ <;> simpa [hn] using hb

/-- A channel of a visited downstream that got a job from GridPool outputs. -/
theorem builtNow_of_builds {d : DownstreamId} {k : ChannelKind} {c : ChannelId} {g : GridPoolClient}
    {payout : ChannelPayout} {t : NewTemplate} {now : UInt64} {ch : env.channels.Channel}
    {o : Outcome env.channels.Channel Note PoolErrorKind} {outputs : List TxOut}
    (h : BuildsGridPool env g d k c payout t now ch o outputs) {b : Built} (hb : .built b ∈ o.notes)
    (hg : s'.gridpool = some g) (hpayout : s'.gridpoolChannels (d, c) = some payout)
    (hbefore : s.channel? d k c = some ch) (hafter : s'.channel? d k c = some o.value) :
    BuiltNow s s' b ch o.value g payout now := by
  have heq := eq_builtNote_of_builds h hb
  rw [builtNote, Note.built.injEq] at heq
  subst heq
  exact ⟨hg, hpayout, h.computed, rfl, rfl, rfl, hafter, .inl ⟨hbefore, h.template⟩⟩

theorem template_built {t : NewTemplate} {clock : DownstreamId → ChannelId → UInt64}
    {s₁ : ChannelManager env.channels} (hg : s'.gridpool = s₁.gridpool)
    (hp : s'.gridpoolChannels = s₁.gridpoolChannels)
    (hds' : s'.downstreams = (visit (s₁.newTemplateDownstream t clock) s.downstreams).value)
    {b : Built} (hb : .built b ∈ (visit (s₁.newTemplateDownstream t clock) s.downstreams).notes) :
    ∃ ch ch' g payout now, BuiltNow s s' b ch ch' g payout now := by
  obtain ⟨d, ds, hds, hnote, hval⟩ := mem_visit_notes hb
  rcases newTemplateDownstream_cases d t s₁ clock ds with
    ⟨-, ho⟩ | ⟨-, -, hn, -⟩ | ⟨-, group, groupJob, -, -, announced, v, hv, ho, hannounced⟩
  · simp [ho] at hnote
  · simp [hn] at hnote
  · rw [ho] at hnote hval
    rcases List.mem_append.mp hnote with hmem | hmem
    · rw [hannounced] at hmem
      split at hmem <;> simp at hmem
    · rw [hv] at hmem
      obtain ⟨k, c, ch, hch, hnote, hvalue⟩ := Downstream.mem_visitBoth_notes (by decide) hmem
      rcases newTemplateChannel_cases d k c ch t s₁ clock ds.requiresStandardJobs
        (s₁.downstreamOutputs ds t) groupJob with
        ⟨-, hn, -⟩ | ⟨g, payout, outputs, hg₁, hpayout, hbuilds⟩ | ⟨-, -, -, -,
          ⟨hn, -⟩ | ⟨job, -, -, hn⟩⟩ |
        ⟨-, -, hn, -, -⟩
      · simp [hn] at hnote
      · refine ⟨ch, _, g, payout, _, builtNow_of_builds hbuilds hnote (hg.trans hg₁)
          (by rw [hp, hpayout]) (channel?_eq_some.mpr ⟨ds, hds, hch⟩)
          (channel?_eq_some.mpr ⟨v.value, by rw [hds', hval], ?_⟩)⟩
        rw [hv]
        exact hvalue
      · simp [hn] at hnote
      · simp [hn] at hnote
      · simp [hn] at hnote

theorem feeTick_built {g : GridPoolClient} {t : NewTemplate}
    {clock : DownstreamId → ChannelId → UInt64} (hg : s'.gridpool = some g)
    (hp : s'.gridpoolChannels = s.gridpoolChannels)
    (hds' : s'.downstreams = (visit (fun d ds =>
      ds.visitBoth .standard .extended (s.refreshChannel g t clock d)) s.downstreams).value)
    {b : Built} (hb : .built b ∈ (visit (fun d ds =>
      ds.visitBoth .standard .extended (s.refreshChannel g t clock d)) s.downstreams).notes) :
    ∃ ch ch' g payout now, BuiltNow s s' b ch ch' g payout now := by
  obtain ⟨d, ds, hds, hnote, hval⟩ := mem_visit_notes hb
  obtain ⟨k, c, ch, hch, hnote, hvalue⟩ := Downstream.mem_visitBoth_notes (by decide) hnote
  rcases refreshChannel_cases d k c ch t s clock g with ⟨-, hn⟩ | ⟨payout, outputs, hpayout,
    hbuilds, -⟩
  · simp [hn] at hnote
  · exact ⟨ch, _, g, payout, _, builtNow_of_builds hbuilds hnote hg (by rw [hp, hpayout])
      (channel?_eq_some.mpr ⟨ds, hds, hch⟩)
      (channel?_eq_some.mpr ⟨_, by rw [hds', hval], hvalue⟩)⟩

/-- The first job of a channel takes two calls: the future template, and the previous hash that
activates it. -/
theorem firstJob_eq_ok {t : NewTemplate} {m : SetNewPrevHash} {outputs : List TxOut}
    {new ch : env.channels.Channel} {job : Job} (h : firstJob t m outputs new = .ok (job, ch)) :
    ∃ mid, env.channels.channel.onNewTemplate new t outputs = .ok mid ∧
      env.channels.channel.futureJob mid t.templateId = some job ∧
      env.channels.channel.onSetNewPrevHash mid m = .ok ch := by
  unfold firstJob at h
  split at h
  · cases h
  · rename_i mid hmid
    split at h
    · cases h
    · rename_i job' hjob
      split at h
      · cases h
      · rename_i ch' hch
        cases h
        exact ⟨mid, hmid, hjob, hch⟩

theorem opening_built {d : DownstreamId} {k : ChannelKind} {now : UInt64}
    {r : ChannelManager env.channels × Option PoolError} {ds ds' : Downstream env.channels}
    {payout : Option ChannelPayout} {t : NewTemplate} {m : SetNewPrevHash} {outputs : List TxOut}
    {new ch : env.channels.Channel} {job : Job} {requestId : Nat} {groupId : ChannelId}
    (h : Opening s d k now r ds ds' payout t m outputs new ch job) (hg : s'.gridpool = s.gridpool)
    (hp : s'.gridpoolChannels = (s.setPayout d ds.channelIdFactory payout).gridpoolChannels)
    (hds' : s'.downstreams = s.downstreams.insert d ds') {b : Built}
    (hb : .built b ∈ s.openingNotes d k requestId ds.channelIdFactory groupId payout t m outputs now
      new job) : ∃ ch ch' g payout now, BuiltNow s s' b ch ch' g payout now := by
  obtain ⟨mode, hcomputed⟩ := h.computed
  obtain ⟨mid, hmid, -, hch⟩ := firstJob_eq_ok h.first
  unfold openingNotes at hb
  unfold rewardOutputs at hcomputed
  cases hgrid : s.gridpool with
  | none => simp [hgrid] at hb
  | some g =>
      cases payout with
      | none => simp [hgrid] at hb
      | some payout =>
          simp only [hgrid, builtNote, List.cons_append, List.nil_append, List.mem_cons,
            Note.built.injEq, reduceCtorEq, List.not_mem_nil, or_false] at hb hcomputed
          subst hb
          have hafter : s'.channel? d k ds.channelIdFactory = some ch := by
            refine channel?_eq_some.mpr ⟨ds', by rw [hds', AList.lookup_insert], ?_⟩
            rw [h.channels, Function.update_self, AList.lookup_insert]
          exact ⟨new, ch, g, payout, now, hg.trans hgrid, by rw [hp]; simp [setPayout], hcomputed,
            rfl, rfl, rfl, hafter, .inr ⟨h.isNew, ⟨ds, h.downstream, rfl⟩, mid, m, hmid, hch⟩⟩

/-- Every note about a built job was there before or stands for a job built in this step. -/
theorem step_built (s : ChannelManager env.channels) (e : Event) {b : Built}
    (hb : .built b ∈ (s.step e).history) :
    .built b ∈ s.history ∨
      ∃ ch ch' g payout now, BuiltNow s (s.step e) b ch ch' g payout now := by
  cases hrun : s.running with
  | false =>
      rw [step_of_stopped s e hrun] at hb
      exact .inl hb
  | true =>
      have hshape := step_shape s e hrun
      generalize s.step e = s' at hshape hb ⊢
      have hplain : ∀ {notes : List Note}, s'.history = s.history ++ notes →
          (∀ x ∈ notes, Note.Plain x) → .built b ∈ s.history := by
        intro notes hn hp
        rw [hn] at hb
        rcases List.mem_append.mp hb with h | h
        · exact h
        · obtain ⟨m, hm, -⟩ := hp _ h
          cases hm
      cases hshape with
      | quiet h | stopped h =>
          obtain ⟨notes, hn, hp⟩ := h.notes
          exact .inl (hplain hn hp)
      | template hg ho =>
          rcases List.mem_append.mp hb with h | h
          · exact .inl h
          · subst ho
            exact .inr (template_built rfl rfl rfl (mem_keptNotes h))
      | prevHash ho =>
          rcases List.mem_append.mp hb with h | h
          · exact .inl h
          · subst ho
            obtain ⟨d, ds, hds, hnote, -⟩ := mem_visit_notes (mem_keptNotes h)
            rename_i m
            rcases prevHashDownstream_cases d m ds with
              ⟨-, ho⟩ | ⟨-, -, hn, -⟩ | ⟨-, group, -, announced, v, hv, ho, hannounced⟩
            · simp [ho] at hnote
            · simp [hn] at hnote
            · rw [ho] at hnote
              rcases List.mem_append.mp hnote with hmem | hmem
              · rcases hannounced with hnil | ⟨job, -, -, -, hannounced⟩
                · simp [hnil] at hmem
                · simp [hannounced] at hmem
              · rw [hv] at hmem
                obtain ⟨k, c, ch, -, hnote, -⟩ := Downstream.mem_visitBoth_notes (by decide) hmem
                rcases prevHashChannel_cases d k c ch m
                  ds.requiresStandardJobs with ⟨-, hn, -⟩ | ⟨-, hn | ⟨job, -, -, -, hn⟩⟩ <;>
                  simp [hn] at hnote
      | opened h =>
          obtain ⟨notes, running, hstate, hend⟩ := h.settle_state
          rw [hstate] at hb ⊢
          rcases List.mem_append.mp hb with hold | hnew
          · exact .inl hold
          · refine .inr ?_
            rcases hend with ⟨rfl, -⟩ | ⟨-, ⟨requestId, groupId, rfl⟩, -⟩
            · simp at hnew
            · refine opening_built h ?_ ?_ ?_ hnew <;> rfl
      | openedCustom h =>
          obtain ⟨notes, hstate, hp⟩ := h.state
          exact .inl (hplain (by rw [hstate]; rfl) hp)
      | custom hds hch hjob hx =>
          refine .inl (hplain rfl ?_)
          simpa using hx
      | feeTick hg hlast htick ho =>
          rcases List.mem_append.mp hb with h | h
          · exact .inl h
          · subst ho
            refine .inr ?_
            refine feeTick_built ?_ ?_ ?_ (mem_keptNotes h)
            exacts [hg, rfl, rfl]
      | connected | closed | polled => exact .inl hb

/-! ### Future jobs are kept under their template

The job store looks a future job up by the id of a template. That the job found there was built from
that very template is an invariant of the stores, which every event keeps. -/

/-- Every future job is stored under the id of the template it was built from, and has no
`min_ntime` yet. -/
def Keyed {C : Type} (ops : JobOps C) (c : C) : Prop :=
  ∀ u j, ops.futureJob c u = some j → j.minNtime = none ∧ ∃ t, j.template? = some t ∧
    t.templateId = u

section Keyed

variable {C : Type} {ops : JobOps C} {c c' : C}

/-- Storing a future job under the id of its own template. -/
theorem keyed_update {f : TemplateId → Option Job} {t : NewTemplate} {j : Job}
    (h : ∀ u j, f u = some j → j.minNtime = none ∧ ∃ t, j.template? = some t ∧ t.templateId = u)
    (hj : j.template? = some t) (hn : j.minNtime = none) {u : TemplateId} {j' : Job}
    (hu : update f t.templateId (some j) u = some j') :
    j'.minNtime = none ∧ ∃ t, j'.template? = some t ∧ t.templateId = u := by
  by_cases heq : u = t.templateId
  · subst heq
    rw [Function.update_self] at hu
    obtain rfl := Option.some.inj hu
    exact ⟨hn, t, hj, rfl⟩
  · rw [Function.update_of_ne heq] at hu
    exact h u j' hu

theorem keyed_of_empty (h : ∀ u, ops.futureJob c u = none) : Keyed ops c := by
  intro u j hj
  rw [h u] at hj
  cases hj

/-- A template adds a future job under its own id, or becomes the active job. -/
theorem Keyed.onNewTemplate (law : ops.Lawful) (h : Keyed ops c) {t : NewTemplate}
    {outputs : List TxOut} (ht : ops.onNewTemplate c t outputs = .ok c') : Keyed ops c' := by
  cases hf : t.futureTemplate with
  | true =>
      obtain ⟨j, hb, hfuture, -⟩ := law.onNewTemplate_future ht hf
      intro u j' hj'
      rw [hfuture] at hj'
      exact keyed_update h hb.template (hb.future.mpr hf) hj'
  | false =>
      obtain ⟨j, -, -, hfuture, -⟩ := law.onNewTemplate_active ht hf
      intro u j' hj'
      rw [hfuture] at hj'
      exact h u j' hj'

theorem Keyed.onSetNewPrevHash (law : ops.Lawful) (h : Keyed ops c) {m : SetNewPrevHash}
    (hm : ops.onSetNewPrevHash c m = .ok c') : Keyed ops c' :=
  fun u j hj => h u j (law.onSetNewPrevHash_future hm hj).2

end Keyed

/-- A new channel has no jobs and no tip. -/
theorem IsNew.empty (law : env.channels.Lawful) {ch : env.channels.Channel} (h : IsNew env ch) :
    env.channels.channel.activeJob ch = none ∧ (∀ u, env.channels.channel.futureJob ch u = none) ∧
      env.channels.channel.chainTip ch = none := by
  obtain ⟨i, m, p, h | h⟩ := h
  · exact law.newStandard h
  · exact law.newExtended h

/-- The first job of a new channel is the active one. The last future template and the last previous
hash belong together, or there would have been an error. -/
theorem firstJob_new (law : env.channels.Lawful) {t : NewTemplate} {m : SetNewPrevHash}
    {outputs : List TxOut} {new ch : env.channels.Channel} {job : Job} (hnew : IsNew env new)
    (h : firstJob t m outputs new = .ok (job, ch)) :
    t.templateId = m.templateId ∧
      BuiltFrom job (env.channels.channel.nextJobId new) t outputs ∧ t.futureTemplate = true ∧
      env.channels.channel.activeJob ch = some (job.activate m.headerTimestamp) ∧
      (∀ u, env.channels.channel.futureJob ch u = none) ∧
      env.channels.channel.chainTip ch = some m.prevHash := by
  obtain ⟨mid, hmid, hjob, hch⟩ := firstJob_eq_ok h
  obtain ⟨hactive, hempty, -⟩ := hnew.empty law
  cases hf : t.futureTemplate with
  | false =>
      -- a template that is not a future one leaves no future job behind
      obtain ⟨j, -, -, hfuture, -⟩ := law.channel.onNewTemplate_active hmid hf
      rw [hfuture, hempty] at hjob
      cases hjob
  | true =>
      obtain ⟨j, hb, hfuture, -⟩ := law.channel.onNewTemplate_future hmid hf
      have hj : j = job := by
        rw [hfuture, Function.update_self] at hjob
        exact Option.some.inj hjob
      subst hj
      have hother : ∀ u, u ≠ t.templateId → env.channels.channel.futureJob mid u = none := by
        intro u hu
        rw [hfuture, Function.update_of_ne hu, hempty]
      have hid : t.templateId = m.templateId := by
        by_contra hne
        obtain ⟨hnone, -⟩ := law.channel.onSetNewPrevHash_unmatched hch (hother _ (Ne.symm hne))
        rw [hnone] at hjob
        cases hjob
      refine ⟨hid, hb, rfl, law.channel.onSetNewPrevHash_activates hch (hid ▸ hjob), ?_,
        (law.channel.onSetNewPrevHash_tip hch).1⟩
      intro u
      by_contra hne
      obtain ⟨j', hj'⟩ := Option.ne_none_iff_exists'.mp hne
      obtain ⟨hne, hj'⟩ := law.channel.onSetNewPrevHash_future hch hj'
      rw [hother u (hid ▸ hne)] at hj'
      cases hj'

/-- What a step leaves of the future jobs of a channel. -/
theorem ChannelStep.keyed (law : env.channels.Lawful) {d : DownstreamId} {c : ChannelId}
    {before : Option env.channels.Channel} {ch' : env.channels.Channel}
    (h : ChannelStep s e s' d c before (some ch'))
    (hbefore : ∀ ch, before = some ch → Keyed env.channels.channel ch) :
    Keyed env.channels.channel ch' := by
  cases h with
  | same => exact hbefore ch' rfl
  | template _ h => exact (hbefore _ rfl).onNewTemplate law.channel.toLawful h
  | groupJob he hg hds hcustom htemplate hfuture h =>
      rename_i ch t fetch clock job ds
      cases hf : t.futureTemplate with
      | true =>
          obtain ⟨hupdate, -⟩ := law.onGroupChannelJob_future h htemplate (hfuture.mpr hf)
          intro u j hj
          rw [hupdate] at hj
          exact keyed_update (hbefore ch rfl) htemplate (hfuture.mpr hf) hj
      | false =>
          obtain ⟨-, hsame, -⟩ := law.onGroupChannelJob_active h (by simp [hfuture, hf])
          intro u j hj
          rw [hsame] at hj
          exact hbefore ch rfl u j hj
  | prevHash _ _ _ h => exact (hbefore _ rfl).onSetNewPrevHash law.channel.toLawful h
  | custom _ _ h =>
      obtain ⟨-, hsame, -⟩ := law.onSetCustomMiningJob h
      intro u j hj
      rw [hsame] at hj
      exact hbefore _ rfl u j hj
  | opened _ _ _ _ _ _ hnew h => exact keyed_of_empty (firstJob_new law hnew h).2.2.2.2.1
  | openedCustom _ _ _ _ _ hnew h =>
      exact (keyed_of_empty (hnew.empty law).2.1).onSetNewPrevHash law.channel.toLawful h

/-- The future jobs of every channel are kept under their template. -/
def AllKeyed (s : ChannelManager env.channels) : Prop :=
  ∀ d k c ch, s.channel? d k c = some ch → Keyed env.channels.channel ch

/-- The loop of a manager that started begins in the initial state. -/
theorem start_eq_ok {config : Config} {now : UInt64} (h : start env config now = .ok s) :
    ∃ outputs, s = initial config outputs := by
  unfold start at h
  dsimp only at h
  split at h
  · cases h
  · exact ⟨_, (Except.ok.inj h).symm⟩

theorem allKeyed_initial (config : Config) (outputs : List TxOut) :
    AllKeyed (initial config outputs : ChannelManager env.channels) := by
  intro d k c ch h
  cases h

/-- Every event keeps the future jobs of every channel under their templates. -/
theorem allKeyed_step (law : env.channels.Lawful) {s : ChannelManager env.channels} (h : AllKeyed s)
    (e : Event) : AllKeyed (s.step e) := by
  intro d k c ch hch
  cases hrun : s.running with
  | false =>
      rw [step_of_stopped s e hrun] at hch
      exact h d k c ch hch
  | true =>
      have hstep := step_channel law s e hrun d k c
      rw [hch] at hstep
      exact hstep.keyed law fun ch' hch' => h d k c ch' hch'

/-! ### Fresh ids

Ids of downstreams and channels are never used twice in the life of a manager: the factories only
count up, and what exists has a smaller id. -/

theorem step_downstreamIdFactory (s : ChannelManager env.channels) (e : Event) :
    s.downstreamIdFactory ≤ (s.step e).downstreamIdFactory := by
  cases hrun : s.running with
  | false => rw [step_of_stopped s e hrun]
  | true =>
      have hshape := step_shape s e hrun
      generalize s.step e = s' at hshape ⊢
      cases hshape with
      | quiet h | stopped h => exact h.ids
      | connected => exact Nat.le_succ _
      | opened h =>
          obtain ⟨notes, running, hstate, -⟩ := h.settle_state
          rw [hstate]
      | openedCustom h =>
          obtain ⟨notes, hstate, -⟩ := h.state
          rw [hstate]
          exact le_rfl
      | template | prevHash | closed | custom | feeTick | polled => exact le_rfl

/-- The payout of a channel is fixed as long as it is open. -/
theorem step_payout (s : ChannelManager env.channels) (e : Event) {d : DownstreamId}
    {k : ChannelKind} {c : ChannelId} {ds : Downstream env.channels} {ch' : env.channels.Channel}
    (hds : s.downstreams.lookup d = some ds) (hc : c < ds.channelIdFactory)
    (hch' : (s.step e).channel? d k c = some ch') :
    (s.step e).gridpoolChannels (d, c) = s.gridpoolChannels (d, c) := by
  cases hrun : s.running with
  | false => rw [step_of_stopped s e hrun]
  | true =>
      have hshape := step_shape s e hrun
      obtain ⟨ds', hds', hlookup⟩ := channel?_eq_some.mp hch'
      generalize s.step e = s' at hshape hds' ⊢
      -- a new channel of the same downstream has the next id
      have hset : ∀ {d₀ ds₀ payout}, s.downstreams.lookup d₀ = some ds₀ →
          (s.setPayout d₀ ds₀.channelIdFactory payout).gridpoolChannels (d, c) =
            s.gridpoolChannels (d, c) := by
        intro d₀ ds₀ payout hds₀
        cases payout with
        | none => rfl
        | some payout =>
            have hne : (d, c) ≠ (d₀, ds₀.channelIdFactory) := by
              rintro ⟨⟩
              obtain rfl := Option.some.inj (hds.symm.trans hds₀)
              exact absurd hc (Nat.lt_irrefl _)
            simp [setPayout, Function.update_of_ne hne]
      cases hshape with
      | quiet h | stopped h => exact h.payouts d c ds ds' hds hds' hc
      | opened h =>
          obtain ⟨notes, running, hstate, -⟩ := h.settle_state
          rw [hstate]
          exact hset h.downstream
      | openedCustom h =>
          obtain ⟨notes, hstate, -⟩ := h.state
          rw [hstate]
          exact hset h.downstream
      | closed hds₀ hds₀' =>
          rename_i d₀ c₀ ds₀ ds₀'
          have hne : (d, c) ≠ (d₀, c₀) := by
            rintro ⟨⟩
            dsimp only at hds'
            rw [AList.lookup_insert] at hds'
            obtain rfl := Option.some.inj hds'
            rw [hds₀', AList.lookup_erase] at hlookup
            cases hlookup
          simp [Function.update_of_ne hne]
      | connected | template | prevHash | custom | feeTick | polled => rfl

/-- Ids are below the counters they come from. -/
structure Numbered (s : ChannelManager env.channels) : Prop where
  downstream : ∀ d ds, s.downstreams.lookup d = some ds → d < s.downstreamIdFactory
  channel : ∀ d ds k c ch, s.downstreams.lookup d = some ds →
    (ds.channels k).lookup c = some ch → c < ds.channelIdFactory

theorem numbered_initial (config : Config) (outputs : List TxOut) :
    Numbered (initial config outputs : ChannelManager env.channels) where
  downstream := by
    intro d ds h
    cases h
  channel := by
    intro d ds k c ch h
    cases h

/-- A channel that was not open before has the id the counter was at. -/
theorem step_new_channel (law : env.channels.Lawful) (hrun : s.running = true) {d : DownstreamId}
    {k : ChannelKind} {c : ChannelId} {ch' : env.channels.Channel}
    {ds ds' : Downstream env.channels}
    (hbefore : s.channel? d k c = none) (hds : s.downstreams.lookup d = some ds)
    (hds' : (s.step e).downstreams.lookup d = some ds')
    (hch' : (ds'.channels k).lookup c = some ch') :
    c = ds.channelIdFactory ∧ ds'.channelIdFactory = ds.channelIdFactory + 1 := by
  have hstep := step_channel law s e hrun d k c
  have hshape := step_shape s e hrun
  rw [hbefore, channel?_eq_some.mpr ⟨ds', hds', hch'⟩] at hstep
  have hopen : ∃ k₀ msg allocated now, e = .openChannel k₀ d msg allocated now ∧
      c = ds.channelIdFactory := by
    cases hstep with
    | opened he hds₀ hc =>
        obtain rfl := Option.some.inj (hds.symm.trans hds₀)
        exact ⟨_, _, _, _, he, hc⟩
    | openedCustom he hds₀ hc =>
        obtain rfl := Option.some.inj (hds.symm.trans hds₀)
        exact ⟨_, _, _, _, he, hc⟩
  obtain ⟨k₀, msg, allocated, now, rfl, hc⟩ := hopen
  refine ⟨hc, ?_⟩
  generalize s.step (.openChannel k₀ d msg allocated now) = s' at hshape hds'
  have hquiet : Quiet s s' → False := by
    intro h
    obtain ⟨ds₀, hds₀, hk⟩ := h.downstreams d ds' hds'
    rw [channel?, hds₀, Option.bind_some, ← hk.channels, hch'] at hbefore
    cases hbefore
  cases hshape with
  | quiet h | stopped h => exact (hquiet h).elim
  | opened h =>
      obtain ⟨notes, running, hstate, -⟩ := h.settle_state
      rw [hstate] at hds'
      dsimp only at hds'
      rw [AList.lookup_insert] at hds'
      obtain rfl := Option.some.inj hds'
      obtain rfl := Option.some.inj (hds.symm.trans h.downstream)
      exact h.counter
  | openedCustom h =>
      obtain ⟨notes, hstate, -⟩ := h.state
      rw [hstate] at hds'
      dsimp only [settle] at hds'
      rw [AList.lookup_insert] at hds'
      obtain rfl := Option.some.inj hds'
      obtain rfl := Option.some.inj (hds.symm.trans h.downstream)
      exact h.counter

theorem numbered_step (law : env.channels.Lawful) {s : ChannelManager env.channels} (h : Numbered s)
    (e : Event) : Numbered (s.step e) := by
  cases hrun : s.running with
  | false =>
      rw [step_of_stopped s e hrun]
      exact h
  | true =>
      refine ⟨?_, ?_⟩
      · intro d ds' hds'
        rcases step_downstream s e hrun hds' with ⟨ds, hds, -⟩ | ⟨rfl, hnext, -⟩
        · exact Nat.lt_of_lt_of_le (h.downstream d ds hds) (step_downstreamIdFactory s e)
        · exact hnext ▸ Nat.lt_succ_self _
      · intro d ds' k c ch' hds' hch'
        rcases step_downstream s e hrun hds' with ⟨ds, hds, hflags⟩ | ⟨-, -, hempty, -⟩
        · cases hbefore : s.channel? d k c with
          | some ch =>
              obtain ⟨ds₀, hds₀, hlookup⟩ := channel?_eq_some.mp hbefore
              obtain rfl := Option.some.inj (hds.symm.trans hds₀)
              exact Nat.lt_of_lt_of_le (h.channel d ds k c ch hds hlookup) hflags.channelIdFactory
          | none =>
              obtain ⟨rfl, hnext⟩ := step_new_channel law hrun hbefore hds hds' hch'
              exact hnext ▸ Nat.lt_succ_self _
        · rw [hempty] at hch'
          cases hch'

end ChannelManager

end GridPoolSv2.Pool
