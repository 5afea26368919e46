import GridPoolSv2.Pool.ChannelManager

/-!
# Pool.Effects: what one event does to a channel

Every result about the channel manager asks what an event can do to the job store of one
channel. This module answers it once:

* inversion lemmas for the handlers and their loop bodies (`…_cases`);
* `ChannelStep`, the ways a single channel `(d, k, c)` can change in one event, and
  `step_channel`, which says that no event does anything else.

The handlers of templates and previous hashes reach every channel of a downstream that
does not require custom work, unless they end in a shutdown; `ChannelStep.same` records
this as the condition under which a channel stays as it was.

The inversion lemmas say everything a handler can do, its error exits included: an invariant is
then proved by cases on `ChannelStep` (or on `Pool.History.Shape`), with no handler unfolded
again. The handlers of opening are the largest ones; `Opening` and `OpeningCustom` name what a
request that succeeds has found and made, and `OpenEffect` says that there is no third way.

The loops are `Lib.Visit` ones: a loop that fails has visited a prefix of the channels, and
what is said of a single channel holds whether or not the loop got to it.
-/

namespace GridPoolSv2.Pool

open Consensus (Bytes TxOut)
open Function (update)
open Visit

/-! ### Loops over the channels of a downstream

The handlers visit the channels of a downstream in two passes, one for each kind, in an order that
differs from handler to handler. A channel sees at most one of the passes. -/

namespace Downstream

variable {api : ChannelsSv2} {ds : Downstream api} {first second : ChannelKind}
  {f : ChannelKind → ChannelId → api.Channel → Outcome api.Channel Note PoolErrorKind}

/-- A pass over the channels of one kind leaves the other kind alone. -/
theorem visitChannels_of_ne {k k' : ChannelKind} (h : k' ≠ k)
    (f : ChannelId → api.Channel → Outcome api.Channel Note PoolErrorKind) :
    (ds.visitChannels k f).value.channels k' = ds.channels k' :=
  Function.update_of_ne h _ _

/-- The channels of the visited kind, after the pass. -/
theorem visitChannels_self (k : ChannelKind)
    (f : ChannelId → api.Channel → Outcome api.Channel Note PoolErrorKind) :
    (ds.visitChannels k f).value.channels k = (visit f (ds.channels k)).value :=
  Function.update_self _ _ _

/-- The loops change nothing but the channels. -/
theorem visitBoth_frame (first second : ChannelKind)
    (f : ChannelKind → ChannelId → api.Channel → Outcome api.Channel Note PoolErrorKind)
    (ds : Downstream api) :
    ∃ channels, (ds.visitBoth first second f).value = { ds with channels := channels } := by
  cases h : (ds.visitChannels first (f first)).error with
  | some e =>
      rw [visitBoth, Outcome.andThen_eq_of_error h]
      exact ⟨_, rfl⟩
  | none =>
      rw [visitBoth, Outcome.andThen_eq_of_ok h]
      exact ⟨_, rfl⟩

/-- A channel is as it was, or it was visited and its notes are kept. -/
theorem visitBoth_lookup (hne : first ≠ second)
    (f : ChannelKind → ChannelId → api.Channel → Outcome api.Channel Note PoolErrorKind)
    (ds : Downstream api) (k : ChannelKind) (c : ChannelId) :
    ((ds.visitBoth first second f).value.channels k).lookup c = (ds.channels k).lookup c ∨
      ∃ ch, (ds.channels k).lookup c = some ch ∧
        ((ds.visitBoth first second f).value.channels k).lookup c = some (f k c ch).value ∧
        ∀ x ∈ (f k c ch).notes, x ∈ (ds.visitBoth first second f).notes := by
  cases h : (ds.visitChannels first (f first)).error with
  | some e =>
      rw [visitBoth, Outcome.andThen_eq_of_error h]
      by_cases hk : k = first
      · subst hk
        rw [visitChannels_self]
        exact visit_lookup (f k) (ds.channels k) c
      · rw [visitChannels_of_ne hk]
        exact .inl rfl
  | none =>
      rw [visitBoth, Outcome.andThen_eq_of_ok h]
      by_cases hk : k = first
      · subst hk
        dsimp only
        rw [visitChannels_of_ne hne, visitChannels_self]
        refine (visit_lookup (f k) (ds.channels k) c).imp_right ?_
        rintro ⟨ch, hch, hval, hn⟩
        exact ⟨ch, hch, hval, fun x hx => List.mem_append_left _ (hn x hx)⟩
      · by_cases hk' : k = second
        · subst hk'
          dsimp only
          rw [visitChannels_self, visitChannels_of_ne hk]
          refine (visit_lookup (f k) (ds.channels k) c).imp_right ?_
          rintro ⟨ch, hch, hval, hn⟩
          refine ⟨ch, hch, hval, fun x hx => List.mem_append_right _ ?_⟩
          rw [visitChannels, visitChannels_of_ne hk]
          exact hn x hx
        · dsimp only
          rw [visitChannels_of_ne hk', visitChannels_of_ne hk]
          exact .inl rfl

/-- Every note was left by the visit of a channel. -/
theorem mem_visitBoth_notes (hne : first ≠ second) {x : Note}
    (hx : x ∈ (ds.visitBoth first second f).notes) :
    ∃ k c ch, (ds.channels k).lookup c = some ch ∧ x ∈ (f k c ch).notes ∧
      ((ds.visitBoth first second f).value.channels k).lookup c = some (f k c ch).value := by
  cases h : (ds.visitChannels first (f first)).error with
  | some e =>
      rw [visitBoth, Outcome.andThen_eq_of_error h] at hx ⊢
      obtain ⟨c, ch, hch, hn, hval⟩ := mem_visit_notes hx
      exact ⟨first, c, ch, hch, hn, by rwa [visitChannels_self]⟩
  | none =>
      rw [visitBoth, Outcome.andThen_eq_of_ok h] at hx ⊢
      rcases List.mem_append.mp hx with hx | hx
      · obtain ⟨c, ch, hch, hn, hval⟩ := mem_visit_notes hx
        refine ⟨first, c, ch, hch, hn, ?_⟩
        dsimp only
        rwa [visitChannels_of_ne hne, visitChannels_self]
      · obtain ⟨c, ch, hch, hn, hval⟩ := mem_visit_notes hx
        rw [visitChannels_of_ne hne.symm] at hch
        refine ⟨second, c, ch, hch, hn, ?_⟩
        dsimp only
        rwa [visitChannels_self]

/-- `ds'` differs from `ds` at most in the payout mode and in a larger channel counter. -/
structure Kept (ds ds' : Downstream api) : Prop where
  requiresStandardJobs : ds'.requiresStandardJobs = ds.requiresStandardJobs
  requiresCustomWork : ds'.requiresCustomWork = ds.requiresCustomWork
  group : ds'.group = ds.group
  channels : ds'.channels = ds.channels
  channelIdFactory : ds.channelIdFactory ≤ ds'.channelIdFactory

/-- A downstream after it opened its next channel. -/
def withChannel (ds : Downstream api) (mode : Payout.PayoutMode) (group : api.Group)
    (k : ChannelKind) (ch : api.Channel) : Downstream api :=
  { ds with
    payoutMode := some mode
    channelIdFactory := ds.channelIdFactory + 1
    group := group
    channels := update ds.channels k ((ds.channels k).insert ds.channelIdFactory ch) }

theorem Kept.refl (ds : Downstream api) : Kept ds ds := ⟨rfl, rfl, rfl, rfl, le_rfl⟩

theorem Kept.trans {ds₁ ds₂ ds₃ : Downstream api} (h : Kept ds₁ ds₂) (h' : Kept ds₂ ds₃) :
    Kept ds₁ ds₃ where
  requiresStandardJobs := h'.requiresStandardJobs.trans h.requiresStandardJobs
  requiresCustomWork := h'.requiresCustomWork.trans h.requiresCustomWork
  group := h'.group.trans h.group
  channels := h'.channels.trans h.channels
  channelIdFactory := Nat.le_trans h.channelIdFactory h'.channelIdFactory

/-- Loops without an error visited every channel. -/
theorem visitBoth_ok (hne : first ≠ second) (h : (ds.visitBoth first second f).error = none)
    {k : ChannelKind} (hk : k = first ∨ k = second) {c : ChannelId} {ch : api.Channel}
    (hch : (ds.channels k).lookup c = some ch) :
    ((ds.visitBoth first second f).value.channels k).lookup c = some (f k c ch).value ∧
      (f k c ch).error = none ∧ ∀ x ∈ (f k c ch).notes,
        x ∈ (ds.visitBoth first second f).notes := by
  obtain ⟨hfirst, hsecond⟩ := Outcome.andThen_error_eq_none h
  rw [visitBoth, Outcome.andThen_eq_of_ok hfirst]
  rcases hk with rfl | rfl
  · dsimp only
    rw [visitChannels_of_ne hne, visitChannels_self]
    obtain ⟨hval, herr, hn⟩ := visit_ok hfirst hch
    exact ⟨hval, herr, fun x hx => List.mem_append_left _ (hn x hx)⟩
  · dsimp only
    rw [visitChannels_self]
    rw [← visitChannels_of_ne hne.symm (f first)] at hch
    obtain ⟨hval, herr, hn⟩ := visit_ok hsecond hch
    exact ⟨hval, herr, fun x hx => List.mem_append_right _ (hn x hx)⟩

/-- The fate of one channel: it is absent, or it was not reached because of an error, or it was
visited. -/
theorem visitBoth_channel (hne : first ≠ second) {k : ChannelKind} (hk : k = first ∨ k = second)
    (f : ChannelKind → ChannelId → api.Channel → Outcome api.Channel Note PoolErrorKind)
    (ds : Downstream api) (c : ChannelId) :
    ((ds.channels k).lookup c = none ∧
        ((ds.visitBoth first second f).value.channels k).lookup c = none) ∨
      ∃ ch, (ds.channels k).lookup c = some ch ∧
        ((((ds.visitBoth first second f).value.channels k).lookup c = some ch ∧
            (ds.visitBoth first second f).error ≠ none) ∨
          (((ds.visitBoth first second f).value.channels k).lookup c = some (f k c ch).value ∧
            ((f k c ch).error ≠ none → (ds.visitBoth first second f).error ≠ none) ∧
            ∀ x ∈ (f k c ch).notes, x ∈ (ds.visitBoth first second f).notes)) := by
  cases hch : (ds.channels k).lookup c with
  | none =>
      refine .inl ⟨rfl, ?_⟩
      rcases visitBoth_lookup hne f ds k c with hsame | ⟨ch, hch', -⟩
      · exact hsame.trans hch
      · rw [hch] at hch'
        cases hch'
  | some ch =>
      refine .inr ⟨ch, rfl, ?_⟩
      cases he : (ds.visitBoth first second f).error with
      | none =>
          obtain ⟨hval, herr, hn⟩ := visitBoth_ok hne he hk hch
          exact .inr ⟨hval, fun h => absurd herr h, hn⟩
      | some e =>
          rcases visitBoth_lookup hne f ds k c with hsame | ⟨ch', hch', hval, hn⟩
          · exact .inl ⟨hsame.trans hch, by simp⟩
          · obtain rfl := Option.some.inj (hch.symm.trans hch')
            exact .inr ⟨hval, fun _ => by simp, hn⟩

end Downstream

/-! ### Notes

The history of the manager mixes messages with ghosts. `Note.Plain` marks what says nothing about a
job, so that results about job messages can pass over it. -/

/-- Messages about jobs: a new job, or the previous hash that activates one. -/
def Mining.aboutJobs : Mining → Bool
  | .newMiningJob _ _ | .newExtendedMiningJob _ _ | .setNewPrevHash _ _ _ _ _ => true
  | _ => false

/-- A note that is not about jobs. -/
def Note.Plain (x : Note) : Prop :=
  ∃ m : Sent, x = .sent m ∧ m.message.aboutJobs = false

/-! ### Loop bodies

One lemma for each function that a loop calls on a channel or on a downstream: the channel is left
alone with an error, or changed by exactly one call of its job store. -/

section Bodies

variable {env : Env} (d : DownstreamId) (k : ChannelKind) (c : ChannelId)
  (ch : env.channels.Channel) (t : NewTemplate)

/-- A channel is given a template, or the visit fails and leaves it as it was. -/
theorem giveTemplate_cases (outputs : List TxOut) (missing : PoolErrorKind) (ghost : List Note) :
    let o := giveTemplate env d k c t outputs missing ghost ch
    (o.value = ch ∧ o.notes = [] ∧ o.error ≠ none) ∨
      (env.channels.channel.onNewTemplate ch t outputs = .ok o.value ∧
        ((o.notes = ghost ∧ o.error ≠ none) ∨
          ∃ job, jobOf env.channels.channel o.value t = some job ∧
            o.notes = ghost ++ [.sent ⟨d, .job k c job, [c]⟩] ∧ o.error = none)) := by
  dsimp only
  unfold giveTemplate
  split
  · exact .inl ⟨rfl, rfl, by simp⟩
  · rename_i ch' hch'
    refine .inr ?_
    split
    · exact ⟨hch', .inl ⟨rfl, by simp⟩⟩
    · rename_i job hjob
      exact ⟨hch', .inr ⟨job, hjob, rfl, rfl⟩⟩

/-- The visit of a channel by a handler that builds jobs from GridPool outputs. -/
structure BuildsGridPool (env : Env) (g : GridPoolClient) (d : DownstreamId) (k : ChannelKind)
    (c : ChannelId) (payout : ChannelPayout) (t : NewTemplate) (now : UInt64)
    (ch : env.channels.Channel) (o : Outcome env.channels.Channel Note PoolErrorKind)
    (outputs : List TxOut) : Prop where
  computed : g.coinbaseOutputs env.readAddress payout t.coinbaseTxValueRemaining now = .ok outputs
  template : env.channels.channel.onNewTemplate ch t outputs = .ok o.value
  notes : (o.notes = [builtNote env g d k c payout t outputs now ch] ∧ o.error ≠ none) ∨
    ∃ job, jobOf env.channels.channel o.value t = some job ∧ o.error = none ∧
      o.notes = [builtNote env g d k c payout t outputs now ch, .sent ⟨d, .job k c job, [c]⟩]

/-- A channel with a payout gets a job of its own for the template, with the outputs that
`effective_coinbase_outputs` makes at the time of the call, or is left alone. -/
theorem giveGridPoolTemplate_cases (g : GridPoolClient) (payout : ChannelPayout)
    (missing : PoolErrorKind) (now : UInt64) :
    let o := giveGridPoolTemplate env g d k c payout t missing now ch
    (o.value = ch ∧ o.notes = [] ∧ o.error ≠ none) ∨
      ∃ outputs, BuildsGridPool env g d k c payout t now ch o outputs := by
  dsimp only
  unfold giveGridPoolTemplate
  split
  · exact .inl ⟨rfl, rfl, by simp⟩
  · rename_i outputs houtputs
    rcases giveTemplate_cases d k c ch t outputs missing
      [builtNote env g d k c payout t outputs now ch] with hfail | ⟨htemplate, hnotes⟩
    · exact .inl hfail
    · refine .inr ⟨outputs, houtputs, htemplate, hnotes.imp_right ?_⟩
      rintro ⟨job, hjob, hn, herr⟩
      exact ⟨job, hjob, herr, hn⟩

/-- A channel takes the job of its group, or is left alone. -/
theorem giveGroupJob_cases (job : Job) :
    let o := giveGroupJob env job ch
    o.notes = [] ∧ ((o.value = ch ∧ o.error ≠ none) ∨
      (env.channels.onGroupChannelJob ch job = .ok o.value ∧ o.error = none)) := by
  dsimp only
  unfold giveGroupJob
  split
  · exact ⟨rfl, .inl ⟨rfl, by simp⟩⟩
  · rename_i ch' hch'
    exact ⟨rfl, .inr ⟨hch', rfl⟩⟩

namespace ChannelManager

variable (s : ChannelManager env.channels) (clock : DownstreamId → ChannelId → UInt64)

/-- The three ways a channel gets the job of a template. -/
theorem newTemplateChannel_cases (requiresStandardJobs : Bool) (outputs : List TxOut)
    (groupJob : Job) :
    let o := s.newTemplateChannel t clock d requiresStandardJobs outputs groupJob k c ch
    (o.value = ch ∧ o.notes = [] ∧ o.error ≠ none) ∨
      (∃ g payout outputs, s.gridpool = some g ∧ s.gridpoolChannels (d, c) = some payout ∧
        BuildsGridPool env g d k c payout t (clock d c) ch o outputs) ∨
      (s.gridpool = none ∧ k = .standard ∧ requiresStandardJobs = true ∧
        env.channels.channel.onNewTemplate ch t outputs = .ok o.value ∧
        ((o.notes = [] ∧ o.error ≠ none) ∨
          ∃ job, jobOf env.channels.channel o.value t = some job ∧ o.error = none ∧
            o.notes = [.sent ⟨d, .job k c job, [c]⟩])) ∨
      (s.gridpool = none ∧ (k = .standard → requiresStandardJobs = false) ∧ o.notes = [] ∧
        o.error = none ∧ env.channels.onGroupChannelJob ch groupJob = .ok o.value) := by
  have hgroup : ∀ job, (giveGroupJob env job ch).value = ch ∧ (giveGroupJob env job ch).notes = [] ∧
      (giveGroupJob env job ch).error ≠ none ∨ (giveGroupJob env job ch).notes = [] ∧
      (giveGroupJob env job ch).error = none ∧
      env.channels.onGroupChannelJob ch job = .ok (giveGroupJob env job ch).value := by
    intro job
    obtain ⟨hn, ⟨hval, herr⟩ | ⟨hok, herr⟩⟩ := giveGroupJob_cases ch job
    · exact .inl ⟨hval, hn, herr⟩
    · exact .inr ⟨hn, herr, hok⟩
  dsimp only
  unfold newTemplateChannel
  cases hg : s.gridpool with
  | some g =>
      dsimp only
      cases hp : s.gridpoolChannels (d, c) with
      | none => exact .inl ⟨rfl, rfl, by simp⟩
      | some payout =>
          rcases giveGridPoolTemplate_cases d k c ch t g payout (missingJob k t) (clock d c) with
            hfail | ⟨outputs, hb⟩
          · exact .inl hfail
          · exact .inr (.inl ⟨g, payout, outputs, rfl, rfl, hb⟩)
  | none =>
      dsimp only
      cases k with
      | extended =>
          dsimp only
          refine (hgroup groupJob).imp_right fun ⟨hn, herr, hok⟩ => .inr (.inr ?_)
          exact ⟨rfl, by simp, hn, herr, hok⟩
      | standard =>
          dsimp only
          cases hstd : requiresStandardJobs with
          | false =>
              refine (hgroup groupJob).imp_right fun ⟨hn, herr, hok⟩ => .inr (.inr ?_)
              exact ⟨rfl, fun _ => rfl, hn, herr, hok⟩
          | true =>
              rcases giveTemplate_cases d .standard c ch t outputs (missingJob .standard t) [] with
                hfail | ⟨htemplate, hnotes⟩
              · exact .inl hfail
              · refine .inr (.inr (.inl ⟨rfl, rfl, rfl, htemplate, hnotes.imp_right ?_⟩))
                rintro ⟨job, hjob, hn, herr⟩
                exact ⟨job, hjob, herr, hn⟩

/-- The fee tick leaves a channel alone, fails, or builds a job for it. -/
theorem refreshChannel_cases (g : GridPoolClient) :
    let o := s.refreshChannel g t clock d k c ch
    (o.value = ch ∧ o.notes = []) ∨
      ∃ payout outputs, s.gridpoolChannels (d, c) = some payout ∧
        BuildsGridPool env g d k c payout t (clock d c) ch o outputs ∧
        ¬ (env.channels.channel.activeJob ch).any fun j =>
          outputs.isPrefixOf j.coinbaseOutputs := by
  dsimp only
  unfold refreshChannel
  split
  · exact .inl ⟨rfl, rfl⟩
  · rename_i payout hpayout
    split
    · exact .inl ⟨rfl, rfl⟩
    · rename_i outputs houtputs
      split
      · exact .inl ⟨rfl, rfl⟩
      · rename_i hdiff
        rcases giveTemplate_cases d k c ch t outputs .jobNotFound
          [builtNote env g d k c payout t outputs (clock d c) ch] with hfail | ⟨htemplate, hnotes⟩
        · exact .inl ⟨hfail.1, hfail.2.1⟩
        · refine .inr ⟨payout, outputs, hpayout, ⟨houtputs, htemplate, hnotes.imp_right ?_⟩, hdiff⟩
          rintro ⟨job, hjob, hn, herr⟩
          exact ⟨job, hjob, herr, hn⟩

/-- A previous hash reaches the job store of the channel, or the channel is left alone with an
error. -/
theorem prevHashChannel_cases (m : SetNewPrevHash) (requiresStandardJobs : Bool) :
    let o := prevHashChannel m d requiresStandardJobs k c ch
    (o.value = ch ∧ o.notes = [] ∧ o.error ≠ none) ∨
      (env.channels.channel.onSetNewPrevHash ch m = .ok o.value ∧
        (o.notes = [] ∨ ∃ job, k = .standard ∧ requiresStandardJobs = true ∧
          env.channels.channel.activeJob o.value = some job ∧
          o.notes = [.sent ⟨d, .setNewPrevHash c job.jobId m.prevHash m.headerTimestamp m.nBits,
            [c]⟩])) := by
  dsimp only
  unfold prevHashChannel
  split
  · exact .inl ⟨rfl, rfl, by simp⟩
  · rename_i ch' hch'
    refine .inr ?_
    cases k with
    | extended => exact ⟨hch', .inl rfl⟩
    | standard =>
        dsimp only
        split
        · rename_i hstd
          split
          · exact ⟨hch', .inl rfl⟩
          · rename_i job hjob
            exact ⟨hch', .inr ⟨job, rfl, hstd, hjob, rfl⟩⟩
        · exact ⟨hch', .inl rfl⟩

/-- The visit of a downstream by `handle_new_template`. -/
theorem newTemplateDownstream_cases (ds : Downstream env.channels) :
    let o := s.newTemplateDownstream t clock d ds
    (ds.requiresCustomWork = true ∧ o = .keep ds) ∨
      (ds.requiresCustomWork = false ∧ o.error ≠ none ∧ o.notes = [] ∧
        ∃ group, o.value = { ds with group := group }) ∨
      (ds.requiresCustomWork = false ∧ ∃ group groupJob,
        env.channels.group.onNewTemplate ds.group t (s.downstreamOutputs ds t) = .ok group ∧
        jobOf env.channels.group group t = some groupJob ∧
        ∃ announced v, v = Downstream.visitBoth .standard .extended
            (s.newTemplateChannel t clock d ds.requiresStandardJobs
              (s.downstreamOutputs ds t) groupJob)
            { ds with group := group } ∧
          o = ⟨v.value, announced ++ v.notes, v.error⟩ ∧
          announced = if ds.requiresStandardJobs = false ∧ env.channels.members group ≠ [] ∧
              s.gridpool = none then
            [.sent ⟨d, .newExtendedMiningJob (env.channels.groupChannelId group) groupJob,
              env.channels.members group⟩] else []) := by
  dsimp only
  unfold newTemplateDownstream
  cases hcustom : ds.requiresCustomWork with
  | true => exact .inl ⟨rfl, rfl⟩
  | false =>
      refine .inr ?_
      simp only [Bool.false_eq_true, if_false]
      split
      · exact .inl ⟨trivial, by simp, rfl, ds.group, by rw [Outcome.fail_value, ← hcustom]⟩
      · rename_i group hgroup
        split
        · exact .inl ⟨trivial, by simp, rfl, group, rfl⟩
        · rename_i groupJob hjob
          refine .inr ⟨trivial, group, groupJob, hgroup, hjob, _, _, rfl,
            Outcome.andThen_eq_of_ok rfl, ?_⟩
          simp [and_assoc]

/-- A downstream without custom work: the group takes the previous hash first, and only then the
channels are visited. -/
theorem prevHashDownstream_cases (m : SetNewPrevHash) (ds : Downstream env.channels) :
    let o := prevHashDownstream m d ds
    (ds.requiresCustomWork = true ∧ o = .keep ds) ∨
      (ds.requiresCustomWork = false ∧ o.error ≠ none ∧ o.notes = [] ∧
        ∃ group, o.value = { ds with group := group }) ∨
      (ds.requiresCustomWork = false ∧ ∃ group,
        env.channels.group.onSetNewPrevHash ds.group m = .ok group ∧
        ∃ announced v, v = Downstream.visitBoth .extended .standard
            (prevHashChannel m d ds.requiresStandardJobs) { ds with group := group } ∧
          o = ⟨v.value, announced ++ v.notes, v.error⟩ ∧
          (announced = [] ∨ ∃ job, ds.requiresStandardJobs = false ∧
            env.channels.members group ≠ [] ∧ env.channels.group.activeJob group = some job ∧
            announced = [.sent ⟨d, .setNewPrevHash (env.channels.groupChannelId group) job.jobId
              m.prevHash m.headerTimestamp m.nBits, env.channels.members group⟩])) := by
  dsimp only
  unfold prevHashDownstream
  cases hcustom : ds.requiresCustomWork with
  | true => exact .inl ⟨rfl, rfl⟩
  | false =>
      refine .inr ?_
      simp only [Bool.false_eq_true, if_false]
      split
      · exact .inl ⟨trivial, by simp, rfl, ds.group, by rw [Outcome.fail_value, ← hcustom]⟩
      · rename_i group hgroup
        split
        · rename_i hannounce
          simp only [Bool.and_eq_true, Bool.not_eq_eq_eq_not, Bool.not_true] at hannounce
          split
          · exact .inl ⟨trivial, by simp [Outcome.andThen], rfl, group, rfl⟩
          · rename_i job hjob
            refine .inr ⟨trivial, group, hgroup, _, _, rfl, Outcome.andThen_eq_of_ok rfl,
              .inr ⟨job, hannounce.1, ?_, hjob, rfl⟩⟩
            simpa [List.isEmpty_iff] using hannounce.2
        · exact .inr ⟨trivial, group, hgroup, [], _, rfl, Outcome.andThen_eq_of_ok rfl, .inl rfl⟩

end ChannelManager

end Bodies

/-! ### Handlers that leave the channels alone

Replies, error actions and disconnections. `Quiet` is transitive, so a handler that ends in one of
these is quiet by composition. -/

namespace ChannelManager

variable {env : Env} {s s' : ChannelManager env.channels} {d : DownstreamId} {k : ChannelKind}
  {c : ChannelId}

/-- The channel with this id, if it is open. -/
def channel? (s : ChannelManager env.channels) (d : DownstreamId) (k : ChannelKind)
    (c : ChannelId) : Option env.channels.Channel :=
  (s.downstreams.lookup d).bind fun ds => (ds.channels k).lookup c

theorem channel?_eq_some {ch : env.channels.Channel} :
    s.channel? d k c = some ch ↔
      ∃ ds, s.downstreams.lookup d = some ds ∧ (ds.channels k).lookup c = some ch :=
  Option.bind_eq_some_iff

/-- Nothing happened to jobs: connections may be gone, and only plain messages were sent. -/
structure Quiet (s s' : ChannelManager env.channels) : Prop where
  downstreams : ∀ d ds', s'.downstreams.lookup d = some ds' →
    ∃ ds, s.downstreams.lookup d = some ds ∧ Downstream.Kept ds ds'
  ids : s.downstreamIdFactory ≤ s'.downstreamIdFactory
  template : s'.lastFutureTemplate = s.lastFutureTemplate
  prevHash : s'.lastNewPrevHash = s.lastNewPrevHash
  gridpool : s'.gridpool = s.gridpool
  constraints : s'.constraints = s.constraints
  notes : ∃ notes, s'.history = s.history ++ notes ∧ ∀ x ∈ notes, Note.Plain x
  payouts : ∀ d c ds ds', s.downstreams.lookup d = some ds → s'.downstreams.lookup d = some ds' →
    c < ds.channelIdFactory → s'.gridpoolChannels (d, c) = s.gridpoolChannels (d, c)

theorem Quiet.refl (s : ChannelManager env.channels) : Quiet s s where
  downstreams := fun _ ds h => ⟨ds, h, .refl ds⟩
  ids := le_rfl
  template := rfl
  prevHash := rfl
  gridpool := rfl
  constraints := rfl
  notes := ⟨[], by simp, by simp⟩
  payouts := fun _ _ _ _ _ _ _ => rfl

theorem Quiet.trans {s₁ s₂ s₃ : ChannelManager env.channels} (h : Quiet s₁ s₂) (h' : Quiet s₂ s₃) :
    Quiet s₁ s₃ where
  downstreams := by
    intro d ds₃ hds₃
    obtain ⟨ds₂, hds₂, hk'⟩ := h'.downstreams d ds₃ hds₃
    obtain ⟨ds₁, hds₁, hk⟩ := h.downstreams d ds₂ hds₂
    exact ⟨ds₁, hds₁, hk.trans hk'⟩
  ids := Nat.le_trans h.ids h'.ids
  template := h'.template.trans h.template
  prevHash := h'.prevHash.trans h.prevHash
  gridpool := h'.gridpool.trans h.gridpool
  constraints := h'.constraints.trans h.constraints
  notes := by
    obtain ⟨n, hn, hp⟩ := h.notes
    obtain ⟨n', hn', hp'⟩ := h'.notes
    refine ⟨n ++ n', by rw [hn', hn, List.append_assoc], ?_⟩
    intro x hx
    exact (List.mem_append.mp hx).elim (hp x) (hp' x)
  payouts := by
    intro d c ds₁ ds₃ hds₁ hds₃ hc
    obtain ⟨ds₂, hds₂, -⟩ := h'.downstreams d ds₃ hds₃
    obtain ⟨ds₁', hds₁', hk⟩ := h.downstreams d ds₂ hds₂
    obtain rfl := Option.some.inj (hds₁.symm.trans hds₁')
    exact (h'.payouts d c ds₂ ds₃ hds₂ hds₃ (Nat.lt_of_lt_of_le hc hk.channelIdFactory)).trans
      (h.payouts d c ds₁ ds₂ hds₁ hds₂ hc)

/-- A channel is what it was, or is gone with its downstream. -/
theorem Quiet.channel (h : Quiet s s') (d : DownstreamId) (k : ChannelKind) (c : ChannelId) :
    s'.channel? d k c = s.channel? d k c ∨ s'.channel? d k c = none := by
  unfold channel?
  cases hds' : s'.downstreams.lookup d with
  | none => exact .inr rfl
  | some ds' =>
      obtain ⟨ds, hds, hk⟩ := h.downstreams d ds' hds'
      refine .inl ?_
      rw [hds, Option.bind_some, Option.bind_some, hk.channels]

theorem quiet_removeDownstream (s : ChannelManager env.channels) (d : DownstreamId) :
    Quiet s (s.removeDownstream d) where
  downstreams := by
    intro d' ds' h
    by_cases hd : d' = d
    · rw [hd, removeDownstream, AList.lookup_erase] at h
      cases h
    · rw [removeDownstream, AList.lookup_erase_ne hd] at h
      exact ⟨ds', h, .refl ds'⟩
  ids := le_rfl
  template := rfl
  prevHash := rfl
  gridpool := rfl
  constraints := rfl
  notes := ⟨[], by simp [removeDownstream], by simp⟩
  payouts := by
    intro d' c ds ds' _ h _
    by_cases hd : d' = d
    · rw [hd, removeDownstream, AList.lookup_erase] at h
      cases h
    · simp [removeDownstream, hd]

/-- An error action disconnects one downstream, stops the manager, or only logs. -/
theorem quiet_handleErrorAction (s : ChannelManager env.channels) (e : PoolError) :
    Quiet s (s.handleErrorAction e) := by
  unfold handleErrorAction
  split
  · exact .refl s
  · exact quiet_removeDownstream s _
  · exact { Quiet.refl s with }

/-- Acting on a handler's error is quiet. -/
theorem quiet_settle (r : ChannelManager env.channels × Option PoolError) :
    Quiet r.1 (settle r) := by
  unfold settle
  split
  · exact .refl _
  · exact quiet_handleErrorAction _ _

theorem quiet_reply (s : ChannelManager env.channels) (d : DownstreamId) {m : Mining}
    (hm : m.aboutJobs = false) : Quiet s (s.reply d m) :=
  { Quiet.refl s with notes := ⟨[.sent ⟨d, m, []⟩], rfl, by simp [Note.Plain, hm]⟩ }

/-- Replacing a downstream by one with the same work is quiet. -/
theorem quiet_setDownstream {ds : Downstream env.channels} (hds : s.downstreams.lookup d = some ds)
    (ds' : Downstream env.channels) (hk : Downstream.Kept ds ds') :
    Quiet s (s.setDownstream d ds') where
  downstreams := by
    intro d' ds'' h
    by_cases hd : d' = d
    · subst hd
      rw [setDownstream, AList.lookup_insert] at h
      obtain rfl := Option.some.inj h
      exact ⟨ds, hds, hk⟩
    · rw [setDownstream, AList.lookup_insert_ne hd] at h
      exact ⟨ds'', h, .refl ds''⟩
  ids := le_rfl
  template := rfl
  prevHash := rfl
  gridpool := rfl
  constraints := rfl
  notes := ⟨[], by simp [setDownstream], by simp⟩
  payouts := fun _ _ _ _ _ _ _ => rfl

/-- Recording the payout of a channel id that was not handed out before is quiet. -/
theorem quiet_setPayout {ds : Downstream env.channels} (hds : s.downstreams.lookup d = some ds)
    (hc : ds.channelIdFactory ≤ c) (payout : Option ChannelPayout) :
    Quiet s (s.setPayout d c payout) :=
  { Quiet.refl s with
    payouts := by
      intro d' c' ds₁ ds₂ h₁ h₂ hlt
      cases payout with
      | none => rfl
      | some p =>
          have hne : (d', c') ≠ (d, c) := by
            rintro ⟨⟩
            obtain rfl := Option.some.inj (h₁.symm.trans hds)
            exact absurd hlt (Nat.not_lt.mpr hc)
          simp [setPayout, Function.update_of_ne hne] }

end ChannelManager

/-! ### Opening channels

Both handlers make the channel, register its payout and build its first job before they insert it.
Everything that can fail on the way leaves the channels as they were. -/

namespace ChannelManager

variable {env : Env} {s : ChannelManager env.channels} {d : DownstreamId} {k : ChannelKind}

/-- A channel fresh from its constructor. -/
def IsNew (env : Env) (ch : env.channels.Channel) : Prop :=
  ∃ i m p, env.channels.newStandard i m p = .ok ch ∨ env.channels.newExtended i m p = .ok ch

/-- What `handle_open_…_mining_channel` did when it opened a channel with a first job; the new
channel gets the next id of the downstream. The last part says whether the group could be joined. -/
structure Opening (s : ChannelManager env.channels) (d : DownstreamId) (k : ChannelKind)
    (now : UInt64) (r : ChannelManager env.channels × Option PoolError)
    (ds ds' : Downstream env.channels) (payout : Option ChannelPayout) (t : NewTemplate)
    (m : SetNewPrevHash) (outputs : List TxOut) (new ch : env.channels.Channel) (job : Job) :
    Prop where
  downstream : s.downstreams.lookup d = some ds
  requiresCustomWork : ds.requiresCustomWork = false
  template : s.lastFutureTemplate = some t
  prevHash : s.lastNewPrevHash = some m
  resolved : ∃ identity, s.resolvePayout identity = .ok payout
  computed : ∃ mode, s.rewardOutputs payout mode t now = .ok outputs
  isNew : IsNew env new
  first : firstJob t m outputs new = .ok (job, ch)
  flags : ds'.requiresStandardJobs = ds.requiresStandardJobs ∧ ds'.requiresCustomWork = false
  channels : ds'.channels = update ds.channels k ((ds.channels k).insert ds.channelIdFactory ch)
  counter : ds'.channelIdFactory = ds.channelIdFactory + 1
  state : ∃ notes, r.1 =
      { s with
        downstreams := s.downstreams.insert d ds'
        gridpoolChannels := (s.setPayout d ds.channelIdFactory payout).gridpoolChannels
        history := s.history ++ notes } ∧
    ((notes = [] ∧ ∃ e, r.2 = some (.shutdown e)) ∨
      (r.2 = none ∧ (∃ requestId groupId, notes =
          s.openingNotes d k requestId ds.channelIdFactory groupId payout t m outputs now new job) ∧
        if ds.requiresStandardJobs then k = .standard ∧ ds'.group = ds.group
        else env.channels.addChannelId ds.group ds.channelIdFactory = .ok ds'.group))

/-- The same for a channel of a downstream that requires custom work: no job is built, and only the
previous hash is handed on. -/
structure OpeningCustom (s : ChannelManager env.channels) (d : DownstreamId) (k : ChannelKind)
    (r : ChannelManager env.channels × Option PoolError) (ds ds' : Downstream env.channels)
    (payout : Option ChannelPayout) (m : SetNewPrevHash) (new ch : env.channels.Channel) :
    Prop where
  downstream : s.downstreams.lookup d = some ds
  requiresCustomWork : ds.requiresCustomWork = true
  prevHash : s.lastNewPrevHash = some m
  resolved : ∃ identity, s.resolvePayout identity = .ok payout
  isNew : IsNew env new
  first : env.channels.channel.onSetNewPrevHash new m = .ok ch
  flags : ds'.requiresStandardJobs = ds.requiresStandardJobs ∧ ds'.requiresCustomWork = true
  channels : ds'.channels = update ds.channels k ((ds.channels k).insert ds.channelIdFactory ch)
  counter : ds'.channelIdFactory = ds.channelIdFactory + 1
  state : ∃ notes, r =
      ({ s with
        downstreams := s.downstreams.insert d ds'
        gridpoolChannels := (s.setPayout d ds.channelIdFactory payout).gridpoolChannels
        history := s.history ++ notes }, none) ∧ ∀ x ∈ notes, Note.Plain x

/-- A request that got a channel id and a payout entry, and then failed, is quiet. -/
theorem quiet_failedOpen {ds : Downstream env.channels} (hds : s.downstreams.lookup d = some ds)
    (ds' : Downstream env.channels) (hk : Downstream.Kept ds ds') (payout : Option ChannelPayout) :
    Quiet s ((s.setDownstream d ds').setPayout d ds.channelIdFactory payout) :=
  (quiet_setPayout hds le_rfl payout).trans
    (quiet_setDownstream (s := s.setPayout d ds.channelIdFactory payout) hds ds' hk)

/-- What an open request can do. -/
inductive OpenEffect (s : ChannelManager env.channels) (d : DownstreamId) (k : ChannelKind)
    (now : UInt64) (r : ChannelManager env.channels × Option PoolError) : Prop where
  | quiet (h : Quiet s r.1)
  | opened {ds payout t m outputs new ch job} (ds' : Downstream env.channels)
      (h : Opening s d k now r ds ds' payout t m outputs new ch job)
  | openedCustom {ds payout m new ch} (ds' : Downstream env.channels)
      (h : OpeningCustom s d k r ds ds' payout m new ch)

/-- The request is refused, or a standard channel is opened with its first job. -/
theorem openEffect_standard (msg : OpenMiningChannel) (allocated : Except String Bytes)
    (now : UInt64) :
    OpenEffect s d .standard now (s.handleOpenStandardMiningChannel d msg allocated now) := by
  unfold handleOpenStandardMiningChannel
  split
  · exact .quiet (.refl s)
  · rename_i ds hds
    split
    · exact .quiet (quiet_reply s d rfl)
    · rename_i hcustom
      split
      · exact .quiet (.refl s)
      · exact .quiet (.refl s)
      · rename_i t m ht hm
        split
        · exact .quiet (quiet_reply s d rfl)
        · exact .quiet (quiet_reply s d rfl)
        · rename_i payout mode hpayout hmode
          split
          · exact .quiet (.refl s)
          · rename_i outputs houtputs
            have hmodeSet := quiet_setDownstream hds { ds with payoutMode := some mode }
              ⟨rfl, rfl, rfl, rfl, le_rfl⟩
            have hcounted := quiet_setDownstream hds
              { ds with payoutMode := some mode, channelIdFactory := ds.channelIdFactory + 1 }
              ⟨rfl, rfl, rfl, rfl, Nat.le_succ _⟩
            dsimp only
            split
            · exact .quiet hmodeSet
            · rename_i extranoncePrefix
              split
              · exact .quiet (hcounted.trans (quiet_reply _ d rfl))
              · exact .quiet hcounted
              · rename_i new hnew
                split
                · exact .quiet (quiet_failedOpen hds
                    { ds with
                      payoutMode := some mode, channelIdFactory := ds.channelIdFactory + 1 }
                    ⟨rfl, rfl, rfl, rfl, Nat.le_succ _⟩ payout)
                · rename_i job ch hfirst
                  have hcustom : ds.requiresCustomWork = false := by simpa using hcustom
                  have hnew : IsNew env new := ⟨_, _, _, .inl hnew⟩
                  have hopening : ∀ r group, (∃ notes,
                      r.1 = { s with
                        downstreams := s.downstreams.insert d
                          (ds.withChannel mode group .standard ch)
                        gridpoolChannels :=
                          (s.setPayout d ds.channelIdFactory payout).gridpoolChannels
                        history := s.history ++ notes } ∧ _) →
                      OpenEffect s d .standard now r :=
                    fun r group hr => .opened (ds.withChannel mode group .standard ch)
                      ⟨hds, hcustom, ht, hm, ⟨_, hpayout⟩, ⟨mode, houtputs⟩, hnew, hfirst,
                        ⟨rfl, hcustom⟩, rfl, rfl, hr⟩
                  split
                  · rename_i hstd
                    refine hopening _ ds.group ⟨s.openingNotes d .standard msg.requestId
                      ds.channelIdFactory (env.channels.groupChannelId ds.group) payout t m
                      outputs now new job, ?_, .inr ⟨rfl, ⟨_, _, rfl⟩, ?_⟩⟩
                    · simp only [note, setDownstream, setPayout, AList.insert_insert,
                        Downstream.insertChannel, Downstream.withChannel]
                      rfl
                    · rw [if_pos (by simpa [Downstream.insertChannel] using hstd)]
                      exact ⟨rfl, rfl⟩
                  · rename_i hstd
                    split
                    · rename_i e he
                      refine hopening _ ds.group ⟨[], ?_, .inl ⟨rfl, _, rfl⟩⟩
                      simp only [setDownstream, setPayout, AList.insert_insert,
                        Downstream.insertChannel, Downstream.withChannel, List.append_nil]
                    · rename_i group hgroup
                      refine hopening _ group ⟨s.openingNotes d .standard msg.requestId
                        ds.channelIdFactory (env.channels.groupChannelId ds.group) payout t m
                        outputs now new job, ?_, .inr ⟨rfl, ⟨_, _, rfl⟩, ?_⟩⟩
                      · simp only [note, setDownstream, setPayout, AList.insert_insert,
                          Downstream.insertChannel, Downstream.withChannel]
                        rfl
                      · rw [if_neg (by simpa [Downstream.insertChannel] using hstd)]
                        exact hgroup

/-- The request is refused, or an extended channel is opened: with its first job, or, for custom
work, with the previous hash alone. -/
theorem openEffect_extended (msg : OpenMiningChannel) (allocated : Except String Bytes)
    (now : UInt64) :
    OpenEffect s d .extended now (s.handleOpenExtendedMiningChannel d msg allocated now) := by
  unfold handleOpenExtendedMiningChannel
  split
  · exact .quiet (.refl s)
  · rename_i ds hds
    split
    · exact .quiet (quiet_reply s d rfl)
    · rename_i hstd
      split
      · exact .quiet (quiet_reply s d rfl)
      · rename_i extranoncePrefix
        split
        · exact .quiet (quiet_reply s d rfl)
        · exact .quiet (quiet_reply s d rfl)
        · rename_i payout mode hpayout hmode
          have hcounted := quiet_setDownstream hds
            { ds with payoutMode := some mode, channelIdFactory := ds.channelIdFactory + 1 }
            ⟨rfl, rfl, rfl, rfl, Nat.le_succ _⟩
          have hfailed := quiet_failedOpen hds
            { ds with payoutMode := some mode, channelIdFactory := ds.channelIdFactory + 1 }
            ⟨rfl, rfl, rfl, rfl, Nat.le_succ _⟩ payout
          dsimp only
          split
          · exact .quiet (hcounted.trans (quiet_reply _ d rfl))
          · exact .quiet hcounted
          · rename_i new hnew
            have hnew : IsNew env new := ⟨_, _, _, .inr hnew⟩
            split
            · exact .quiet hfailed
            · exact .quiet hfailed
            · rename_i m t hm ht
              split
              · rename_i hcustom
                split
                · exact .quiet hfailed
                · rename_i ch hch
                  refine .openedCustom (ds.withChannel mode ds.group .extended ch) ⟨hds,
                    hcustom, hm, ⟨_, hpayout⟩, hnew, hch, ⟨rfl, hcustom⟩, rfl, rfl,
                    [.sent ⟨d, .openMiningChannelSuccess .extended msg.requestId ds.channelIdFactory
                      (env.channels.groupChannelId ds.group), [ds.channelIdFactory]⟩], ?_, ?_⟩
                  · simp only [note, setDownstream, setPayout, AList.insert_insert,
                      Downstream.insertChannel, Downstream.withChannel]
                  · simp [Note.Plain, Mining.aboutJobs]
              · rename_i hcustom
                have hcustom : ds.requiresCustomWork = false := by simpa using hcustom
                split
                · exact .quiet hfailed
                · rename_i outputs houtputs
                  split
                  · exact .quiet hfailed
                  · rename_i job ch hfirst
                    split
                    · exact .quiet hfailed
                    · rename_i group hgroup
                      refine .opened (ds.withChannel mode group .extended ch) ⟨hds, hcustom, ht, hm,
                        ⟨_, hpayout⟩, ⟨mode, houtputs⟩, hnew, hfirst, ⟨rfl, hcustom⟩, rfl, rfl,
                        s.openingNotes d .extended msg.requestId ds.channelIdFactory
                          (env.channels.groupChannelId ds.group) payout t m outputs now new job, ?_,
                        .inr ⟨rfl, ⟨_, _, rfl⟩, ?_⟩⟩
                      · simp only [note, setDownstream, setPayout, AList.insert_insert,
                          Downstream.insertChannel, Downstream.withChannel]
                        rfl
                      · rw [if_neg hstd]
                        exact hgroup

end ChannelManager

/-! ### One channel, one event

The handlers are put together here. The lemmas `…_channelStep` take one event each, and
`step_channel` is their case distinction. -/

namespace ChannelManager

variable {env : Env} {s : ChannelManager env.channels} {d : DownstreamId} {k : ChannelKind}
  {c : ChannelId}

/-- The notes of a handler that stay: without an error all of them, else only the built jobs. -/
def keptNotes {V : Type*} (o : Outcome V Note PoolErrorKind) : List Note :=
  if o.error.isNone then o.notes else o.notes.filter Note.isBuilt

/-- What a loop over the downstreams leaves in the manager, whether it ended early or not. -/
theorem conclude_fst (s : ChannelManager env.channels)
    (o : Outcome (AList fun _ : DownstreamId => Downstream env.channels) Note PoolErrorKind) :
    (s.conclude o).1 = { s with downstreams := o.value, history := s.history ++ keptNotes o } := by
  unfold conclude keptNotes
  cases o.error <;> rfl

/-- A shutdown follows exactly on an error. -/
theorem settle_conclude (s : ChannelManager env.channels)
    (o : Outcome (AList fun _ : DownstreamId => Downstream env.channels) Note PoolErrorKind) :
    settle (s.conclude o) = { s with
      downstreams := o.value
      history := s.history ++ keptNotes o
      running := s.running && o.error.isNone } := by
  unfold settle conclude keptNotes
  cases h : o.error with
  | none => simp [note]
  | some e => simp [note, handleErrorAction, PoolError.shutdown]

/-- The state in which `handle_new_template` goes through the downstreams. -/
def withTemplate (s : ChannelManager env.channels) (gridpool : Option GridPoolClient)
    (t : NewTemplate) : ChannelManager env.channels :=
  { s with
    gridpool := gridpool
    lastFutureTemplate := if t.futureTemplate then some t else s.lastFutureTemplate }

/-- A future template after the first one, for which the work selection is refreshed. -/
def RefreshDue (s : ChannelManager env.channels) (t : NewTemplate) : Prop :=
  t.futureTemplate = true ∧ t.templateId ≠ 0 ∧ s.lastFutureTemplate.isSome = true

/-- `handle_new_template` fails to refresh the work selection, or goes through the downstreams with
the selection it had or with a new one. -/
theorem handleNewTemplate_cases (s : ChannelManager env.channels) (t : NewTemplate)
    (fetch : Nat → Except String WorkSelection) (clock : DownstreamId → ChannelId → UInt64) :
    (∃ e, s.handleNewTemplate t fetch clock = (s, some (.shutdown e))) ∨
      ∃ gridpool, (gridpool = s.gridpool ∨
          ∃ g g', s.gridpool = some g ∧ s.RefreshDue t ∧ g.refreshForChainTip fetch = .ok g' ∧
            gridpool = some g') ∧
        s.handleNewTemplate t fetch clock = (s.withTemplate gridpool t).conclude
          (visit ((s.withTemplate gridpool t).newTemplateDownstream t clock) s.downstreams) := by
  unfold handleNewTemplate
  cases hg : s.gridpool with
  | none => exact .inr ⟨none, .inl rfl, rfl⟩
  | some g =>
      dsimp only
      split
      · exact .inl ⟨_, rfl⟩
      · rename_i gridpool hrefreshed
        refine .inr ⟨gridpool, ?_, rfl⟩
        split at hrefreshed
        · rename_i hdue
          have hdue : s.RefreshDue t := by
            simpa [RefreshDue, and_assoc] using hdue
          cases hr : g.refreshForChainTip fetch with
          | error e =>
              rw [hr] at hrefreshed
              cases hrefreshed
          | ok g' =>
              rw [hr] at hrefreshed
              cases hrefreshed
              exact .inr ⟨g, g', rfl, hdue, hr, rfl⟩
        · cases hrefreshed
          exact .inl rfl

/-- The template of a fee tick is the last future template, as one that is not. -/
structure IsTick (lastFuture : NewTemplate) (now : UInt64) (t : NewTemplate) : Prop where
  committed : commitGridpoolJobRefresh { lastFuture with futureTemplate := false } now = .ok t
  templateId : t.templateId = lastFuture.templateId
  futureTemplate : t.futureTemplate = false
  value : t.coinbaseTxValueRemaining = lastFuture.coinbaseTxValueRemaining

theorem isTick_of_commit {lastFuture t : NewTemplate} {now : UInt64}
    (h : commitGridpoolJobRefresh { lastFuture with futureTemplate := false } now = .ok t) :
    IsTick lastFuture now t := by
  have hcopy := h
  unfold commitGridpoolJobRefresh at hcopy
  dsimp only at hcopy
  split at hcopy
  · cases hcopy
  · cases hcopy
    exact ⟨h, rfl, rfl, rfl⟩

/-- A fee tick does nothing without GridPool or without a future template; otherwise it visits every
channel, extended ones last. -/
theorem refreshGridpoolFeeJobs_cases (s : ChannelManager env.channels) (now : UInt64)
    (clock : DownstreamId → ChannelId → UInt64) :
    (s.refreshGridpoolFeeJobs now clock).1 = s ∨
      ∃ g lastFuture t, s.gridpool = some g ∧ s.lastFutureTemplate = some lastFuture ∧
        IsTick lastFuture now t ∧
        s.refreshGridpoolFeeJobs now clock = s.conclude (visit (fun d ds =>
          ds.visitBoth .standard .extended (s.refreshChannel g t clock d)) s.downstreams) := by
  unfold refreshGridpoolFeeJobs
  split
  · rename_i g lastFuture hg hlast
    split
    · exact .inl rfl
    · rename_i t ht
      exact .inr ⟨g, lastFuture, t, hg, hlast, isTick_of_commit ht, rfl⟩
  · exact .inl rfl

/-- The events whose handlers reach every channel that does not take custom work. -/
def Event.reachesAll : Event → Bool
  | .newTemplate _ _ _ | .setNewPrevHash _ => true
  | _ => false

/-- The fee tick rotates channel `c` of downstream `d`, given that its state is `ch`: the outputs
computed from the last future template are not the ones of the active job. -/
def Rotates (s : ChannelManager env.channels) (clock : DownstreamId → ChannelId → UInt64)
    (lastFuture : NewTemplate) (d : DownstreamId) (c : ChannelId) (ch : env.channels.Channel) :
    Prop :=
  ∃ g payout outputs, s.gridpool = some g ∧ s.gridpoolChannels (d, c) = some payout ∧
    g.coinbaseOutputs env.readAddress payout lastFuture.coinbaseTxValueRemaining (clock d c) =
      .ok outputs ∧
    ¬ (env.channels.channel.activeJob ch).any fun j => outputs.isPrefixOf j.coinbaseOutputs

/-- The event gives channel `c` of downstream `d`, in state `ch`, the template `t`. -/
inductive Gives (s : ChannelManager env.channels) (d : DownstreamId) (c : ChannelId)
    (ch : env.channels.Channel) : Event → NewTemplate → Prop where
  | newTemplate {t fetch clock ds} (hds : s.downstreams.lookup d = some ds)
      (hcustom : ds.requiresCustomWork = false) : Gives s d c ch (.newTemplate t fetch clock) t
  | feeTick {now clock lastFuture t} (hlast : s.lastFutureTemplate = some lastFuture)
      (htick : IsTick lastFuture now t) (hrotates : s.Rotates clock lastFuture d c ch) :
      Gives s d c ch (.feeTick now clock) t

/-- What event `e`, from `s` to `s'`, can do to a channel. -/
inductive ChannelStep (s : ChannelManager env.channels) (e : Event)
    (s' : ChannelManager env.channels) (d : DownstreamId) (c : ChannelId) :
    Option env.channels.Channel → Option env.channels.Channel → Prop where
  | same {before} (h : ∀ ds, s.downstreams.lookup d = some ds → ds.requiresCustomWork = false →
      before.isSome → s'.running = true → e.reachesAll = false) :
      ChannelStep s e s' d c before before
  | removed {before} : ChannelStep s e s' d c before none
  | template {ch ch' t outputs} (hgives : Gives s d c ch e t)
      (h : env.channels.channel.onNewTemplate ch t outputs = .ok ch') :
      ChannelStep s e s' d c (some ch) (some ch')
  | groupJob {ch ch' t fetch clock job ds} (he : e = .newTemplate t fetch clock)
      (hg : s.gridpool = none) (hds : s.downstreams.lookup d = some ds)
      (hcustom : ds.requiresCustomWork = false) (htemplate : job.template? = some t)
      (hfuture : job.minNtime = none ↔ t.futureTemplate = true)
      (h : env.channels.onGroupChannelJob ch job = .ok ch') :
      ChannelStep s e s' d c (some ch) (some ch')
  | prevHash {ch ch' m ds} (he : e = .setNewPrevHash m) (hds : s.downstreams.lookup d = some ds)
      (hcustom : ds.requiresCustomWork = false)
      (h : env.channels.channel.onSetNewPrevHash ch m = .ok ch') :
      ChannelStep s e s' d c (some ch) (some ch')
  | custom {ch ch' m response i} (he : e = .setCustomMiningJob d m response) (hc : m.channelId = c)
      (h : env.channels.onSetCustomMiningJob ch m = .ok (i, ch')) :
      ChannelStep s e s' d c (some ch) (some ch')
  | opened {before new ch t m outputs job ds k msg allocated now}
      (he : e = .openChannel k d msg allocated now) (hds : s.downstreams.lookup d = some ds)
      (hc : c = ds.channelIdFactory) (hcustom : ds.requiresCustomWork = false)
      (ht : s.lastFutureTemplate = some t) (hm : s.lastNewPrevHash = some m) (hnew : IsNew env new)
      (h : firstJob t m outputs new = .ok (job, ch)) : ChannelStep s e s' d c before (some ch)
  | openedCustom {before new ch m ds k msg allocated now}
      (he : e = .openChannel k d msg allocated now) (hds : s.downstreams.lookup d = some ds)
      (hc : c = ds.channelIdFactory) (hcustom : ds.requiresCustomWork = true)
      (hm : s.lastNewPrevHash = some m) (hnew : IsNew env new)
        (h : env.channels.channel.onSetNewPrevHash new m = .ok ch) :
      ChannelStep s e s' d c before (some ch)

/-- A quiet end of a step can only remove channels. -/
theorem Quiet.channelStep {s' s'' : ChannelManager env.channels} {e : Event} (h : Quiet s s')
    (he : e.reachesAll = false) (k : ChannelKind) :
    ChannelStep s e s'' d c (s.channel? d k c) (s'.channel? d k c) := by
  rcases h.channel d k c with heq | heq
  · rw [heq]
    exact .same fun _ _ _ _ _ => he
  · rw [heq]
    exact .removed

/-- The job a group has for a template it was just given. -/
theorem groupJob_of_onNewTemplate (law : env.channels.Lawful) {g group : env.channels.Group}
    {t : NewTemplate} {outputs : List TxOut} {job : Job}
    (h : env.channels.group.onNewTemplate g t outputs = .ok group)
    (hjob : jobOf env.channels.group group t = some job) :
    BuiltFrom job (env.channels.group.nextJobId g) t outputs := by
  unfold jobOf at hjob
  split at hjob
  · rename_i hf
    obtain ⟨j, hb, hfuture, -⟩ := law.group.onNewTemplate_future h hf
    rw [hfuture, Function.update_self] at hjob
    obtain rfl := Option.some.inj hjob
    exact hb
  · rename_i hf
    obtain ⟨j, hb, hactive, -⟩ := law.group.onNewTemplate_active h (by simpa using hf)
    obtain rfl := Option.some.inj (hactive.symm.trans hjob)
    exact hb

/-- The channels of a state whose downstreams were visited. -/
theorem channel?_of_downstreams {s' : ChannelManager env.channels}
    {m : AList fun _ : DownstreamId => Downstream env.channels} (h : s'.downstreams = m) :
    s'.channel? d k c = (m.lookup d).bind fun ds => (ds.channels k).lookup c := by
  rw [channel?, h]

/-- A template: every channel of a downstream without custom work is given it, unless the loops
ended in a shutdown. -/
theorem newTemplate_channelStep (law : env.channels.Lawful) {s' : ChannelManager env.channels}
    {t : NewTemplate} {fetch : Nat → Except String WorkSelection}
    {clock : DownstreamId → ChannelId → UInt64} {s₁ : ChannelManager env.channels}
    (hg : s₁.gridpool = none → s.gridpool = none)
    (hds' : s'.downstreams = (visit (s₁.newTemplateDownstream t clock) s.downstreams).value)
    (hrun : (visit (s₁.newTemplateDownstream t clock) s.downstreams).error ≠ none →
      s'.running = false) :
    ChannelStep s (.newTemplate t fetch clock) s' d c (s.channel? d k c) (s'.channel? d k c) := by
  rw [channel?_of_downstreams hds', channel?]
  rcases visit_entry (s₁.newTemplateDownstream t clock) s.downstreams d with ⟨hnone, hnone'⟩ |
    ⟨ds, hds, ⟨hsame, herr⟩ | ⟨hval, herr, -⟩⟩
  · rw [hnone, hnone']
    exact .same fun _ _ _ h => by cases h
  · rw [hds, hsame]
    exact .same fun _ _ _ _ h => by simp [hrun herr] at h
  · rw [hds, hval, Option.bind_some, Option.bind_some]
    have hstop : (s₁.newTemplateDownstream t clock d ds).error ≠ none → s'.running = false :=
      fun h => hrun (herr h)
    rcases newTemplateDownstream_cases d t s₁ clock ds with
      ⟨hcustom, ho⟩ | ⟨-, he, -, group, hv⟩ |
      ⟨hcustom, group, groupJob, hgroup, hjob, announced, v, hv, ho, -⟩
    · rw [ho]
      exact .same fun ds' hds' hcustom' => by
        obtain rfl := Option.some.inj (hds.symm.trans hds')
        rw [hcustom] at hcustom'
        cases hcustom'
    · rw [hv]
      exact .same fun _ _ _ _ h => by simp [hstop he] at h
    · rw [ho] at hstop ⊢
      dsimp only at hstop ⊢
      rw [hv] at hstop ⊢
      have hk : k = .standard ∨ k = .extended := by cases k <;> simp
      rcases Downstream.visitBoth_channel (by decide) hk
        (s₁.newTemplateChannel t clock d ds.requiresStandardJobs
          (s₁.downstreamOutputs ds t) groupJob)
        { ds with group := group } c with
        ⟨hnone, hnone'⟩ | ⟨ch, hch, ⟨hsame, he⟩ | ⟨hval, he, -⟩⟩
      · rw [hnone', show (ds.channels k).lookup c = none from hnone]
        exact .same fun _ _ _ h => by cases h
      · rw [hsame, show (ds.channels k).lookup c = some ch from hch]
        exact .same fun _ _ _ _ h => by simp [hstop he] at h
      · rw [hval, show (ds.channels k).lookup c = some ch from hch]
        rcases newTemplateChannel_cases d k c ch t s₁ clock ds.requiresStandardJobs
          (s₁.downstreamOutputs ds t) groupJob with
          ⟨hkeep, -, hfail⟩ | ⟨g, payout, outputs, -, -, hb⟩ | ⟨-, -, -, htemplate, -⟩ |
          ⟨hnone, -, -, -, hjob'⟩
        · rw [hkeep]
          exact .same fun _ _ _ _ h => by simp [hstop (he hfail)] at h
        · exact .template (.newTemplate hds hcustom) hb.template
        · exact .template (.newTemplate hds hcustom) htemplate
        · have hbuilt := groupJob_of_onNewTemplate law hgroup hjob
          exact .groupJob rfl (hg hnone) hds hcustom hbuilt.template hbuilt.future hjob'

theorem prevHash_channelStep {s' : ChannelManager env.channels} {m : SetNewPrevHash}
    (hds' : s'.downstreams = (visit (prevHashDownstream m) s.downstreams).value)
    (hrun : (visit (prevHashDownstream m) s.downstreams).error ≠ none → s'.running = false) :
    ChannelStep s (.setNewPrevHash m) s' d c (s.channel? d k c) (s'.channel? d k c) := by
  rw [channel?_of_downstreams hds', channel?]
  rcases visit_entry (prevHashDownstream m) s.downstreams d with ⟨hnone, hnone'⟩ |
    ⟨ds, hds, ⟨hsame, herr⟩ | ⟨hval, herr, -⟩⟩
  · rw [hnone, hnone']
    exact .same fun _ _ _ h => by cases h
  · rw [hds, hsame]
    exact .same fun _ _ _ _ h => by simp [hrun herr] at h
  · rw [hds, hval, Option.bind_some, Option.bind_some]
    have hstop : (prevHashDownstream m d ds).error ≠ none → s'.running = false :=
      fun h => hrun (herr h)
    rcases prevHashDownstream_cases d m ds with
      ⟨hcustom, ho⟩ | ⟨-, he, -, group, hv⟩ | ⟨hcustom, group, hgroup, announced, v, hv, ho, -⟩
    · rw [ho]
      exact .same fun ds' hds' hcustom' => by
        obtain rfl := Option.some.inj (hds.symm.trans hds')
        rw [hcustom] at hcustom'
        cases hcustom'
    · rw [hv]
      exact .same fun _ _ _ _ h => by simp [hstop he] at h
    · rw [ho] at hstop ⊢
      dsimp only at hstop ⊢
      rw [hv] at hstop ⊢
      have hk : k = .extended ∨ k = .standard := by cases k <;> simp
      rcases Downstream.visitBoth_channel (by decide) hk
        (prevHashChannel m d ds.requiresStandardJobs) { ds with group := group } c with
        ⟨hnone, hnone'⟩ | ⟨ch, hch, ⟨hsame, he⟩ | ⟨hval, he, -⟩⟩
      · rw [hnone', show (ds.channels k).lookup c = none from hnone]
        exact .same fun _ _ _ h => by cases h
      · rw [hsame, show (ds.channels k).lookup c = some ch from hch]
        exact .same fun _ _ _ _ h => by simp [hstop he] at h
      · rw [hval, show (ds.channels k).lookup c = some ch from hch]
        rcases prevHashChannel_cases d k c ch m ds.requiresStandardJobs with
          ⟨hkeep, -, hfail⟩ | ⟨hok, -⟩
        · rw [hkeep]
          exact .same fun _ _ _ _ h => by simp [hstop (he hfail)] at h
        · exact .prevHash rfl hds hcustom hok

/-- A fee tick changes a channel only by the job of a refresh that is due. -/
theorem feeTick_channelStep (now : UInt64) (clock : DownstreamId → ChannelId → UInt64) :
    ChannelStep s (.feeTick now clock) (s.refreshGridpoolFeeJobs now clock).1 d c (s.channel? d k c)
      ((s.refreshGridpoolFeeJobs now clock).1.channel? d k c) := by
  rcases refreshGridpoolFeeJobs_cases s now clock with hidle | ⟨g, lastFuture, t, hg, hlast,
    htick, hr⟩
  · rw [hidle]
    exact .same fun _ _ _ _ _ => rfl
  · rw [hr]
    generalize hs' : (s.conclude _).1 = s'
    have hds' : s'.downstreams = (visit (fun d ds =>
        ds.visitBoth .standard .extended (s.refreshChannel g t clock d)) s.downstreams).value := by
      rw [← hs', conclude_fst]
    rw [channel?_of_downstreams hds', channel?]
    rcases visit_lookup (fun d ds => ds.visitBoth .standard .extended
      (s.refreshChannel g t clock d)) s.downstreams d with hsame | ⟨ds, hds, hval, -⟩
    · rw [hsame]
      exact .same fun _ _ _ _ _ => rfl
    · rw [hds, hval, Option.bind_some, Option.bind_some]
      have hne : ChannelKind.standard ≠ .extended := by decide
      rcases Downstream.visitBoth_lookup hne (s.refreshChannel g t clock d) ds k c with
        hsame | ⟨ch, hch, hval, -⟩
      · rw [hsame]
        exact .same fun _ _ _ _ _ => rfl
      · rw [hch, hval]
        rcases refreshChannel_cases d k c ch t s clock g with ⟨hkeep, -⟩ | ⟨payout, outputs,
          hpayout, hb, hdiff⟩
        · rw [hkeep]
          exact .same fun _ _ _ _ _ => rfl
        · refine .template (.feeTick hlast htick ⟨g, payout, outputs, hg, hpayout, ?_, hdiff⟩)
            hb.template
          rw [← htick.value]
          exact hb.computed

/-- The channels of a downstream that got a new channel. -/
theorem lookup_insertChannel {ds ds' : Downstream env.channels} {k₀ : ChannelKind} {c₀ : ChannelId}
    {ch : env.channels.Channel}
    (h : ds'.channels = update ds.channels k₀ ((ds.channels k₀).insert c₀ ch)) (k : ChannelKind)
    (c : ChannelId) :
    (k = k₀ ∧ c = c₀ ∧ (ds'.channels k).lookup c = some ch) ∨
      (¬ (k = k₀ ∧ c = c₀) ∧ (ds'.channels k).lookup c = (ds.channels k).lookup c) := by
  by_cases hk : k = k₀
  · subst hk
    by_cases hc : c = c₀
    · subst hc
      exact .inl ⟨rfl, rfl, by rw [h, Function.update_self, AList.lookup_insert]⟩
    · refine .inr ⟨fun hh => hc hh.2, ?_⟩
      rw [h, Function.update_self, AList.lookup_insert_ne hc]
  · exact .inr ⟨fun hh => hk hh.1, by rw [h, Function.update_of_ne hk]⟩

/-- The channels of a state in which one downstream was replaced. -/
theorem channel?_insert (s s' : ChannelManager env.channels) {d₀ : DownstreamId}
    {ds' : Downstream env.channels} (h : s'.downstreams = s.downstreams.insert d₀ ds')
    (d : DownstreamId) (k : ChannelKind) (c : ChannelId) :
    (d = d₀ ∧ s'.channel? d k c = (ds'.channels k).lookup c) ∨
      (d ≠ d₀ ∧ s'.channel? d k c = s.channel? d k c) := by
  by_cases hd : d = d₀
  · subst hd
    exact .inl ⟨rfl, by rw [channel?, h, AList.lookup_insert, Option.bind_some]⟩
  · exact .inr ⟨hd, by rw [channel?, h, AList.lookup_insert_ne hd, channel?]⟩

/-- A request for a channel changes no channel but the one it opens. -/
theorem open_channelStep {r : ChannelManager env.channels × Option PoolError} {k₀ : ChannelKind}
    {d₀ : DownstreamId} {msg : OpenMiningChannel} {allocated : Except String Bytes} {now : UInt64}
    (h : OpenEffect s d₀ k₀ now r) {s' : ChannelManager env.channels} :
    ChannelStep s (.openChannel k₀ d₀ msg allocated now) s' d c (s.channel? d k c)
      (r.1.channel? d k c) := by
  cases h with
  | quiet h => exact h.channelStep rfl k
  | opened ds' h =>
      rename_i ds payout t m outputs new ch job
      obtain ⟨notes, hstate, -⟩ := h.state
      rcases channel?_insert s r.1 (by rw [hstate]) d k c with ⟨rfl, heq⟩ | ⟨-, heq⟩
      · rw [heq]
        rcases lookup_insertChannel h.channels k c with ⟨rfl, rfl, hch⟩ | ⟨-, hch⟩
        · rw [hch]
          exact .opened rfl h.downstream rfl h.requiresCustomWork h.template h.prevHash
            h.isNew h.first
        · rw [hch, channel?, h.downstream, Option.bind_some]
          exact .same fun _ _ _ _ _ => rfl
      · rw [heq]
        exact .same fun _ _ _ _ _ => rfl
  | openedCustom ds' h =>
      rename_i ds payout m new ch
      obtain ⟨notes, hstate, -⟩ := h.state
      rcases channel?_insert s r.1 (by rw [hstate]) d k c with ⟨rfl, heq⟩ | ⟨-, heq⟩
      · rw [heq]
        rcases lookup_insertChannel h.channels k c with ⟨rfl, rfl, hch⟩ | ⟨-, hch⟩
        · rw [hch]
          exact .openedCustom rfl h.downstream rfl h.requiresCustomWork h.prevHash h.isNew h.first
        · rw [hch, channel?, h.downstream, Option.bind_some]
          exact .same fun _ _ _ _ _ => rfl
      · rw [heq]
        exact .same fun _ _ _ _ _ => rfl

/-- A connection is not accepted, or it gets the next downstream id and has no channels yet. -/
theorem connect_cases (s : ChannelManager env.channels) (std custom : Bool) :
    Quiet s (s.connect std custom).1 ∨
      ∃ t m group, s.lastFutureTemplate = some t ∧ s.lastNewPrevHash = some m ∧
        s.bootstrapGroupChannel t m 1 = some group ∧
        s.connect std custom = ({ s with
          downstreamIdFactory := s.downstreamIdFactory + 1
          downstreams := s.downstreams.insert s.downstreamIdFactory
            { requiresStandardJobs := std
              requiresCustomWork := custom
              payoutMode := none
              group := group
              channels := fun _ => ∅
              channelIdFactory := 2 } }, none) := by
  unfold connect
  split
  · rename_i t m ht hm
    dsimp only
    split
    · exact .inl { Quiet.refl s with ids := Nat.le_succ _ }
    · rename_i group hgroup
      exact .inr ⟨t, m, group, ht, hm, hgroup, rfl⟩
  · exact .inl (.refl s)

/-- A request to close removes one channel from its downstream and from the group, or changes
nothing. -/
theorem handleCloseChannel_cases (s : ChannelManager env.channels) (d : DownstreamId)
    (c : ChannelId) :
    Quiet s (s.handleCloseChannel d c).1 ∨
      ∃ ds ds', s.downstreams.lookup d = some ds ∧
        ds' = { ds with
          group := if c ∈ env.channels.members ds.group then env.channels.removeChannelId ds.group c
            else ds.group
          channels := fun k => (ds.channels k).erase c } ∧
        s.handleCloseChannel d c = ({ s with
          downstreams := s.downstreams.insert d ds'
          gridpoolChannels := update s.gridpoolChannels (d, c) none }, none) := by
  unfold handleCloseChannel
  split
  · exact .inl (.refl s)
  · rename_i ds hds
    exact .inr ⟨ds, _, hds, rfl, rfl⟩

/-- A custom job reaches one extended channel, after the job declarator has accepted it. -/
theorem handleSetCustomMiningJob_cases (s : ChannelManager env.channels) (d : DownstreamId)
    (msg : SetCustomMiningJob) (response : JdsResponse) :
    Quiet s (s.handleSetCustomMiningJob d msg response).1 ∨
      ∃ ds ch i ch' x, s.downstreams.lookup d = some ds ∧
        (ds.channels .extended).lookup msg.channelId = some ch ∧
        env.channels.onSetCustomMiningJob ch msg = .ok (i, ch') ∧ Note.Plain x ∧
        s.handleSetCustomMiningJob d msg response = ({ s with
          downstreams := s.downstreams.insert d (ds.insertChannel .extended msg.channelId ch')
          history := s.history ++ [x] }, none) := by
  unfold handleSetCustomMiningJob
  split
  · exact .inl (quiet_reply s d rfl)
  · split
    · exact .inl (.refl s)
    · exact .inl (quiet_reply s d rfl)
    · split
      · exact .inl (.refl s)
      · rename_i ds hds
        split
        · exact .inl (quiet_reply s d rfl)
        · rename_i ch hch
          split
          · exact .inl (.refl s)
          · rename_i i ch' hjob
            exact .inr ⟨ds, ch, i, ch', _, hds, hch, hjob, ⟨_, rfl, rfl⟩, rfl⟩

/-- The error action at the end of a step does not make another kind of change of it. -/
theorem ChannelStep.settle {e : Event} {s' : ChannelManager env.channels}
    {before : Option env.channels.Channel} {r : ChannelManager env.channels × Option PoolError}
    (h : ChannelStep s e s' d c before (r.1.channel? d k c)) :
    ChannelStep s e s' d c before ((settle r).channel? d k c) := by
  rcases (quiet_settle r).channel d k c with heq | heq
  · rw [heq]
    exact h
  · rw [heq]
    exact .removed

/-- The ways one event can change one channel. -/
theorem step_channel (law : env.channels.Lawful) (s : ChannelManager env.channels) (e : Event)
    (hrun : s.running = true) (d : DownstreamId) (k : ChannelKind) (c : ChannelId) :
    ChannelStep s e (s.step e) d c (s.channel? d k c) ((s.step e).channel? d k c) := by
  have hidle : ∀ {s'}, e.reachesAll = false →
      ChannelStep s e s' d c (s.channel? d k c) (s.channel? d k c) :=
    fun he => .same fun _ _ _ _ _ => he
  cases e with
  | connect std custom =>
      simp only [step, hrun, Bool.not_true, Bool.false_eq_true, if_false]
      refine .settle ?_
      rcases connect_cases s std custom with hq | ⟨t, m, group, -, -, -, hr⟩
      · exact hq.channelStep rfl k
      · rcases channel?_insert s (s.connect std custom).1 (by rw [hr]) d k c with
          ⟨-, heq⟩ | ⟨-, heq⟩
        · rw [heq]
          exact .removed
        · rw [heq]
          exact hidle rfl
  | disconnect d₀ =>
      simp only [step, hrun, Bool.not_true, Bool.false_eq_true, if_false]
      exact (quiet_removeDownstream s d₀).channelStep rfl k
  | newTemplate t fetch clock =>
      simp only [step, hrun, Bool.not_true, Bool.false_eq_true, if_false]
      rcases handleNewTemplate_cases s t fetch clock with ⟨e, hr⟩ | ⟨gridpool, hgridpool, hr⟩
      · rw [hr]
        exact .same fun _ _ _ _ h => by cases h
      · have hnone : (s.withTemplate gridpool t).gridpool = none → s.gridpool = none := by
          rintro rfl
          rcases hgridpool with heq | ⟨g, g', -, -, -, heq⟩
          · exact heq.symm
          · cases heq
        rw [hr, settle_conclude]
        refine newTemplate_channelStep law hnone rfl ?_
        intro herr
        obtain ⟨e, he⟩ := Option.ne_none_iff_exists'.mp herr
        simp [he]
  | setNewPrevHash m =>
      simp only [step, hrun, Bool.not_true, Bool.false_eq_true, if_false]
      rw [handleSetNewPrevHash, settle_conclude]
      refine prevHash_channelStep rfl ?_
      intro herr
      obtain ⟨e, he⟩ := Option.ne_none_iff_exists'.mp herr
      simp [he]
  | openChannel k₀ d₀ msg allocated now =>
      cases k₀ with
      | standard =>
          simp only [step, hrun, Bool.not_true, Bool.false_eq_true, if_false]
          exact .settle (open_channelStep (openEffect_standard msg allocated now))
      | extended =>
          simp only [step, hrun, Bool.not_true, Bool.false_eq_true, if_false]
          exact .settle (open_channelStep (openEffect_extended msg allocated now))
  | closeChannel d₀ c₀ =>
      simp only [step, hrun, Bool.not_true, Bool.false_eq_true, if_false]
      refine .settle ?_
      rcases handleCloseChannel_cases s d₀ c₀ with hq | ⟨ds, ds', hds, hds', hr⟩
      · exact hq.channelStep rfl k
      · rcases channel?_insert s (s.handleCloseChannel d₀ c₀).1 (by rw [hr]) d k c with
          ⟨rfl, heq⟩ | ⟨-, heq⟩
        · rw [heq, hds']
          by_cases hc : c = c₀
          · subst hc
            dsimp only
            rw [AList.lookup_erase]
            exact .removed
          · dsimp only
            rw [AList.lookup_erase_ne hc, channel?, hds, Option.bind_some]
            exact .same fun _ _ _ _ _ => rfl
        · rw [heq]
          exact hidle rfl
  | setCustomMiningJob d₀ msg response =>
      simp only [step, hrun, Bool.not_true, Bool.false_eq_true, if_false]
      refine .settle ?_
      rcases handleSetCustomMiningJob_cases s d₀ msg response with
        hq | ⟨ds, ch, i, ch', x, hds, hch, hjob, -, hr⟩
      · exact hq.channelStep rfl k
      · rcases channel?_insert s (s.handleSetCustomMiningJob d₀ msg response).1
          (by rw [hr]) d k c with ⟨rfl, heq⟩ | ⟨-, heq⟩
        · rw [heq, channel?, hds, Option.bind_some]
          have hinsert : (ds.insertChannel .extended msg.channelId ch').channels =
              update ds.channels .extended ((ds.channels .extended).insert msg.channelId ch') := rfl
          rcases lookup_insertChannel hinsert k c with ⟨rfl, rfl, hch'⟩ | ⟨-, hch'⟩
          · rw [hch', hch]
            exact .custom rfl rfl hjob
          · rw [hch']
            exact .same fun _ _ _ _ _ => rfl
        · rw [heq]
          exact hidle rfl
  | feeTick now clock =>
      simp only [step, hrun, Bool.not_true, Bool.false_eq_true, if_false]
      exact feeTick_channelStep now clock
  | poll response =>
      simp only [step, hrun, Bool.not_true, Bool.false_eq_true, if_false]
      exact hidle rfl

end ChannelManager

end GridPoolSv2.Pool
