import GridPoolSv2.Lib.Consensus
import Mathlib.Data.List.Basic
import Mathlib.Logic.Function.Basic

/-!
# Pool.Channels: the channel types the pool's channel manager works with

`ChannelManager` keeps its jobs inside the `StandardChannel`, `ExtendedChannel` and
`GroupChannel` types of `channels_sv2`, a crate outside this repository. The model takes
these types as a **parameter**: `ChannelsSv2` lists the methods the manager calls, and
`ChannelsSv2.Lawful` states what it relies on:

* every channel numbers its own jobs from its own counter;
* `on_new_template` stores a future template's job under the template id and makes any
  other template's job the active one;
* `on_set_new_prev_hash` activates the future job stored for the template it names.

What a previous hash does that names none of the stored templates depends on the type. A standard
or extended channel fails when it has future jobs for other templates, and only moves its chain tip
when it has no future job at all (`JobOps.LawfulChannel`). A group does it the other way round: it
takes any previous hash as long as it has some future job, and fails when it has none
(`JobOps.LawfulGroup`).

Standard and extended channels offer the manager the same methods, so one carrier
`Channel` stands for both. The two lookups `get_future_job_id_from_template_id` and
`get_future_job`, which the manager always makes one after the other, are one method.
`Reference` is an implementation of the three types that does just this.
-/

namespace GridPoolSv2.Pool

open Consensus (Bytes TxOut)
open Function (update)

abbrev DownstreamId := Nat
abbrev ChannelId := Nat
abbrev TemplateId := Nat
abbrev JobId := Nat

/-- `template_distribution_sv2::NewTemplate`, with the fields the manager reads. -/
structure NewTemplate where
  templateId : TemplateId
  futureTemplate : Bool
  coinbasePrefix : Bytes
  coinbaseTxValueRemaining : UInt64
  deriving Repr, DecidableEq

/-- `template_distribution_sv2::SetNewPrevHash`. -/
structure SetNewPrevHash where
  templateId : TemplateId
  prevHash : Bytes
  headerTimestamp : UInt32
  nBits : UInt32
  deriving Repr, DecidableEq

/-- `mining_sv2::SetCustomMiningJob`, with the fields the manager and the channel's tip depend
on. -/
structure SetCustomMiningJob where
  channelId : ChannelId
  requestId : Nat
  prevHash : Bytes
  deriving Repr, DecidableEq

/-- `JobOrigin`. -/
inductive JobOrigin where
  | newTemplate (template : NewTemplate)
  | setCustomMiningJob (message : SetCustomMiningJob)
  deriving Repr, DecidableEq

/-- A standard or extended job. A future job has no `min_ntime` yet. -/
structure Job where
  jobId : JobId
  origin : JobOrigin
  coinbaseOutputs : List TxOut
  minNtime : Option UInt32
  deriving Repr, DecidableEq

/-- The template a job was built from. -/
def Job.template? (j : Job) : Option NewTemplate :=
  match j.origin with
  | .newTemplate t => some t
  | .setCustomMiningJob _ => none

/-- A future job becomes active. -/
def Job.activate (j : Job) (ntime : UInt32) : Job :=
  { j with minNtime := some ntime }

@[simp] theorem Job.activate_jobId (j : Job) (n : UInt32) : (j.activate n).jobId = j.jobId := rfl
@[simp] theorem Job.activate_origin (j : Job) (n : UInt32) : (j.activate n).origin = j.origin := rfl
@[simp] theorem Job.activate_template (j : Job) (n : UInt32) :
    (j.activate n).template? = j.template? := rfl
@[simp] theorem Job.activate_coinbaseOutputs (j : Job) (n : UInt32) :
    (j.activate n).coinbaseOutputs = j.coinbaseOutputs := rfl

/-- The errors of the channel types; the ones of an open request carry the code sent back. -/
inductive ChannelError where
  | openChannel (code : String)
  | other (text : String)
  deriving Repr, DecidableEq

/-- `OpenStandardMiningChannel` and `OpenExtendedMiningChannel`. -/
structure OpenMiningChannel where
  requestId : Nat
  userIdentity : List Char
  nominalHashRate : UInt32
  maxTarget : Bytes
  /-- Extended channels only. -/
  minExtranonceSize : Nat
  deriving Repr, DecidableEq

/-- The job methods every channel type has. `nextJobId` is the state of its job counter. -/
structure JobOps (C : Type) where
  onNewTemplate : C → NewTemplate → List TxOut → Except ChannelError C
  onSetNewPrevHash : C → SetNewPrevHash → Except ChannelError C
  activeJob : C → Option Job
  futureJob : C → TemplateId → Option Job
  chainTip : C → Option Bytes
  nextJobId : C → JobId

/-- `j` is the job a channel with job counter `n` builds from a template and reward outputs. The
outputs of the template follow the given ones. -/
structure BuiltFrom (j : Job) (n : JobId) (t : NewTemplate) (outputs : List TxOut) : Prop where
  jobId : j.jobId = n
  origin : j.origin = .newTemplate t
  outputs : ∃ rest, j.coinbaseOutputs = outputs ++ rest
  future : j.minNtime = none ↔ t.futureTemplate = true

theorem BuiltFrom.template {j : Job} {n : JobId} {t : NewTemplate} {o : List TxOut}
    (h : BuiltFrom j n t o) : j.template? = some t := by
  simp [Job.template?, h.origin]

/-- What the manager relies on in the job methods of channels and of groups. -/
structure JobOps.Lawful {C : Type} (ops : JobOps C) : Prop where
  onNewTemplate_future : ∀ {c c' t o}, ops.onNewTemplate c t o = .ok c' →
    t.futureTemplate = true → ∃ j, BuiltFrom j (ops.nextJobId c) t o ∧
      ops.futureJob c' = update (ops.futureJob c) t.templateId (some j) ∧
      ops.activeJob c' = ops.activeJob c ∧ ops.chainTip c' = ops.chainTip c ∧
      ops.nextJobId c' = ops.nextJobId c + 1
  onNewTemplate_active : ∀ {c c' t o}, ops.onNewTemplate c t o = .ok c' →
    t.futureTemplate = false → ∃ j, BuiltFrom j (ops.nextJobId c) t o ∧
      ops.activeJob c' = some j ∧ ops.futureJob c' = ops.futureJob c ∧
      ops.chainTip c' = ops.chainTip c ∧ ops.nextJobId c' = ops.nextJobId c + 1
  onSetNewPrevHash_tip : ∀ {c c' m}, ops.onSetNewPrevHash c m = .ok c' →
    ops.chainTip c' = some m.prevHash ∧ ops.nextJobId c' = ops.nextJobId c
  /-- Future jobs are only removed, the activated one in any case. -/
  onSetNewPrevHash_future : ∀ {c c' m}, ops.onSetNewPrevHash c m = .ok c' →
    ∀ {t j}, ops.futureJob c' t = some j → t ≠ m.templateId ∧ ops.futureJob c t = some j
  onSetNewPrevHash_activates : ∀ {c c' m j}, ops.onSetNewPrevHash c m = .ok c' →
    ops.futureJob c m.templateId = some j →
    ops.activeJob c' = some (j.activate m.headerTimestamp)

/-- A channel with future jobs refuses the previous hash of another template; without any it only
moves its tip. -/
structure JobOps.LawfulChannel {C : Type} (ops : JobOps C) : Prop extends ops.Lawful where
  onSetNewPrevHash_unmatched : ∀ {c c' m}, ops.onSetNewPrevHash c m = .ok c' →
    ops.futureJob c m.templateId = none →
    (∀ t, ops.futureJob c t = none) ∧ ops.activeJob c' = ops.activeJob c

/-- A group takes the previous hash of whatever template while it has a future job, and none without
one. -/
structure JobOps.LawfulGroup {C : Type} (ops : JobOps C) : Prop extends ops.Lawful where
  onSetNewPrevHash_ok : ∀ {c m}, (∃ c', ops.onSetNewPrevHash c m = .ok c') ↔
    ∃ t, ops.futureJob c t ≠ none

/-- The parts of `channels_sv2` the manager uses. -/
structure ChannelsSv2 where
  Channel : Type
  Group : Type
  /-- `StandardChannel::new_for_pool`, given the allocated extranonce prefix. -/
  newStandard : ChannelId → OpenMiningChannel → Bytes → Except ChannelError Channel
  /-- `ExtendedChannel::new_for_pool`. -/
  newExtended : ChannelId → OpenMiningChannel → Bytes → Except ChannelError Channel
  /-- `GroupChannel::new_for_pool`. -/
  newGroup : ChannelId → Except ChannelError Group
  channel : JobOps Channel
  group : JobOps Group
  onGroupChannelJob : Channel → Job → Except ChannelError Channel
  onSetCustomMiningJob : Channel → SetCustomMiningJob → Except ChannelError (JobId × Channel)
  /-- The channels of a group, with `has_channel_id` and `is_empty` as tests on them. -/
  members : Group → List ChannelId
  addChannelId : Group → ChannelId → Except ChannelError Group
  removeChannelId : Group → ChannelId → Group
  groupChannelId : Group → ChannelId

structure ChannelsSv2.Lawful (api : ChannelsSv2) : Prop where
  channel : api.channel.LawfulChannel
  group : api.group.LawfulGroup
  newStandard : ∀ {i m p c}, api.newStandard i m p = .ok c →
    api.channel.activeJob c = none ∧ (∀ t, api.channel.futureJob c t = none) ∧
      api.channel.chainTip c = none
  newExtended : ∀ {i m p c}, api.newExtended i m p = .ok c →
    api.channel.activeJob c = none ∧ (∀ t, api.channel.futureJob c t = none) ∧
      api.channel.chainTip c = none
  newGroup : ∀ {i g}, api.newGroup i = .ok g → api.members g = [] ∧ api.groupChannelId g = i ∧
    (∀ t, api.group.futureJob g t = none)
  /-- The job of the group, under its id, is stored as a future job or becomes active. -/
  onGroupChannelJob_future : ∀ {c c' j t}, api.onGroupChannelJob c j = .ok c' →
    j.template? = some t → j.minNtime = none →
    api.channel.futureJob c' = update (api.channel.futureJob c) t.templateId (some j) ∧
      api.channel.activeJob c' = api.channel.activeJob c ∧
      api.channel.chainTip c' = api.channel.chainTip c
  onGroupChannelJob_active : ∀ {c c' j}, api.onGroupChannelJob c j = .ok c' →
    j.minNtime ≠ none → api.channel.activeJob c' = some j ∧
      api.channel.futureJob c' = api.channel.futureJob c ∧
      api.channel.chainTip c' = api.channel.chainTip c
  /-- A custom job becomes active, and may move the tip to its own previous block. -/
  onSetCustomMiningJob : ∀ {c c' m i}, api.onSetCustomMiningJob c m = .ok (i, c') →
    (∃ j, api.channel.activeJob c' = some j ∧ j.jobId = i ∧ j.origin = .setCustomMiningJob m) ∧
      api.channel.futureJob c' = api.channel.futureJob c ∧
      i = api.channel.nextJobId c ∧ api.channel.nextJobId c' = api.channel.nextJobId c + 1 ∧
      (api.channel.chainTip c' = api.channel.chainTip c ∨
        api.channel.chainTip c' = some m.prevHash)
  /-- Job methods do not change the members of a group. -/
  members_onNewTemplate : ∀ {g g' t o}, api.group.onNewTemplate g t o = .ok g' →
    api.members g' = api.members g ∧ api.groupChannelId g' = api.groupChannelId g
  members_onSetNewPrevHash : ∀ {g g' m}, api.group.onSetNewPrevHash g m = .ok g' →
    api.members g' = api.members g ∧ api.groupChannelId g' = api.groupChannelId g
  /-- Membership does not change the jobs of a group. -/
  addChannelId : ∀ {g g' i}, api.addChannelId g i = .ok g' →
    (∀ k, k ∈ api.members g' ↔ k = i ∨ k ∈ api.members g) ∧
      api.group.futureJob g' = api.group.futureJob g ∧
      api.groupChannelId g' = api.groupChannelId g
  removeChannelId : ∀ {g i}, (∀ k, k ∈ api.members (api.removeChannelId g i) ↔
      k ≠ i ∧ k ∈ api.members g) ∧
    api.group.futureJob (api.removeChannelId g i) = api.group.futureJob g ∧
    api.groupChannelId (api.removeChannelId g i) = api.groupChannelId g

/-! ### A reference implementation -/

namespace Reference

/-- A job store: the active job, the future jobs by template id, the chain tip and its time, and
the job counter. -/
structure Store where
  active : Option Job
  future : List (TemplateId × Job)
  tip : Option (Bytes × UInt32)
  nextJobId : JobId
  deriving Repr, DecidableEq

def Store.empty : Store := ⟨none, [], none, 1⟩

def Store.onNewTemplate (s : Store) (t : NewTemplate) (outputs : List TxOut) : Store :=
  if t.futureTemplate then
    { s with
      future := (t.templateId, ⟨s.nextJobId, .newTemplate t, outputs, none⟩) :: s.future
      nextJobId := s.nextJobId + 1 }
  else
    { s with
      active := some ⟨s.nextJobId, .newTemplate t, outputs, some ((s.tip.map (·.2)).getD 0)⟩
      nextJobId := s.nextJobId + 1 }

/-- Activate the future job of the template, or else move the tip where `moves` allows it. -/
def Store.setPrevHash (s : Store) (m : SetNewPrevHash) (moves : Bool) : Except ChannelError Store :=
  let tip := some (m.prevHash, m.headerTimestamp)
  match s.future.lookup m.templateId with
  | some j => .ok { s with
      active := some (j.activate m.headerTimestamp)
      future := []
      tip := tip }
  | none => if moves then .ok { s with tip := tip } else .error (.other "TemplateIdNotFound")

def Store.onSetNewPrevHash (s : Store) (m : SetNewPrevHash) : Except ChannelError Store :=
  s.setPrevHash m s.future.isEmpty

def Store.onGroupChannelJob (s : Store) (j : Job) : Store :=
  match j.template?, j.minNtime with
  | some t, none => { s with future := (t.templateId, j) :: s.future }
  | _, _ => { s with active := some j }

def Store.onSetCustomMiningJob (s : Store) (m : SetCustomMiningJob) : JobId × Store :=
  (s.nextJobId, { s with
    active := some ⟨s.nextJobId, .setCustomMiningJob m, [], some ((s.tip.map (·.2)).getD 0)⟩
    nextJobId := s.nextJobId + 1 })

/-- A group: its members and its job store. -/
structure Group where
  id : ChannelId
  members : List ChannelId
  store : Store
  deriving Repr, DecidableEq

def storeOps : JobOps Store where
  onNewTemplate s t o := .ok (s.onNewTemplate t o)
  onSetNewPrevHash := Store.onSetNewPrevHash
  activeJob := Store.active
  futureJob s t := s.future.lookup t
  chainTip s := s.tip.map (·.1)
  nextJobId := Store.nextJobId

def groupOps : JobOps Group where
  onNewTemplate g t o := .ok { g with store := g.store.onNewTemplate t o }
  onSetNewPrevHash g m :=
    (g.store.setPrevHash m !g.store.future.isEmpty).map fun s => { g with store := s }
  activeJob g := g.store.active
  futureJob g t := g.store.future.lookup t
  chainTip g := g.store.tip.map (·.1)
  nextJobId g := g.store.nextJobId

/-- A list with a new first entry is a map that was written. -/
theorem lookup_cons_eq_update (l : List (TemplateId × Job)) (t : TemplateId) (j : Job) :
    (fun u => ((t, j) :: l).lookup u) = update (fun u => l.lookup u) t (some j) := by
  funext u
  by_cases h : u = t
  · subst h
    simp
  · have hb : (u == t) = false := beq_eq_false_iff_ne.mpr h
    rw [Function.update_of_ne h, List.lookup_cons, hb]

/-- The store takes a previous hash: it activates a job, or keeps its jobs. -/
theorem Store.setPrevHash_eq_ok {s s' : Store} {m : SetNewPrevHash} {moves : Bool}
    (h : s.setPrevHash m moves = .ok s') :
    s'.tip = some (m.prevHash, m.headerTimestamp) ∧ s'.nextJobId = s.nextJobId ∧
      ((∃ j, s.future.lookup m.templateId = some j ∧ s'.future = [] ∧
          s'.active = some (j.activate m.headerTimestamp)) ∨
        s.future.lookup m.templateId = none ∧ moves = true ∧ s'.future = s.future ∧
          s'.active = s.active) := by
  unfold Store.setPrevHash at h
  dsimp only at h
  split at h
  · rename_i j hj
    cases h
    exact ⟨rfl, rfl, .inl ⟨j, hj, rfl, rfl⟩⟩
  · rename_i hnone
    split at h
    · rename_i hmoves
      cases h
      exact ⟨rfl, rfl, .inr ⟨hnone, hmoves, rfl, rfl⟩⟩
    · cases h

/-- A store that may move its tip takes any previous hash. -/
theorem Store.setPrevHash_moves (s : Store) (m : SetNewPrevHash) :
    ∃ s', s.setPrevHash m true = .ok s' := by
  unfold Store.setPrevHash
  split
  · exact ⟨_, rfl⟩
  · exact ⟨_, rfl⟩

/-- Of the future jobs that are left none is the one that was activated. -/
theorem Store.setPrevHash_future {s s' : Store} {m : SetNewPrevHash} {moves : Bool}
    (h : s.setPrevHash m moves = .ok s') {t : TemplateId} {j : Job}
    (hj : s'.future.lookup t = some j) : t ≠ m.templateId ∧ s.future.lookup t = some j := by
  obtain ⟨-, -, ⟨_, -, hnil, -⟩ | ⟨hnone, -, hsame, -⟩⟩ := Store.setPrevHash_eq_ok h
  · rw [hnil] at hj
    cases hj
  · rw [hsame] at hj
    refine ⟨?_, hj⟩
    rintro rfl
    rw [hnone] at hj
    cases hj

/-- The future job of the named template becomes the active one. -/
theorem Store.setPrevHash_activates {s s' : Store} {m : SetNewPrevHash} {moves : Bool} {j : Job}
    (h : s.setPrevHash m moves = .ok s') (hj : s.future.lookup m.templateId = some j) :
    s'.active = some (j.activate m.headerTimestamp) := by
  obtain ⟨-, -, ⟨j', hj', -, hactive⟩ | ⟨hnone, -⟩⟩ := Store.setPrevHash_eq_ok h
  · obtain rfl := Option.some.inj (hj.symm.trans hj')
    exact hactive
  · rw [hnone] at hj
    cases hj

theorem storeOps_lawful : storeOps.LawfulChannel where
  onNewTemplate_future := by
    intro c c' t o h hf
    cases h
    refine ⟨⟨c.nextJobId, .newTemplate t, o, none⟩, ⟨rfl, rfl, ⟨[], by simp⟩, by simp [hf]⟩, ?_⟩
    simp only [storeOps, Store.onNewTemplate, hf, if_true, and_true]
    exact lookup_cons_eq_update _ _ _
  onNewTemplate_active := by
    intro c c' t o h hf
    cases h
    refine ⟨⟨c.nextJobId, .newTemplate t, o, some ((c.tip.map (·.2)).getD 0)⟩,
      ⟨rfl, rfl, ⟨[], by simp⟩, by simp [hf]⟩, ?_⟩
    simp [storeOps, Store.onNewTemplate, hf]
  onSetNewPrevHash_tip := by
    intro c c' m h
    obtain ⟨htip, hnext, -⟩ := Store.setPrevHash_eq_ok h
    exact ⟨by simp [storeOps, htip], hnext⟩
  onSetNewPrevHash_future h := Store.setPrevHash_future h
  onSetNewPrevHash_activates h hj := Store.setPrevHash_activates h hj
  onSetNewPrevHash_unmatched := by
    intro c c' m h hnone
    obtain ⟨-, -, ⟨j, hj, -⟩ | ⟨-, hempty, -, hactive⟩⟩ := Store.setPrevHash_eq_ok h
    · rw [show c.future.lookup m.templateId = none from hnone] at hj
      cases hj
    · have hnil := List.isEmpty_iff.mp hempty
      exact ⟨fun t => by simp [storeOps, hnil], hactive⟩

/-- A group moves its tip if it has some future job. -/
theorem groupOps_onSetNewPrevHash {g g' : Group} {m : SetNewPrevHash}
    (h : groupOps.onSetNewPrevHash g m = .ok g') :
    ∃ s, g.store.setPrevHash m (!g.store.future.isEmpty) = .ok s ∧ g' = { g with store := s } := by
  cases hs : g.store.setPrevHash m !g.store.future.isEmpty with
  | error e =>
      simp only [groupOps, hs] at h
      cases h
  | ok s =>
      simp only [groupOps, hs] at h
      cases h
      exact ⟨s, rfl, rfl⟩

/-- A group with a future job takes any previous hash. -/
theorem groupOps_onSetNewPrevHash_ok {g : Group} {m : SetNewPrevHash} :
    (∃ g', groupOps.onSetNewPrevHash g m = .ok g') ↔ ∃ t, groupOps.futureJob g t ≠ none := by
  constructor
  · rintro ⟨g', h⟩
    obtain ⟨s, hs, -⟩ := groupOps_onSetNewPrevHash h
    obtain ⟨-, -, ⟨j, hj, -⟩ | ⟨-, hsome, -⟩⟩ := Store.setPrevHash_eq_ok hs
    · refine ⟨m.templateId, ?_⟩
      rw [show groupOps.futureJob g m.templateId = some j from hj]
      exact Option.some_ne_none j
    · cases hfuture : g.store.future with
      | nil => simp [hfuture] at hsome
      | cons x rest =>
          refine ⟨x.1, ?_⟩
          simp [groupOps, hfuture]
  · rintro ⟨t, ht⟩
    have hne : g.store.future.isEmpty = false := by
      cases hfuture : g.store.future with
      | nil => simp [groupOps, hfuture] at ht
      | cons x rest => rfl
    obtain ⟨s, hs⟩ := Store.setPrevHash_moves g.store m
    refine ⟨{ g with store := s }, ?_⟩
    simp only [groupOps, hne, Bool.not_false, hs]
    rfl

theorem groupOps_lawful : groupOps.LawfulGroup where
  onNewTemplate_future := by
    intro c c' t o h hf
    cases h
    exact storeOps_lawful.onNewTemplate_future (c := c.store) rfl hf
  onNewTemplate_active := by
    intro c c' t o h hf
    cases h
    exact storeOps_lawful.onNewTemplate_active (c := c.store) rfl hf
  onSetNewPrevHash_tip := by
    intro c c' m h
    obtain ⟨s, hs, rfl⟩ := groupOps_onSetNewPrevHash h
    obtain ⟨htip, hnext, -⟩ := Store.setPrevHash_eq_ok hs
    exact ⟨by simp [groupOps, htip], hnext⟩
  onSetNewPrevHash_future := by
    intro c c' m h t j hj
    obtain ⟨s, hs, rfl⟩ := groupOps_onSetNewPrevHash h
    exact Store.setPrevHash_future hs hj
  onSetNewPrevHash_activates := by
    intro c c' m j h hj
    obtain ⟨s, hs, rfl⟩ := groupOps_onSetNewPrevHash h
    exact Store.setPrevHash_activates hs hj
  onSetNewPrevHash_ok := groupOps_onSetNewPrevHash_ok

/-- The reference channel types. -/
def channels : ChannelsSv2 where
  Channel := Store
  Group := Group
  newStandard _ _ _ := .ok .empty
  newExtended _ _ _ := .ok .empty
  newGroup i := .ok ⟨i, [], .empty⟩
  channel := storeOps
  group := groupOps
  onGroupChannelJob s j := .ok (s.onGroupChannelJob j)
  onSetCustomMiningJob s m := .ok (s.onSetCustomMiningJob m)
  members := Group.members
  addChannelId g i := .ok { g with members := g.members ++ [i] }
  removeChannelId g i := { g with members := g.members.filter (· ≠ i) }
  groupChannelId := Group.id

theorem channels_lawful : channels.Lawful where
  channel := storeOps_lawful
  group := groupOps_lawful
  newStandard := by
    intro i m p c h
    cases h
    exact ⟨rfl, fun _ => rfl, rfl⟩
  newExtended := by
    intro i m p c h
    cases h
    exact ⟨rfl, fun _ => rfl, rfl⟩
  newGroup := by
    intro i g h
    cases h
    exact ⟨rfl, rfl, fun _ => rfl⟩
  onGroupChannelJob_future := by
    intro c c' j t h ht hn
    cases h
    simp only [channels, storeOps, Store.onGroupChannelJob, ht, hn, and_true]
    exact lookup_cons_eq_update _ _ _
  onGroupChannelJob_active := by
    intro c c' j h hn
    cases h
    obtain ⟨n, hn⟩ := Option.ne_none_iff_exists'.mp hn
    cases ht : j.template? <;> simp [channels, storeOps, Store.onGroupChannelJob, hn, ht]
  onSetCustomMiningJob := by
    intro c c' m i h
    cases h
    exact ⟨⟨_, rfl, rfl, rfl⟩, rfl, rfl, rfl, .inl rfl⟩
  members_onNewTemplate := by
    intro g g' t o h
    cases h
    exact ⟨rfl, rfl⟩
  members_onSetNewPrevHash := by
    intro g g' m h
    obtain ⟨s, -, rfl⟩ := groupOps_onSetNewPrevHash h
    exact ⟨rfl, rfl⟩
  addChannelId := by
    intro g g' i h
    cases h
    refine ⟨fun k => ?_, rfl, rfl⟩
    simp [channels, or_comm]
  removeChannelId := by
    intro g i
    refine ⟨fun k => ?_, rfl, rfl⟩
    simp [channels, and_comm]

end Reference

end GridPoolSv2.Pool
