import GridPoolSv2.Lib.Tasks
import GridPoolSv2.Pool.ChannelManager
import Mathlib.Data.Finset.Basic

/-!
# Pool.SharedMaps: the maps of the channel manager under concurrent tasks

The channel manager, the vardiff loop and the task of every connection share the maps of
`ChannelManager`: `downstreams` with the channel maps of each `Downstream`, `vardiff`,
`gridpool_channels` and `downstream_sender`. Each map is locked for one operation at a time,
and nothing orders the operations of different tasks on different maps, except that
`with_registered_downstream` keeps the entry of its downstream from being removed
(`pool/src/lib/channel_manager/mod.rs`, `mining_message_handler.rs`).

* `SharedMaps` is the keys of the maps and the entry guards that are held.
* A `Task` is what a task does next, and `op` one map operation of it. `removeDownstream` to
  `removeSender` are the steps of `remove_downstream`, in the order of the source.
* `Local` says what a task knows at each point, and `Within` how much a turn of one task can
  change under the others.
* `maps_consistent` is the result over all interleavings.

The manager takes messages one after the other. The vardiff loop, which shares a task with
it in the source, may take its turns at any time here.

Proof shape: the rule of `Lib.Tasks` for tasks with local knowledge. One operation keeps the
maps consistent and gives its task what it has to know for the next one (`valid_op`), and what
a task knows is stable under an operation of another (`local_stable`). The guard is what makes
the second true for the handlers of opens: nobody else can take the entry of their downstream
away.
-/

namespace GridPoolSv2.Pool

open Runs

inductive TaskId where
  | manager
  | vardiffLoop
  | connection (d : DownstreamId)
  deriving Repr, DecidableEq

/-- The keys of the maps. `guards` is the entry of `downstreams` a task holds. Two ghosts: `started`
has the downstreams that were registered, and `removed` those for which a `remove_downstream` has
completed. -/
structure SharedMaps where
  gridpool : Bool
  downstreamIdFactory : DownstreamId
  channelIdFactory : DownstreamId → UInt32
  downstreams : Finset DownstreamId
  channels : Finset (DownstreamId × ChannelKind × ChannelId)
  vardiff : Finset (DownstreamId × ChannelId)
  gridpoolChannels : Finset (DownstreamId × ChannelId)
  downstreamSender : Finset DownstreamId
  guards : TaskId → Option DownstreamId
  started : Finset DownstreamId
  removed : Finset DownstreamId

/-- The errors of a handler that are not only logged. -/
inductive Failure where
  | disconnect
  | shutdown
  deriving Repr, DecidableEq

/-- How far the handler of an open gets: it refuses, before or after it has taken a channel id, with
or without an error; it fails once the payout is recorded, or once the channel is in its map; or the
channel is opened. -/
inductive OpenResult where
  | refused (allocated : Bool) (error : Option Failure)
  | afterPayout (error : Failure)
  | afterChannel (error : Failure)
  | opened
  deriving Repr, DecidableEq

/-- The next operation of a task. -/
inductive Task where
  | absent
  | idle
  | halted
  -- a new connection
  | insertSender (d : DownstreamId)
  | insertDownstream (d : DownstreamId)
  -- `remove_downstream`
  | removeDownstream (d : DownstreamId)
  | retainVardiff (d : DownstreamId)
  | retainGridpoolChannels (d : DownstreamId)
  | removeSender (d : DownstreamId)
  -- the handlers of opens; all but the first operation under the guard
  | openChannel (d : DownstreamId) (k : ChannelKind) (r : OpenResult)
  | insertGridpoolChannel (d : DownstreamId) (k : ChannelKind) (c : ChannelId) (r : OpenResult)
  | insertChannel (d : DownstreamId) (k : ChannelKind) (c : ChannelId) (r : OpenResult)
  | insertVardiff (d : DownstreamId) (c : ChannelId)
  -- `handle_close_channel`; the channel maps under the guard
  | closeChannel (d : DownstreamId) (c : ChannelId)
  | removeStandardChannel (d : DownstreamId) (c : ChannelId)
  | removeExtendedChannel (d : DownstreamId) (c : ChannelId)
  | removeVardiff (d : DownstreamId) (c : ChannelId)
  | removeGridpoolChannel (d : DownstreamId) (c : ChannelId)
  -- handlers that only look at the maps, like those of shares
  | access (d : DownstreamId) (error : Option Failure)
  | release (d : DownstreamId) (error : Option Failure)
  -- `run_vardiff`
  | vardiffPass (keys : List (DownstreamId × ChannelId))
  | vardiffEntry (d : DownstreamId) (c : ChannelId) (rest : List (DownstreamId × ChannelId))
  | expireVardiff (d : DownstreamId) (c : ChannelId) (rest : List (DownstreamId × ChannelId))
  -- `ChannelManagerIo::close`
  | closeIo
  deriving Repr, DecidableEq

/-- A message of a downstream, with what becomes of it. -/
inductive Handler where
  | openChannel (d : DownstreamId) (k : ChannelKind) (r : OpenResult)
  | closeChannel (d : DownstreamId) (c : ChannelId)
  | access (d : DownstreamId) (error : Option Failure)
  deriving Repr, DecidableEq

def Handler.downstream : Handler → DownstreamId
  | .openChannel d _ _ | .closeChannel d _ | .access d _ => d

def Handler.task : Handler → Task
  | .openChannel d k r => .openChannel d k r
  | .closeChannel d c => .closeChannel d c
  | .access d error => .access d error

/-- What starts a task, or its next operation. -/
inductive Input where
  | accept (bootstrapped : Bool)
  | exit
  | handle (h : Handler)
  | vardiffTick (keys : List (DownstreamId × ChannelId))
  | next
  deriving Repr, DecidableEq

/-- `handle_error_action` after a handler for a downstream. -/
def Task.finish (d : DownstreamId) : Option Failure → Task
  | none => .idle
  | some .disconnect => .removeDownstream d
  | some .shutdown => .closeIo

namespace SharedMaps

def initial (gridpool : Bool) : SharedMaps where
  gridpool := gridpool
  downstreamIdFactory := 1
  channelIdFactory := fun _ => 2
  downstreams := ∅
  channels := ∅
  vardiff := ∅
  gridpoolChannels := ∅
  downstreamSender := ∅
  guards := fun _ => none
  started := ∅
  removed := ∅

/-- `SharedMap::with` takes the guard of an entry. -/
def lock (s : SharedMaps) (i : TaskId) (d : DownstreamId) : SharedMaps :=
  { s with guards := Function.update s.guards i (some d) }

def unlock (s : SharedMaps) (i : TaskId) : SharedMaps :=
  { s with guards := Function.update s.guards i none }

/-- Some task holds the entry of a downstream; only these two take guards. -/
def Held (s : SharedMaps) (d : DownstreamId) : Prop :=
  s.guards .manager = some d ∨ s.guards .vardiffLoop = some d

instance (s : SharedMaps) (d : DownstreamId) : Decidable (s.Held d) :=
  inferInstanceAs (Decidable (_ ∨ _))

/-- `channel_id_factory.fetch_add`. -/
def takeChannelId (s : SharedMaps) (d : DownstreamId) : SharedMaps :=
  { s with channelIdFactory := Function.update s.channelIdFactory d (s.channelIdFactory d + 1) }

/-- The next operation of a task. Without an entry in `downstreams` the handlers end with
`DownstreamNotFound`, which disconnects. -/
def next (i : TaskId) (s : SharedMaps) (t : Task) : SharedMaps × Task :=
  match t with
  | .absent | .idle | .halted => (s, t)
  | .insertSender d =>
      ({ s with downstreamSender := insert d s.downstreamSender }, .insertDownstream d)
  | .insertDownstream d =>
      ({ s with downstreams := insert d s.downstreams, started := insert d s.started }, .idle)
  | .removeDownstream d =>
      -- the removal waits for the guard of the entry
      if s.Held d then (s, t)
      else ({ s with downstreams := s.downstreams.erase d }, .retainVardiff d)
  | .retainVardiff d =>
      ({ s with vardiff := s.vardiff.filter (·.1 ≠ d) }, .retainGridpoolChannels d)
  | .retainGridpoolChannels d =>
      ({ s with gridpoolChannels := s.gridpoolChannels.filter (·.1 ≠ d) }, .removeSender d)
  | .removeSender d =>
      ({ s with downstreamSender := s.downstreamSender.erase d, removed := insert d s.removed },
        if i = .manager then .idle else .halted)
  | .openChannel d k r =>
      if d ∈ s.downstreams then
        match r with
        | .refused allocated error =>
            (if allocated then s.takeChannelId d else s, .finish d error)
        | _ =>
            ((s.takeChannelId d).lock i d,
              .insertGridpoolChannel d k (s.channelIdFactory d).toNat r)
      else (s, .removeDownstream d)
  | .insertGridpoolChannel d k c r =>
      let s :=
        if s.gridpool then { s with gridpoolChannels := insert (d, c) s.gridpoolChannels } else s
      match r with
      | .afterPayout error => (s.unlock i, .finish d (some error))
      | _ => (s, .insertChannel d k c r)
  | .insertChannel d k c r =>
      let s := { s with channels := insert (d, k, c) s.channels }
      match r with
      | .afterChannel error => (s.unlock i, .finish d (some error))
      | _ => (s, .insertVardiff d c)
  | .insertVardiff d c =>
      ({ s with vardiff := insert (d, c) s.vardiff }.unlock i, .idle)
  | .closeChannel d c =>
      if d ∈ s.downstreams then (s.lock i d, .removeStandardChannel d c)
      else (s, .removeDownstream d)
  | .removeStandardChannel d c =>
      ({ s with channels := s.channels.erase (d, .standard, c) }, .removeExtendedChannel d c)
  | .removeExtendedChannel d c =>
      ({ s with channels := s.channels.erase (d, .extended, c) }.unlock i, .removeVardiff d c)
  | .removeVardiff d c =>
      ({ s with vardiff := s.vardiff.erase (d, c) }, .removeGridpoolChannel d c)
  | .removeGridpoolChannel d c =>
      ({ s with gridpoolChannels := s.gridpoolChannels.erase (d, c) }, .idle)
  | .access d error =>
      if d ∈ s.downstreams then (s.lock i d, .release d error) else (s, .removeDownstream d)
  | .release d error => (s.unlock i, .finish d error)
  | .vardiffPass [] => (s, .idle)
  | .vardiffPass ((d, c) :: rest) =>
      if d ∈ s.downstreams then (s.lock i d, .vardiffEntry d c rest)
      else (s, .expireVardiff d c rest)
  | .vardiffEntry _ _ rest => (s.unlock i, .vardiffPass rest)
  | .expireVardiff d c rest =>
      ({ s with vardiff := s.vardiff.erase (d, c) }, .vardiffPass rest)
  | .closeIo => ({ s with downstreamSender := ∅ }, .halted)

/-- One turn of a task. A connection is accepted with a fresh id; its task takes messages to the
manager once it is registered, and ends with `remove_downstream`. The keys a vardiff pass visits are
collected while other tasks go on, so they can be any. -/
def op (i : TaskId) (input : Input) (s : SharedMaps) (t : Task) : SharedMaps × Task :=
  match input, i, t with
  | .accept bootstrapped, .connection d, .absent =>
      if d = s.downstreamIdFactory then
        ({ s with downstreamIdFactory := d + 1 },
          if bootstrapped then .insertSender d else .halted)
      else (s, t)
  | .exit, .connection d, .idle => (s, .removeDownstream d)
  | .handle h, .manager, .idle => (s, if h.downstream ∈ s.started then h.task else t)
  | .vardiffTick keys, .vardiffLoop, .idle => (s, .vardiffPass keys)
  | .next, _, _ => next i s t
  | _, _, _ => (s, t)

/-- No connection yet; the manager and the vardiff loop are ready. -/
def start (gridpool : Bool) : Tasks.Config TaskId SharedMaps Task where
  shared := initial gridpool
  tasks
    | .manager | .vardiffLoop => .idle
    | .connection _ => .absent

/-! ### What holds at every point

`Consistent` is about the maps, `Local` about one task, and `Within` is the change one turn may
make. A task that does nothing meanwhile keeps what it knows. -/

/-- The downstream was registered and is no longer. -/
def Gone (s : SharedMaps) (d : DownstreamId) : Prop :=
  d ∈ s.started ∧ d ∉ s.downstreams

/-- No map has an entry for the downstream. -/
def Cleared (s : SharedMaps) (d : DownstreamId) : Prop :=
  d ∉ s.downstreams ∧ (∀ c, (d, c) ∉ s.vardiff) ∧ (∀ c, (d, c) ∉ s.gridpoolChannels) ∧
    d ∉ s.downstreamSender

/-- In GridPool mode every channel of a registered downstream has a payout. -/
def PayoutsRecorded (s : SharedMaps) : Prop :=
  s.gridpool = true → ∀ d ∈ s.downstreams, ∀ k c, (d, k, c) ∈ s.channels →
    (d, c) ∈ s.gridpoolChannels

/-- The invariant of the maps. -/
structure Consistent (s : SharedMaps) : Prop where
  guards : ∀ i d, s.guards i = some d → d ∈ s.downstreams
  holders : ∀ d, s.guards (.connection d) = none
  started : ∀ d ∈ s.downstreams, d ∈ s.started
  channels : ∀ d k c, (d, k, c) ∈ s.channels → d ∈ s.started
  removed : ∀ d ∈ s.removed, d ∈ s.started ∧ s.Cleared d
  payouts : s.PayoutsRecorded

/-- What a task knows before its next operation. Only the manager opens and closes channels; what a
removal has cleared stays cleared, because entries are added for registered downstreams only. -/
def Local (i : TaskId) (s : SharedMaps) : Task → Prop
  | .absent => ∀ d, i = .connection d → d ∉ s.started
  | .idle => ∀ d, i = .connection d → d ∈ s.started
  | .halted => True
  | .insertSender d | .insertDownstream d => i = .connection d ∧ d ∉ s.started
  | .removeDownstream d => d ∈ s.started
  | .retainVardiff d => s.Gone d
  | .retainGridpoolChannels d => s.Gone d ∧ ∀ c, (d, c) ∉ s.vardiff
  | .removeSender d =>
      s.Gone d ∧ (∀ c, (d, c) ∉ s.vardiff) ∧ ∀ c, (d, c) ∉ s.gridpoolChannels
  | .openChannel d _ _ | .closeChannel d _ | .access d _ => i = .manager ∧ d ∈ s.started
  | .insertGridpoolChannel d _ _ _ | .insertVardiff d _ | .removeStandardChannel d _
  | .release d _ => i = .manager ∧ s.guards i = some d
  | .insertChannel d _ c _ =>
      i = .manager ∧ s.guards i = some d ∧ (s.gridpool = true → (d, c) ∈ s.gridpoolChannels)
  | .removeExtendedChannel d c =>
      i = .manager ∧ s.guards i = some d ∧ (d, .standard, c) ∉ s.channels
  | .removeVardiff d c | .removeGridpoolChannel d c => i = .manager ∧ ∀ k, (d, k, c) ∉ s.channels
  | .vardiffPass _ | .vardiffEntry _ _ _ | .expireVardiff _ _ _ => i = .vardiffLoop
  | .closeIo => i = .manager

/-- How much a turn of task `i` can change under the other tasks. -/
structure Within (i : TaskId) (s s' : SharedMaps) : Prop where
  gridpool : s'.gridpool = s.gridpool
  guards : ∀ j, j ≠ i → s'.guards j = s.guards j
  started : ∀ d ∈ s.started, d ∈ s'.started
  registered : ∀ d ∈ s'.started, d ∈ s.started ∨ i = .connection d
  downstreams : ∀ d ∈ s'.downstreams, d ∈ s.downstreams ∨ d ∉ s.started
  vardiff : ∀ d c, (d, c) ∈ s'.vardiff → (d, c) ∈ s.vardiff ∨ d ∈ s.downstreams
  recorded : ∀ d c, (d, c) ∈ s'.gridpoolChannels → (d, c) ∈ s.gridpoolChannels ∨ d ∈ s.downstreams
  forgotten : ∀ d c, (d, c) ∈ s.gridpoolChannels →
    (d, c) ∈ s'.gridpoolChannels ∨ d ∉ s.downstreams ∨ i = .manager
  channels : ∀ d k c, (d, k, c) ∈ s'.channels → (d, k, c) ∈ s.channels ∨ i = .manager

theorem Within.refl (i : TaskId) (s : SharedMaps) : Within i s s where
  gridpool := rfl
  guards _ _ := rfl
  started _ h := h
  registered _ h := .inl h
  downstreams _ h := .inl h
  vardiff _ _ h := .inl h
  recorded _ _ h := .inl h
  forgotten _ _ h := .inl h
  channels _ _ _ h := .inl h

theorem Gone.within {i : TaskId} {s s' : SharedMaps} {d : DownstreamId} (h : s.Gone d)
    (hw : Within i s s') : s'.Gone d := by
  obtain ⟨hstarted, hgone⟩ := h
  refine ⟨hw.started d hstarted, fun hd => ?_⟩
  rcases hw.downstreams d hd with hd | hnew
  · exact hgone hd
  · exact hnew hstarted

theorem Gone.vardiff {i : TaskId} {s s' : SharedMaps} {d : DownstreamId} (h : s.Gone d)
    (hw : Within i s s') (hv : ∀ c, (d, c) ∉ s.vardiff) (c : ChannelId) : (d, c) ∉ s'.vardiff :=
  fun hc => (hw.vardiff d c hc).elim (hv c) h.2

theorem Gone.gridpoolChannels {i : TaskId} {s s' : SharedMaps} {d : DownstreamId} (h : s.Gone d)
    (hw : Within i s s') (hg : ∀ c, (d, c) ∉ s.gridpoolChannels) (c : ChannelId) :
    (d, c) ∉ s'.gridpoolChannels :=
  fun hc => (hw.recorded d c hc).elim (hg c) h.2

/-- What a task knows stays true under the turns of the others. -/
theorem local_stable {i j : TaskId} {s s' : SharedMaps} {t : Task} (hij : j ≠ i)
    (h : s.Consistent) (hw : Within i s s') (hl : Local j s t) : Local j s' t := by
  have hfresh : ∀ d, j = .connection d → d ∉ s.started → d ∉ s'.started := by
    intro d hj hd hd'
    rcases hw.registered d hd' with hold | hi
    · exact hd hold
    · exact hij (hj.trans hi.symm)
  have hguard : ∀ d, s.guards j = some d → s'.guards j = some d := fun d hd =>
    (hw.guards j hij).trans hd
  have hchannel : j = .manager → ∀ d k c, (d, k, c) ∉ s.channels → (d, k, c) ∉ s'.channels := by
    intro hj d k c hc hc'
    rcases hw.channels d k c hc' with hold | hi
    · exact hc hold
    · exact hij (hj.trans hi.symm)
  cases t with
  | absent => exact fun d hj => hfresh d hj (hl d hj)
  | idle => exact fun d hj => hw.started d (hl d hj)
  | halted => trivial
  | insertSender d => exact ⟨hl.1, hfresh d hl.1 hl.2⟩
  | insertDownstream d => exact ⟨hl.1, hfresh d hl.1 hl.2⟩
  | removeDownstream d => exact hw.started d hl
  | retainVardiff d => exact hl.within hw
  | retainGridpoolChannels d => exact ⟨hl.1.within hw, hl.1.vardiff hw hl.2⟩
  | removeSender d =>
      obtain ⟨hgone, hv, hg⟩ := hl
      exact ⟨hgone.within hw, hgone.vardiff hw hv, hgone.gridpoolChannels hw hg⟩
  | openChannel d k r => exact ⟨hl.1, hw.started d hl.2⟩
  | closeChannel d c => exact ⟨hl.1, hw.started d hl.2⟩
  | access d error => exact ⟨hl.1, hw.started d hl.2⟩
  | insertGridpoolChannel d k c r => exact ⟨hl.1, hguard d hl.2⟩
  | insertVardiff d c => exact ⟨hl.1, hguard d hl.2⟩
  | removeStandardChannel d c => exact ⟨hl.1, hguard d hl.2⟩
  | release d error => exact ⟨hl.1, hguard d hl.2⟩
  | insertChannel d k c r =>
      obtain ⟨hj, hd, hpayout⟩ := hl
      refine ⟨hj, hguard d hd, fun hgridpool => ?_⟩
      rcases hw.forgotten d c (hpayout (hw.gridpool ▸ hgridpool)) with hold | hgone | hi
      · exact hold
      · exact absurd (h.guards j d hd) hgone
      · exact absurd (hj.trans hi.symm) hij
  | removeExtendedChannel d c => exact ⟨hl.1, hguard d hl.2.1, hchannel hl.1 _ _ _ hl.2.2⟩
  | removeVardiff d c => exact ⟨hl.1, fun k => hchannel hl.1 _ _ _ (hl.2 k)⟩
  | removeGridpoolChannel d c => exact ⟨hl.1, fun k => hchannel hl.1 _ _ _ (hl.2 k)⟩
  | vardiffPass keys => exact hl
  | vardiffEntry d c rest => exact hl
  | expireVardiff d c rest => exact hl
  | closeIo => exact hl

/-! ### One operation

`Valid` says of one operation that the maps stay consistent, the task knows what it needs for the
next one, and the change is within its limits. -/

section Guards

variable {i : TaskId} {s s' : SharedMaps} {d : DownstreamId}

@[simp] theorem lock_guards_self : (s.lock i d).guards i = some d :=
  Function.update_self i _ _

@[simp] theorem unlock_guards_self : (s.unlock i).guards i = none :=
  Function.update_self i _ _

theorem Within.lock (h : Within i s s') : Within i s (s'.lock i d) :=
  { h with guards := fun j hj => (Function.update_of_ne hj _ _).trans (h.guards j hj) }

theorem Within.unlock (h : Within i s s') : Within i s (s'.unlock i) :=
  { h with guards := fun j hj => (Function.update_of_ne hj _ _).trans (h.guards j hj) }

theorem Consistent.lock (h : s.Consistent) (hi : ∀ d, i ≠ .connection d) (hd : d ∈ s.downstreams) :
    (s.lock i d).Consistent :=
  { h with
    guards := by
      intro j d' hj
      by_cases hji : j = i
      · subst hji
        obtain rfl := Option.some.inj (lock_guards_self.symm.trans hj)
        exact hd
      · exact h.guards j d' ((Function.update_of_ne hji _ _).symm.trans hj)
    holders := fun d' => (Function.update_of_ne (hi d').symm _ _).trans (h.holders d') }

theorem Consistent.unlock (h : s.Consistent) : (s.unlock i).Consistent :=
  { h with
    guards := by
      intro j d' hj
      by_cases hji : j = i
      · subst hji
        cases (unlock_guards_self (s := s)).symm.trans hj
      · exact h.guards j d' ((Function.update_of_ne hji _ _).symm.trans hj)
    holders := by
      intro d'
      by_cases hi : .connection d' = i
      · subst hi
        exact Function.update_self _ _ _
      · exact (Function.update_of_ne hi _ _).trans (h.holders d') }

/-- A held entry is held by the manager or by the vardiff loop. -/
theorem Consistent.held (h : s.Consistent) (hi : s.guards i = some d) : s.Held d := by
  cases i with
  | manager => exact .inl hi
  | vardiffLoop => exact .inr hi
  | connection d' => cases (h.holders d').symm.trans hi

end Guards

/-- The obligations of one turn. -/
structure Valid (i : TaskId) (s : SharedMaps) (r : SharedMaps × Task) : Prop where
  consistent : r.1.Consistent
  own : Local i r.1 r.2
  within : Within i s r.1

theorem local_finish {s : SharedMaps} {d : DownstreamId} (hd : d ∈ s.started)
    (error : Option Failure) : Local .manager s (.finish d error) := by
  rcases error with _ | _ | _
  · exact nofun
  · exact hd
  · exact rfl

section Operations

variable {i : TaskId} {s : SharedMaps} {d : DownstreamId} {c : ChannelId}

theorem valid_insertDownstream (h : s.Consistent) (hl : Local i s (.insertDownstream d)) :
    Valid i s (next i s (.insertDownstream d)) := by
  obtain ⟨hi, hfresh⟩ := hl
  refine ⟨{ h with guards := ?_, started := ?_, channels := ?_, removed := ?_, payouts := ?_ }, ?_,
    ?_⟩
  · exact fun j d' hj => Finset.mem_insert_of_mem (h.guards j d' hj)
  · exact fun d' hd' => Finset.insert_subset_insert d h.started hd'
  · exact fun d' k c hc => Finset.mem_insert_of_mem (h.channels d' k c hc)
  · intro d' hd'
    obtain ⟨hstarted, hgone, hrest⟩ := h.removed d' hd'
    refine ⟨Finset.mem_insert_of_mem hstarted, fun hmem => ?_, hrest⟩
    rcases Finset.mem_insert.mp hmem with rfl | hmem
    · exact hfresh hstarted
    · exact hgone hmem
  · intro hgridpool d' hd' k c hc
    rcases Finset.mem_insert.mp hd' with rfl | hd'
    · exact absurd (h.channels _ k c hc) hfresh
    · exact h.payouts hgridpool d' hd' k c hc
  · rintro d' hi'
    cases hi.symm.trans hi'
    exact Finset.mem_insert_self d s.started
  · refine { Within.refl i s with started := ?_, registered := ?_, downstreams := ?_ }
    · exact fun d' hd' => Finset.mem_insert_of_mem hd'
    · intro d' hd'
      rcases Finset.mem_insert.mp hd' with rfl | hd'
      · exact .inr hi
      · exact .inl hd'
    · intro d' hd'
      rcases Finset.mem_insert.mp hd' with rfl | hd'
      · exact .inr hfresh
      · exact .inl hd'

theorem valid_insertSender (h : s.Consistent) (hl : Local i s (.insertSender d)) :
    Valid i s (next i s (.insertSender d)) := by
  refine ⟨{ h with removed := ?_ }, hl, { Within.refl i s with }⟩
  intro d' hd'
  obtain ⟨hstarted, hgone, hv, hg, hsender⟩ := h.removed d' hd'
  refine ⟨hstarted, hgone, hv, hg, fun hmem => ?_⟩
  rcases Finset.mem_insert.mp hmem with rfl | hmem
  · exact hl.2 hstarted
  · exact hsender hmem

/-- A downstream is taken out first, and its entries in the other maps afterwards. -/
theorem valid_removeDownstream (h : s.Consistent) (hl : Local i s (.removeDownstream d)) :
    Valid i s (next i s (.removeDownstream d)) := by
  unfold next
  dsimp only
  split
  · exact ⟨h, hl, .refl i s⟩
  · rename_i hheld
    refine ⟨{ h with guards := ?_, started := ?_, removed := ?_, payouts := ?_ }, ?_, ?_⟩
    · intro j d' hj
      refine Finset.mem_erase.mpr ⟨?_, h.guards j d' hj⟩
      rintro rfl
      exact hheld (h.held hj)
    · exact fun d' hd' => h.started d' (Finset.mem_of_mem_erase hd')
    · intro d' hd'
      obtain ⟨hstarted, hgone, hrest⟩ := h.removed d' hd'
      exact ⟨hstarted, fun hmem => hgone (Finset.mem_of_mem_erase hmem), hrest⟩
    · exact fun hgridpool d' hd' => h.payouts hgridpool d' (Finset.mem_of_mem_erase hd')
    · exact ⟨hl, Finset.notMem_erase d s.downstreams⟩
    · exact { Within.refl i s with
        downstreams := fun d' hd' => .inl (Finset.mem_of_mem_erase hd') }

theorem valid_retainVardiff (h : s.Consistent) (hl : Local i s (.retainVardiff d)) :
    Valid i s (next i s (.retainVardiff d)) := by
  refine ⟨{ h with removed := ?_ }, ⟨hl, fun c hc => ?_⟩,
    { Within.refl i s with vardiff := fun d' c hc => .inl (Finset.mem_of_mem_filter _ hc) }⟩
  · intro d' hd'
    obtain ⟨hstarted, hgone, hv, hrest⟩ := h.removed d' hd'
    exact ⟨hstarted, hgone, fun c hc => hv c (Finset.mem_of_mem_filter _ hc), hrest⟩
  · exact (Finset.mem_filter.mp hc).2 rfl

theorem valid_retainGridpoolChannels (h : s.Consistent)
    (hl : Local i s (.retainGridpoolChannels d)) :
    Valid i s (next i s (.retainGridpoolChannels d)) := by
  obtain ⟨hgone, hv⟩ := hl
  have hkept : ∀ d' c, d' ≠ d → (d', c) ∈ s.gridpoolChannels →
      (d', c) ∈ s.gridpoolChannels.filter (·.1 ≠ d) := fun d' c hne hc =>
    Finset.mem_filter.mpr ⟨hc, hne⟩
  refine ⟨{ h with removed := ?_, payouts := ?_ }, ⟨hgone, hv, fun c hc => ?_⟩,
    { Within.refl i s with recorded := ?_, forgotten := ?_ }⟩
  · intro d' hd'
    obtain ⟨hstarted, hgone', hv', hg', hrest⟩ := h.removed d' hd'
    exact ⟨hstarted, hgone', hv', fun c hc => hg' c (Finset.mem_of_mem_filter _ hc), hrest⟩
  · intro hgridpool d' hd' k c hc
    refine hkept d' c ?_ (h.payouts hgridpool d' hd' k c hc)
    rintro rfl
    exact hgone.2 hd'
  · exact (Finset.mem_filter.mp hc).2 rfl
  · exact fun d' c hc => .inl (Finset.mem_of_mem_filter _ hc)
  · intro d' c hc
    by_cases hd' : d' = d
    · exact .inr (.inl (hd' ▸ hgone.2))
    · exact .inl (hkept d' c hd' hc)

theorem valid_removeSender (h : s.Consistent) (hl : Local i s (.removeSender d)) :
    Valid i s (next i s (.removeSender d)) := by
  obtain ⟨⟨hstarted, hgone⟩, hv, hg⟩ := hl
  refine ⟨{ h with removed := ?_ }, ?_, { Within.refl i s with }⟩
  · intro d' hd'
    rcases Finset.mem_insert.mp hd' with rfl | hd'
    · exact ⟨hstarted, hgone, hv, hg, Finset.notMem_erase _ _⟩
    · obtain ⟨hstarted', hgone', hv', hg', hsender⟩ := h.removed d' hd'
      exact ⟨hstarted', hgone', hv', hg', fun hmem => hsender (Finset.mem_of_mem_erase hmem)⟩
  · unfold next
    dsimp only
    split
    · rename_i hi
      rintro d' hi'
      cases hi.symm.trans hi'
    · trivial

/-- A handler that needs the entry of its downstream disconnects it when there is none. -/
theorem valid_missing (h : s.Consistent) (hd : d ∈ s.started) :
    Valid i s (s, .removeDownstream d) :=
  ⟨h, hd, .refl i s⟩

theorem valid_openChannel {k : ChannelKind} {r : OpenResult} (h : s.Consistent)
    (hl : Local i s (.openChannel d k r)) : Valid i s (next i s (.openChannel d k r)) := by
  obtain ⟨rfl, hstarted⟩ := hl
  have htaken : (s.takeChannelId d).Consistent := { h with }
  have hwithin : Within .manager s (s.takeChannelId d) := { Within.refl .manager s with }
  have hlocked : ∀ hd : d ∈ s.downstreams, ∀ c, Valid .manager s
      ((s.takeChannelId d).lock .manager d, .insertGridpoolChannel d k c r) := fun hd c =>
    ⟨htaken.lock nofun hd, ⟨rfl, lock_guards_self⟩, hwithin.lock⟩
  unfold next
  dsimp only
  split
  · rename_i hd
    cases r with
    | refused allocated error =>
        cases allocated with
        | true => exact ⟨htaken, local_finish hstarted error, hwithin⟩
        | false => exact ⟨h, local_finish hstarted error, .refl _ s⟩
    | afterPayout error => exact hlocked hd _
    | afterChannel error => exact hlocked hd _
    | opened => exact hlocked hd _
  · exact valid_missing h hstarted

/-- Entries may be added for a registered downstream: no removal of it has completed. -/
theorem Consistent.ne_of_removed (h : s.Consistent) (hd : d ∈ s.downstreams) {d' : DownstreamId}
    (hd' : d' ∈ s.removed) : d' ≠ d := by
  rintro rfl
  exact (h.removed _ hd').2.1 hd

/-- The maps after the payout of a channel is recorded, which it is in GridPool mode only. -/
def withPayout (s : SharedMaps) (d : DownstreamId) (c : ChannelId) : SharedMaps :=
  if s.gridpool then { s with gridpoolChannels := insert (d, c) s.gridpoolChannels } else s

@[simp] theorem withPayout_guards (s : SharedMaps) (d : DownstreamId) (c : ChannelId) :
    (s.withPayout d c).guards = s.guards := by
  unfold withPayout
  split <;> rfl

@[simp] theorem withPayout_started (s : SharedMaps) (d : DownstreamId) (c : ChannelId) :
    (s.withPayout d c).started = s.started := by
  unfold withPayout
  split <;> rfl

theorem withPayout_recorded (s : SharedMaps) (d : DownstreamId) (c : ChannelId)
    (h : (s.withPayout d c).gridpool = true) : (d, c) ∈ (s.withPayout d c).gridpoolChannels := by
  unfold withPayout at h ⊢
  split
  · exact Finset.mem_insert_self _ _
  · rename_i hoff
    rw [if_neg hoff] at h
    exact absurd h hoff

theorem Consistent.withPayout (h : s.Consistent) (hd : d ∈ s.downstreams) (c : ChannelId) :
    (s.withPayout d c).Consistent := by
  unfold SharedMaps.withPayout
  split
  · rename_i hgridpool
    refine { h with removed := ?_, payouts := ?_ }
    · intro d' hd'
      obtain ⟨hstarted, hgone, hv, hg, hrest⟩ := h.removed d' hd'
      refine ⟨hstarted, hgone, hv, fun c' hc' => ?_, hrest⟩
      rcases Finset.mem_insert.mp hc' with heq | hc'
      · exact h.ne_of_removed hd hd' (Prod.mk.inj heq).1
      · exact hg c' hc'
    · exact fun _ d' hd' k c hc => Finset.mem_insert_of_mem (h.payouts hgridpool d' hd' k c hc)
  · exact h

theorem Within.withPayout (i : TaskId) (hd : d ∈ s.downstreams) (c : ChannelId) :
    Within i s (s.withPayout d c) := by
  unfold SharedMaps.withPayout
  split
  · refine { Within.refl i s with recorded := ?_, forgotten := ?_ }
    · intro d' c' hc'
      rcases Finset.mem_insert.mp hc' with heq | hc'
      · exact .inr ((Prod.mk.inj heq).1 ▸ hd)
      · exact .inl hc'
    · exact fun d' c' hc' => .inl (Finset.mem_insert_of_mem hc')
  · exact .refl i s

theorem valid_insertGridpoolChannel {k : ChannelKind} {r : OpenResult} (h : s.Consistent)
    (hl : Local i s (.insertGridpoolChannel d k c r)) :
    Valid i s (next i s (.insertGridpoolChannel d k c r)) := by
  obtain ⟨rfl, hguard⟩ := hl
  have hd := h.guards _ d hguard
  have hconsistent := h.withPayout hd c
  have hwithin := Within.withPayout .manager hd c
  have hguard' : (s.withPayout d c).guards .manager = some d := by rw [withPayout_guards, hguard]
  have hkept : Valid .manager s (s.withPayout d c, .insertChannel d k c r) :=
    ⟨hconsistent, ⟨rfl, hguard', withPayout_recorded s d c⟩, hwithin⟩
  cases r with
  | afterPayout error =>
      have hstarted : d ∈ (s.withPayout d c).started := by
        rw [withPayout_started]
        exact h.started d hd
      have hown := local_finish (s := (s.withPayout d c).unlock .manager) hstarted (some error)
      exact ⟨hconsistent.unlock, hown, hwithin.unlock⟩
  | refused allocated error => exact hkept
  | afterChannel error => exact hkept
  | opened => exact hkept

/-- A channel is put in its map, after its payout. -/
theorem Consistent.withChannel {k : ChannelKind} (h : s.Consistent) (hd : d ∈ s.downstreams)
    (hpayout : s.gridpool = true → (d, c) ∈ s.gridpoolChannels) :
    { s with channels := insert (d, k, c) s.channels }.Consistent := by
  refine { h with channels := ?_, payouts := ?_ }
  · intro d' k' c' hc'
    rcases Finset.mem_insert.mp hc' with heq | hc'
    · exact (Prod.mk.inj heq).1 ▸ h.started d hd
    · exact h.channels d' k' c' hc'
  · intro hgridpool d' hd' k' c' hc'
    rcases Finset.mem_insert.mp hc' with heq | hc'
    · cases heq
      exact hpayout hgridpool
    · exact h.payouts hgridpool d' hd' k' c' hc'

theorem Within.withChannel (s : SharedMaps) (key : DownstreamId × ChannelKind × ChannelId) :
    Within .manager s { s with channels := insert key s.channels } :=
  { Within.refl .manager s with channels := fun _ _ _ _ => .inr rfl }

theorem valid_insertChannel {k : ChannelKind} {r : OpenResult} (h : s.Consistent)
    (hl : Local i s (.insertChannel d k c r)) : Valid i s (next i s (.insertChannel d k c r)) := by
  obtain ⟨rfl, hguard, hpayout⟩ := hl
  have hd := h.guards _ d hguard
  have hconsistent := h.withChannel (k := k) hd hpayout
  have hwithin := Within.withChannel s (d, k, c)
  have hkept : Valid .manager s
      ({ s with channels := insert (d, k, c) s.channels }, .insertVardiff d c) :=
    ⟨hconsistent, ⟨rfl, hguard⟩, hwithin⟩
  cases r with
  | afterChannel error =>
      have hown := local_finish (s := { s with
        channels := insert (d, k, c) s.channels }.unlock .manager) (h.started d hd) (some error)
      exact ⟨hconsistent.unlock, hown, hwithin.unlock⟩
  | refused allocated error => exact hkept
  | afterPayout error => exact hkept
  | opened => exact hkept

/-- A channel of a connection that is still there gets its vardiff state. -/
theorem Consistent.withVardiff (h : s.Consistent) (hd : d ∈ s.downstreams) (c : ChannelId) :
    { s with vardiff := insert (d, c) s.vardiff }.Consistent := by
  refine { h with removed := ?_ }
  intro d' hd'
  obtain ⟨hstarted, hgone, hv, hrest⟩ := h.removed d' hd'
  refine ⟨hstarted, hgone, fun c' hc' => ?_, hrest⟩
  rcases Finset.mem_insert.mp hc' with heq | hc'
  · exact h.ne_of_removed hd hd' (Prod.mk.inj heq).1
  · exact hv c' hc'

theorem Within.withVardiff (i : TaskId) (hd : d ∈ s.downstreams) (c : ChannelId) :
    Within i s { s with vardiff := insert (d, c) s.vardiff } := by
  refine { Within.refl i s with vardiff := ?_ }
  intro d' c' hc'
  rcases Finset.mem_insert.mp hc' with heq | hc'
  · exact .inr ((Prod.mk.inj heq).1 ▸ hd)
  · exact .inl hc'

theorem valid_insertVardiff (h : s.Consistent) (hl : Local i s (.insertVardiff d c)) :
    Valid i s (next i s (.insertVardiff d c)) := by
  obtain ⟨rfl, hguard⟩ := hl
  have hd := h.guards _ d hguard
  exact ⟨(h.withVardiff hd c).unlock, nofun, (Within.withVardiff .manager hd c).unlock⟩

theorem valid_closeChannel (h : s.Consistent) (hl : Local i s (.closeChannel d c)) :
    Valid i s (next i s (.closeChannel d c)) := by
  obtain ⟨rfl, hstarted⟩ := hl
  unfold next
  dsimp only
  split
  · rename_i hd
    exact ⟨h.lock nofun hd, ⟨rfl, lock_guards_self⟩, (Within.refl .manager s).lock⟩
  · exact valid_missing h hstarted

theorem valid_access {error : Option Failure} (h : s.Consistent)
    (hl : Local i s (.access d error)) : Valid i s (next i s (.access d error)) := by
  obtain ⟨rfl, hstarted⟩ := hl
  unfold next
  dsimp only
  split
  · rename_i hd
    exact ⟨h.lock nofun hd, ⟨rfl, lock_guards_self⟩, (Within.refl .manager s).lock⟩
  · exact valid_missing h hstarted

theorem valid_release {error : Option Failure} (h : s.Consistent)
    (hl : Local i s (.release d error)) : Valid i s (next i s (.release d error)) := by
  obtain ⟨rfl, hguard⟩ := hl
  have hown := local_finish (s := s.unlock .manager) (h.started d (h.guards _ d hguard)) error
  exact ⟨h.unlock, hown, (Within.refl .manager s).unlock⟩

/-- A channel may be taken out of its map at any time. -/
theorem Consistent.eraseChannel (h : s.Consistent) (key : DownstreamId × ChannelKind × ChannelId) :
    { s with channels := s.channels.erase key }.Consistent :=
  { h with
    channels := fun d k c hc => h.channels d k c (Finset.mem_of_mem_erase hc)
    payouts := fun hg d hd k c hc => h.payouts hg d hd k c (Finset.mem_of_mem_erase hc) }

theorem Within.eraseChannel (i : TaskId) (s : SharedMaps)
    (key : DownstreamId × ChannelKind × ChannelId) :
    Within i s { s with channels := s.channels.erase key } :=
  { Within.refl i s with channels := fun _ _ _ hc => .inl (Finset.mem_of_mem_erase hc) }

theorem valid_removeStandardChannel (h : s.Consistent)
    (hl : Local i s (.removeStandardChannel d c)) :
    Valid i s (next i s (.removeStandardChannel d c)) :=
  ⟨h.eraseChannel _, ⟨hl.1, hl.2, Finset.notMem_erase _ _⟩, .eraseChannel i s _⟩

theorem valid_removeExtendedChannel (h : s.Consistent)
    (hl : Local i s (.removeExtendedChannel d c)) :
    Valid i s (next i s (.removeExtendedChannel d c)) := by
  obtain ⟨hi, hguard, hstandard⟩ := hl
  refine ⟨(h.eraseChannel _).unlock, ⟨hi, fun k => ?_⟩, (Within.eraseChannel i s _).unlock⟩
  cases k with
  | standard => exact fun hc => hstandard (Finset.mem_of_mem_erase hc)
  | extended => exact Finset.notMem_erase _ _

/-- An entry of `vardiff` may be taken out at any time. -/
theorem Consistent.eraseVardiff (h : s.Consistent) (key : DownstreamId × ChannelId) :
    { s with vardiff := s.vardiff.erase key }.Consistent := by
  refine { h with removed := ?_ }
  intro d' hd'
  obtain ⟨hstarted, hgone, hv, hrest⟩ := h.removed d' hd'
  exact ⟨hstarted, hgone, fun c hc => hv c (Finset.mem_of_mem_erase hc), hrest⟩

theorem Within.eraseVardiff (i : TaskId) (s : SharedMaps) (key : DownstreamId × ChannelId) :
    Within i s { s with vardiff := s.vardiff.erase key } :=
  { Within.refl i s with vardiff := fun _ _ hc => .inl (Finset.mem_of_mem_erase hc) }

theorem valid_removeVardiff (h : s.Consistent) (hl : Local i s (.removeVardiff d c)) :
    Valid i s (next i s (.removeVardiff d c)) :=
  ⟨h.eraseVardiff _, hl, .eraseVardiff i s _⟩

theorem valid_removeGridpoolChannel (h : s.Consistent)
    (hl : Local i s (.removeGridpoolChannel d c)) :
    Valid i s (next i s (.removeGridpoolChannel d c)) := by
  obtain ⟨rfl, hclosed⟩ := hl
  refine ⟨{ h with removed := ?_, payouts := ?_ }, nofun,
    { Within.refl .manager s with recorded := ?_, forgotten := fun _ _ _ => .inr (.inr rfl) }⟩
  · intro d' hd'
    obtain ⟨hstarted, hgone, hv, hg, hrest⟩ := h.removed d' hd'
    exact ⟨hstarted, hgone, hv, fun c' hc' => hg c' (Finset.mem_of_mem_erase hc'), hrest⟩
  · intro hgridpool d' hd' k c' hc'
    refine Finset.mem_erase.mpr ⟨?_, h.payouts hgridpool d' hd' k c' hc'⟩
    rintro ⟨⟩
    exact hclosed k hc'
  · exact fun d' c' hc' => .inl (Finset.mem_of_mem_erase hc')

theorem valid_vardiffPass {keys : List (DownstreamId × ChannelId)} (h : s.Consistent)
    (hl : Local i s (.vardiffPass keys)) : Valid i s (next i s (.vardiffPass keys)) := by
  obtain rfl : i = .vardiffLoop := hl
  cases keys with
  | nil => exact ⟨h, nofun, .refl _ s⟩
  | cons key rest =>
      obtain ⟨d, c⟩ := key
      unfold next
      dsimp only
      split
      · rename_i hd
        exact ⟨h.lock nofun hd, rfl, (Within.refl .vardiffLoop s).lock⟩
      · exact ⟨h, rfl, .refl _ s⟩

theorem valid_closeIo (h : s.Consistent) : Valid i s (next i s .closeIo) := by
  refine ⟨{ h with removed := ?_ }, trivial, { Within.refl i s with }⟩
  intro d' hd'
  obtain ⟨hstarted, hgone, hv, hg, -⟩ := h.removed d' hd'
  exact ⟨hstarted, hgone, hv, hg, Finset.notMem_empty d'⟩

theorem valid_next {t : Task} (h : s.Consistent) (hl : Local i s t) : Valid i s (next i s t) := by
  cases t with
  | absent => exact ⟨h, hl, .refl i s⟩
  | idle => exact ⟨h, hl, .refl i s⟩
  | halted => exact ⟨h, hl, .refl i s⟩
  | insertSender d => exact valid_insertSender h hl
  | insertDownstream d => exact valid_insertDownstream h hl
  | removeDownstream d => exact valid_removeDownstream h hl
  | retainVardiff d => exact valid_retainVardiff h hl
  | retainGridpoolChannels d => exact valid_retainGridpoolChannels h hl
  | removeSender d => exact valid_removeSender h hl
  | openChannel d k r => exact valid_openChannel h hl
  | insertGridpoolChannel d k c r => exact valid_insertGridpoolChannel h hl
  | insertChannel d k c r => exact valid_insertChannel h hl
  | insertVardiff d c => exact valid_insertVardiff h hl
  | closeChannel d c => exact valid_closeChannel h hl
  | removeStandardChannel d c => exact valid_removeStandardChannel h hl
  | removeExtendedChannel d c => exact valid_removeExtendedChannel h hl
  | removeVardiff d c => exact valid_removeVardiff h hl
  | removeGridpoolChannel d c => exact valid_removeGridpoolChannel h hl
  | access d error => exact valid_access h hl
  | release d error => exact valid_release h hl
  | vardiffPass keys => exact valid_vardiffPass h hl
  | vardiffEntry d c rest => exact ⟨h.unlock, hl, (Within.refl i s).unlock⟩
  | expireVardiff d c rest => exact ⟨h.eraseVardiff _, hl, .eraseVardiff i s _⟩
  | closeIo => exact valid_closeIo h

end Operations

theorem valid_op {i : TaskId} {s : SharedMaps} {t : Task} (input : Input) (h : s.Consistent)
    (hl : Local i s t) : Valid i s (op i input s t) := by
  unfold op
  split
  · rename_i bootstrapped d
    split
    · refine ⟨{ h with }, ?_, { Within.refl _ s with }⟩
      split
      · exact ⟨rfl, hl d rfl⟩
      · trivial
    · exact ⟨h, hl, .refl _ s⟩
  · rename_i d
    exact ⟨h, hl d rfl, .refl _ s⟩
  · rename_i handler
    refine ⟨h, ?_, .refl _ s⟩
    dsimp only
    split
    · rename_i hstarted
      cases handler with
      | openChannel d k r => exact ⟨rfl, hstarted⟩
      | closeChannel d c => exact ⟨rfl, hstarted⟩
      | access d error => exact ⟨rfl, hstarted⟩
    · exact nofun
  · exact ⟨h, rfl, .refl _ s⟩
  · exact valid_next h hl
  · exact ⟨h, hl, .refl _ s⟩

theorem rules : Tasks.Rules op Consistent Local Within where
  shared := fun _ input _ _ h hl => (valid_op input h hl).consistent
  own := fun _ input _ _ h hl => (valid_op input h hl).own
  guarantee := fun _ input _ _ h hl => (valid_op input h hl).within
  stable := fun _ _ _ _ _ hij h hw hl => local_stable hij h hw hl

theorem sound_start (gridpool : Bool) : Tasks.Sound Consistent Local (start gridpool) where
  shared :=
    { guards := nofun
      holders := fun _ => rfl
      started := nofun
      channels := nofun
      removed := nofun
      payouts := nofun }
  tasks := by
    intro i
    cases i with
    | manager => exact nofun
    | vardiffLoop => exact nofun
    | connection d => exact fun _ _ => Finset.notMem_empty _

end SharedMaps

/-! ### The result -/

/-- In every interleaving, no map has an entry for a downstream once a `remove_downstream` for it
has completed, and in GridPool mode every channel of a registered downstream has a payout. -/
theorem maps_consistent (gridpool : Bool) (turns : List (TaskId × Input)) :
    let s := (exec (Tasks.step SharedMaps.op) (SharedMaps.start gridpool) turns).shared
    (∀ d ∈ s.removed, s.Cleared d) ∧ s.PayoutsRecorded := by
  have h := (SharedMaps.rules.exec (SharedMaps.sound_start gridpool) turns).shared
  exact ⟨fun d hd => (h.removed d hd).2, h.payouts⟩

/-- A connection ends while the manager opens its first channel: the removal waits for the guard,
and then takes the new entries with it. -/
example :
    let opening : List (TaskId × Input) :=
      [(.connection 1, .accept true), (.connection 1, .next), (.connection 1, .next),
        (.manager, .handle (.openChannel 1 .extended .opened)), (.manager, .next),
        (.connection 1, .exit), (.connection 1, .next), (.manager, .next), (.manager, .next),
        (.connection 1, .next), (.manager, .next)]
    let removal : List (TaskId × Input) := List.replicate 4 (.connection 1, .next)
    let run := fun turns => (exec (Tasks.step SharedMaps.op) (SharedMaps.start true) turns).shared
    (run opening).vardiff = {(1, 2)} ∧ (run opening).downstreams = {1} ∧
      (run (opening ++ removal)).vardiff = ∅ ∧ (run (opening ++ removal)).removed = {1} := by
  decide +kernel

end GridPoolSv2.Pool
