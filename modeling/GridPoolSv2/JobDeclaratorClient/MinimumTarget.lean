import GridPoolSv2.JobDeclaratorClient.ChannelManager
import GridPoolSv2.Lib.ByteOrder
import Mathlib.Order.Fin.Basic

/-!
# JobDeclaratorClient.MinimumTarget: the target the pool is told

A change of a downstream's hashrate changes the target of its channel, and the client then
tells the pool about all of its channels at once: the sum of the hashrates and the smallest
target. Two functions do this.

* `run_vardiff` runs every minute over all channels, and speaks up when a target has changed.
  It compares the targets as **byte arrays**, in their little-endian layout.
* `handle_update_channel` changes the one channel a downstream asked for. It compares the
  targets as **numbers**.

Each of them is one loop over the channels (`vardiffTarget`, `updateTarget`) between a step that
changes channels and a message. The second loop finds the smallest target
(`updateTarget_eq`), the first one finds it when its bytes come first too
(`vardiffTarget_eq_iff`).
-/

namespace GridPoolSv2.JobDeclaratorClient

open ByteOrder
open Function (update)
open Visit Handler

/-- `bitcoin::Target`. -/
abbrev Target := Fin (2 ^ 256)

/-- `Target::to_le_bytes`. -/
def Target.toLeBytes (t : Target) : Word 32 :=
  .ofNumber 32 t

/-- `Target::from_le_bytes`. -/
def Target.fromLeBytes (bytes : Word 32) : Target :=
  ⟨bytes.number, bytes.number_lt⟩

theorem Target.fromLeBytes_toLeBytes (t : Target) : fromLeBytes t.toLeBytes = t :=
  Fin.ext (Word.number_ofNumber t.isLt)

/-- The largest target is the largest in both orders. -/
theorem Target.toLeBytes_top : Target.toLeBytes ⊤ = ⊤ :=
  Word.ofNumber_max 32

theorem Target.fromLeBytes_top : Target.fromLeBytes ⊤ = ⊤ := by
  rw [← Target.toLeBytes_top, Target.fromLeBytes_toLeBytes]

/-- `UpdateChannel`, of a downstream or for the pool. -/
structure UpdateChannel (Hashrate : Type) where
  channelId : ChannelId
  nominalHashRate : Hashrate
  maximumTarget : Word 32
  deriving DecidableEq

/-- The messages of the two functions. -/
inductive TargetNote (Hashrate : Type) where
  | setTarget (downstream : DownstreamId) (channelId : ChannelId) (maximumTarget : Word 32)
  | updateChannelError (downstream : DownstreamId) (channelId : ChannelId) (code : String)
  | updateChannel (message : UpdateChannel Hashrate)
  deriving DecidableEq

/-- The errors of `update_channel`. -/
inductive UpdateError where
  | invalidNominalHashrate (code : String)
  | other

/-- `"internal-error"`, where an error has no code of its own. -/
def UpdateError.code : UpdateError → String
  | .invalidNominalHashrate code => code
  | .other => "internal-error"

/-- The parts of `channels_sv2` about hashrates and targets. -/
structure HashrateOps (api : ChannelsSv2) where
  Hashrate : Type
  zero : Hashrate
  add : Hashrate → Hashrate → Hashrate
  nominalHashrate : api.Channel → Hashrate
  target : api.Channel → Target
  setStableHashrate : api.Channel → Bool → api.Channel
  /-- `update_channel`, given the maximum target a downstream asked for. -/
  updateChannel : api.Channel → Hashrate → Option Target → api.Channel × Except UpdateError Unit
  setUpstreamHashrate : api.Upstream → Hashrate → api.Upstream

namespace ChannelManager

variable {api : ChannelsSv2} (ops : HashrateOps api) (s : ChannelManager api)

/-- What the two functions return. -/
abbrev Retargeted := Outcome (ChannelManager api) (TargetNote ops.Hashrate) JDCError

/-! ### The loop over all channels -/

/-- The channels in the order of the loop: downstream by downstream, standard channels first. -/
def allChannels : List api.Channel :=
  s.downstream.entries.flatMap fun e =>
    (e.2.channels .standard).entries.map (·.2) ++ (e.2.channels .extended).entries.map (·.2)

/-- `downstream_hashrate`. -/
def downstreamHashrate : ops.Hashrate :=
  s.allChannels.foldl (fun sum ch => ops.add sum (ops.nominalHashrate ch)) ops.zero

/-- `min_target` of `run_vardiff`, which starts with `[0xff; 32]`. -/
def vardiffTarget : Word 32 :=
  s.allChannels.foldl (fun least ch => min (ops.target ch).toLeBytes least) ⊤

/-- `min_target` of `handle_update_channel`, which starts with the same bytes. -/
def updateTarget : Target :=
  s.allChannels.foldl (fun least ch => min (ops.target ch) least) (.fromLeBytes ⊤)

/-- The message to the pool, if there is an upstream channel. -/
def announceTarget (maximumTarget : Word 32) (s : ChannelManager api) : Retargeted ops :=
  match s.upstreamChannel with
  | none => .keep s
  | some u =>
      let hashrate := s.downstreamHashrate ops
      say [.updateChannel ⟨api.upstreamChannelId u, hashrate, maximumTarget⟩]
        { s with upstreamChannel := some (ops.setUpstreamHashrate u hashrate) }

/-! ### `run_vardiff` -/

/-- `run_vardiff_on_standard_channel` and `run_vardiff_on_extended_channel`, given what
`try_vardiff` answers: an error, no change, or a new hashrate. -/
def runVardiffOnChannel (tried : api.Channel → Option (Option ops.Hashrate)) (k : ChannelKind)
    (d : DownstreamId) (c : ChannelId) (s : ChannelManager api) : Retargeted ops :=
  match s.channel? d k c with
  | none => .keep s
  | some ch =>
      match tried ch with
      | none => .keep s
      | some none => .keep (s.setChannel d k c (ops.setStableHashrate ch true))
      | some (some hashrate) =>
          let r := ops.updateChannel (ops.setStableHashrate ch false) hashrate none
          let s := s.setChannel d k c r.1
          match r.2 with
          | .ok () => say [.setTarget d c (ops.target r.1).toLeBytes] s
          | .error _ => .keep s

/-- What `try_vardiff` answers for the channels of a round. -/
abbrev Tries := DownstreamId → ChannelKind → ChannelId → api.Channel → Option (Option ops.Hashrate)

/-- The body of the loop over `vardiff`. -/
def vardiffEntry (tries : Tries ops) (key : DownstreamId × ChannelId) (s : ChannelManager api) :
    Retargeted ops :=
  match s.downstream.lookup key.1 with
  | none => .keep { s with vardiff := update s.vardiff key false }
  | some _ =>
      if s.vardiff key then
        (runVardiffOnChannel ops (tries key.1 .standard key.2) .standard key.1 key.2 s).andThen
          (runVardiffOnChannel ops (tries key.1 .extended key.2) .extended key.1 key.2)
      else .keep s

/-- The first half of `run_vardiff`, for the keys of `vardiff` in their order. -/
def adjustChannels (tries : Tries ops) (keys : List (DownstreamId × ChannelId))
    (s : ChannelManager api) : Retargeted ops :=
  forEach (vardiffEntry ops tries) keys s

/-- `run_vardiff`. The pool hears of it when a downstream does. -/
def runVardiff (tries : Tries ops) (keys : List (DownstreamId × ChannelId))
    (s : ChannelManager api) : Retargeted ops :=
  let adjusted := adjustChannels ops tries keys s
  if adjusted.notes.isEmpty then adjusted
  else adjusted.andThen fun s => s.announceTarget ops (s.vardiffTarget ops)

/-! ### `handle_update_channel` -/

/-- The update of one channel. A refusal without a code is logged, and the target is sent all the
same. -/
def applyUpdate (d : DownstreamId) (k : ChannelKind) (msg : UpdateChannel ops.Hashrate)
    (ch : api.Channel) (s : ChannelManager api) : Retargeted ops :=
  let r := ops.updateChannel ch msg.nominalHashRate (some (.fromLeBytes msg.maximumTarget))
  let s := s.setChannel d k msg.channelId r.1
  match r.2 with
  | .ok () => say [.setTarget d msg.channelId (ops.target r.1).toLeBytes] s
  | .error e =>
      if e.code ≠ UpdateError.other.code then
        say [.updateChannelError d msg.channelId e.code] s
      else say [.setTarget d msg.channelId (ops.target r.1).toLeBytes] s

/-- The first half of `handle_update_channel`. -/
def updateOneChannel (d : DownstreamId) (msg : UpdateChannel ops.Hashrate)
    (s : ChannelManager api) : Retargeted ops :=
  match s.downstream.lookup d with
  | none => .fail s (.disconnect (.downstreamNotFound d) d)
  | some _ =>
      match s.channel? d .standard msg.channelId with
      | some ch => s.applyUpdate ops d .standard msg ch
      | none =>
          match s.channel? d .extended msg.channelId with
          | some ch => s.applyUpdate ops d .extended msg ch
          | none => say [.updateChannelError d msg.channelId "invalid-channel-id"] s

/-- `handle_update_channel`. -/
def handleUpdateChannel (d : DownstreamId) (msg : UpdateChannel ops.Hashrate)
    (s : ChannelManager api) : Retargeted ops :=
  (updateOneChannel ops d msg s).andThen fun s =>
    s.announceTarget ops (s.updateTarget ops).toLeBytes

/-! ### The smallest target

What the messages ought to carry. The bytes of the first loop are compared from the least
significant one. -/

/-- The targets of the downstream channels. -/
def targets : Multiset Target :=
  ↑(s.allChannels.map ops.target)

/-- The smallest of them, and the greatest target of all where there is no channel. -/
def minimumTarget : Target :=
  (s.targets ops).inf

/-- The bytes of the smallest target come first among the bytes of all of them. -/
def BytesAgree : Prop :=
  ∀ t ∈ s.targets ops, (s.minimumTarget ops).toLeBytes ≤ t.toLeBytes

/-- The loop over numbers. -/
theorem updateTarget_eq : s.updateTarget ops = s.minimumTarget ops := by
  unfold updateTarget
  rw [foldl_min_eq_inf, Target.fromLeBytes_top, top_inf_eq]
  rfl

/-- The loop over byte arrays finds the first array. -/
theorem vardiffTarget_eq :
    s.vardiffTarget ops = ((s.targets ops).map Target.toLeBytes).inf := by
  unfold vardiffTarget
  rw [foldl_min_eq_inf fun ch => (ops.target ch).toLeBytes, top_inf_eq, targets, Multiset.map_coe,
    List.map_map]
  rfl

/-- The first loop finds the smallest target exactly if its bytes are the smallest. -/
theorem vardiffTarget_eq_iff :
    s.vardiffTarget ops = (s.minimumTarget ops).toLeBytes ↔ s.BytesAgree ops := by
  rw [vardiffTarget_eq]
  exact map_inf_iff Target.toLeBytes_top (s.targets ops)

/-! ### The messages -/

variable {ops s}

/-- A message to the pool, after messages that are not for the pool. -/
theorem announced_of_mem {maximumTarget : ChannelManager api → Word 32} {o : Retargeted ops}
    (hquiet : ∀ m, .updateChannel m ∉ o.notes) {m : UpdateChannel ops.Hashrate}
    (h : .updateChannel m ∈ (o.andThen fun s => s.announceTarget ops (maximumTarget s)).notes) :
    m.maximumTarget = maximumTarget o.value := by
  cases he : o.error with
  | some e =>
      rw [Outcome.andThen_eq_of_error he] at h
      exact absurd h (hquiet m)
  | none =>
      rw [Outcome.andThen_eq_of_ok he] at h
      rcases List.mem_append.mp h with h | h
      · exact absurd h (hquiet m)
      · unfold announceTarget at h
        split at h
        · cases h
        · obtain heq := List.mem_singleton.mp h
          rw [TargetNote.updateChannel.inj heq]

/-- A channel is told its own target, and the pool is not. -/
theorem runVardiffOnChannel_quiet {tried : api.Channel → Option (Option ops.Hashrate)}
    {k : ChannelKind} {d : DownstreamId} {c : ChannelId} (s : ChannelManager api) :
    Leaves (fun _ => True) (fun n => ∀ m, n ≠ .updateChannel m) (fun _ => False)
      (runVardiffOnChannel ops tried k d c s) := by
  unfold runVardiffOnChannel
  split
  · exact .keep trivial
  · split
    · exact .keep trivial
    · exact .keep trivial
    · dsimp only
      split
      · exact .say trivial (by simp)
      · exact .keep trivial

theorem adjustChannels_quiet (tries : Tries ops) (keys : List (DownstreamId × ChannelId))
    (s : ChannelManager api) :
    Leaves (fun _ => True) (fun n => ∀ m, n ≠ .updateChannel m) (fun _ => False)
      (adjustChannels ops tries keys s) := by
  refine .forEach (fun key _ s _ => ?_) trivial
  unfold vardiffEntry
  split
  · exact .keep trivial
  · split
    · exact (runVardiffOnChannel_quiet s).andThen fun _ _ => runVardiffOnChannel_quiet _
    · exact .keep trivial

/-- The downstream is answered, and the pool is not told yet. -/
theorem applyUpdate_quiet {d : DownstreamId} {k : ChannelKind} {msg : UpdateChannel ops.Hashrate}
    {ch : api.Channel} :
    ∀ n ∈ (s.applyUpdate ops d k msg ch).notes, ∀ m, n ≠ .updateChannel m := by
  unfold applyUpdate
  dsimp only
  split
  · simp
  · split <;> simp

theorem updateOneChannel_quiet {d : DownstreamId} {msg : UpdateChannel ops.Hashrate} :
    ∀ n ∈ (updateOneChannel ops d msg s).notes, ∀ m, n ≠ .updateChannel m := by
  unfold updateOneChannel
  split
  · simp
  · split
    · exact applyUpdate_quiet
    · split
      · exact applyUpdate_quiet
      · simp

/-- `run_vardiff` tells the pool the result of the loop over byte arrays. -/
theorem runVardiff_announces {tries : Tries ops} {keys : List (DownstreamId × ChannelId)}
    {m : UpdateChannel ops.Hashrate}
    (h : .updateChannel m ∈ (runVardiff ops tries keys s).notes) :
    m.maximumTarget = (adjustChannels ops tries keys s).value.vardiffTarget ops := by
  have hquiet : ∀ m, .updateChannel m ∉ (adjustChannels ops tries keys s).notes := fun m hm =>
    (adjustChannels_quiet tries keys s).notes _ hm m rfl
  unfold runVardiff at h
  dsimp only at h
  split at h
  · exact absurd h (hquiet m)
  · exact announced_of_mem hquiet h

/-- `handle_update_channel` tells it the smallest target. -/
theorem handleUpdateChannel_announces {d : DownstreamId} {msg m : UpdateChannel ops.Hashrate}
    (h : .updateChannel m ∈ (handleUpdateChannel ops d msg s).notes) :
    m.maximumTarget = ((updateOneChannel ops d msg s).value.minimumTarget ops).toLeBytes := by
  rw [← updateTarget_eq]
  exact announced_of_mem (fun m hm => updateOneChannel_quiet _ hm m rfl) h

/-- **The two functions tell the pool the same**, the smallest target, exactly when its bytes come
first among the bytes of all targets. -/
theorem maximumTarget_agrees_iff {tries : Tries ops} {keys : List (DownstreamId × ChannelId)}
    {m : UpdateChannel ops.Hashrate}
    (h : .updateChannel m ∈ (runVardiff ops tries keys s).notes) :
    let folded := (adjustChannels ops tries keys s).value
    (m.maximumTarget = (folded.minimumTarget ops).toLeBytes ∧
        ∀ (s' : ChannelManager api) (d : DownstreamId) (msg m' : UpdateChannel ops.Hashrate),
          .updateChannel m' ∈ (handleUpdateChannel ops d msg s').notes →
            (updateOneChannel ops d msg s').value.targets ops = folded.targets ops →
              m'.maximumTarget = m.maximumTarget ∧
                m'.maximumTarget = (folded.minimumTarget ops).toLeBytes) ↔
      folded.BytesAgree ops := by
  intro folded
  -- only `run_vardiff` can miss: the other function tells the smallest target in every state
  rw [runVardiff_announces h, ← vardiffTarget_eq_iff]
  constructor
  · intro hagree
    exact hagree.1
  · intro hvardiff
    refine ⟨hvardiff, fun s' d msg m' h' hsame => ?_⟩
    have hupdate : m'.maximumTarget = (folded.minimumTarget ops).toLeBytes := by
      rw [handleUpdateChannel_announces h', minimumTarget, hsame]
      rfl
    exact ⟨hupdate.trans hvardiff.symm, hupdate⟩

/-! ### Two channels -/

/-- A fast standard channel and a slow extended one, with the targets `2 ^ 200` and `2 ^ 248`. An
update to the hashrate a channel has changes nothing, and the sample makes no other. -/
def sampleOps : HashrateOps reference where
  Hashrate := Nat
  zero := 0
  add := (· + ·)
  nominalHashrate ch := if ch.rollable = 0 then 2 ^ 48 else 1
  target ch := if ch.rollable = 0 then ⟨2 ^ 200, by decide⟩ else ⟨2 ^ 248, by decide⟩
  setStableHashrate ch _ := ch
  updateChannel ch _ _ := (ch, .ok ())
  setUpstreamHashrate u _ := u

instance : DecidableEq sampleOps.Hashrate :=
  inferInstanceAs (DecidableEq Nat)

/-- A downstream with a channel of each kind, below a channel of the pool. -/
def twoChannels : ChannelManager reference :=
  { new [] 0 with
    downstream := AList.insert 0
      ⟨false, ⟨1, .empty [] 0, []⟩, fun
        | .standard => AList.insert 2 (.empty [1, 0, 0, 0] 0) ∅
        | .extended => AList.insert 3 (.empty [1, 0, 1] 4) ∅, 4⟩ ∅
    vardiff := fun key => key = (0, 2) ∨ key = (0, 3)
    upstreamChannel := some ⟨5, [1], 6, none, []⟩ }

/-- The standard channel gets its hashrate set. -/
def twoChannelsTries : Tries sampleOps
  | _, .standard, _, _ => some (some (2 ^ 48 : Nat))
  | _, .extended, _, _ => some none

/-- The request of the extended channel. -/
def sampleRequest : UpdateChannel sampleOps.Hashrate := ⟨3, (1 : Nat), ⊤⟩

/-- The message of `run_vardiff`. -/
def vardiffMessage : UpdateChannel sampleOps.Hashrate :=
  ⟨5, (2 ^ 48 + 1 : Nat), Target.toLeBytes ⟨2 ^ 248, by decide⟩⟩

/-- The message of `handle_update_channel`. -/
def updateMessage : UpdateChannel sampleOps.Hashrate :=
  ⟨5, (2 ^ 48 + 1 : Nat), Target.toLeBytes ⟨2 ^ 200, by decide⟩⟩

theorem maximumTarget_agrees_iff_two :
    let folded := (adjustChannels sampleOps twoChannelsTries [(0, 2), (0, 3)] twoChannels).value
    (.updateChannel vardiffMessage ∈
        (runVardiff sampleOps twoChannelsTries [(0, 2), (0, 3)] twoChannels).notes) ∧
      ((vardiffMessage.maximumTarget = (folded.minimumTarget sampleOps).toLeBytes ∧
        ∀ (s' : ChannelManager reference) (d : DownstreamId)
          (msg m' : UpdateChannel sampleOps.Hashrate),
          .updateChannel m' ∈ (handleUpdateChannel sampleOps d msg s').notes →
            (updateOneChannel sampleOps d msg s').value.targets sampleOps =
                folded.targets sampleOps →
              m'.maximumTarget = vardiffMessage.maximumTarget ∧
                m'.maximumTarget = (folded.minimumTarget sampleOps).toLeBytes) ↔
        folded.BytesAgree sampleOps) := by
  have hsent : TargetNote.updateChannel vardiffMessage ∈
      (runVardiff sampleOps twoChannelsTries [(0, 2), (0, 3)] twoChannels).notes := by
    decide +kernel
  exact ⟨hsent, maximumTarget_agrees_iff hsent⟩

/-- The pool is told two targets for the same channels, and the one of `run_vardiff` is larger. -/
theorem vardiff_announces_larger_target :
    .updateChannel vardiffMessage ∈
        (runVardiff sampleOps twoChannelsTries [(0, 2), (0, 3)] twoChannels).notes ∧
      .updateChannel updateMessage ∈
        (handleUpdateChannel sampleOps 0 sampleRequest twoChannels).notes ∧
      (updateOneChannel sampleOps 0 sampleRequest twoChannels).value.targets sampleOps =
        (adjustChannels sampleOps twoChannelsTries [(0, 2), (0, 3)] twoChannels).value.targets
          sampleOps ∧
      vardiffMessage.maximumTarget ≠ updateMessage.maximumTarget ∧
      updateMessage.maximumTarget.number < vardiffMessage.maximumTarget.number := by
  decide +kernel

end ChannelManager

end GridPoolSv2.JobDeclaratorClient
