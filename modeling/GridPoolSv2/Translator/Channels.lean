import GridPoolSv2.Translator.Sv1Server

/-!
# Translator.Channels: the channel types the translator works with

The messages between the `Sv1Server`, the channel manager and the upstream, and the parts of
`channels_sv2` the channel manager uses. The crate is outside this repository, so it is a
**parameter**: `ChannelsSv2` lists what is called and `ChannelsSv2.Lawful` what is relied on.

* A channel keeps its id, its prefix and its rollable size. Its active job is the last job that
  was not a future job, or the future job the last `SetNewPrevHash` named.
* A valid share has as many extranonce bytes as the channel lets it roll.
* An allocator mints a prefix that is not in use: the upstream's bytes, the padding, an index.
  Dropping a prefix frees that prefix and no other.
-/

namespace GridPoolSv2.Translator

/-! ### Messages -/

/-- The `OpenExtendedMiningChannel` of a client. -/
structure OpenExtendedMiningChannel where
  requestId : RequestId
  userIdentity : List Char
  maxTarget : Nat
  minExtranonceSize : UInt16
  deriving Repr, DecidableEq

/-- `UpdateChannel`. -/
structure UpdateChannel where
  channelId : ChannelId
  maximumTarget : Nat
  deriving Repr, DecidableEq

/-- `SetTarget`. -/
structure SetTarget where
  channelId : ChannelId
  maximumTarget : Nat
  deriving Repr, DecidableEq

/-- `SetGroupChannel`. -/
structure SetGroupChannel where
  groupChannelId : ChannelId
  channelIds : List ChannelId
  deriving Repr, DecidableEq

/-- What the `Sv1Server` sends to the channel manager, and the channel manager to the upstream. -/
inductive ClientMessage where
  | openExtendedMiningChannel (m : OpenExtendedMiningChannel)
  | submitSharesExtended (m : SubmitSharesExtended) (tlv : Option Bytes)
  | updateChannel (m : UpdateChannel)
  | closeChannel (channelId : ChannelId)
  deriving Repr, DecidableEq

/-- What the channel manager sends to the `Sv1Server`. -/
inductive Sv1Message where
  | openExtendedMiningChannelSuccess (m : OpenExtendedMiningChannelSuccess)
  | newExtendedMiningJob (m : NewExtendedMiningJob)
  | setNewPrevHash (m : SetNewPrevHash)
  | setTarget (m : SetTarget)
  deriving Repr, DecidableEq

/-- The `OpenExtendedMiningChannelSuccess` of the upstream; its prefix is a `B032`. -/
structure UpstreamOpenSuccess where
  requestId : RequestId
  channelId : ChannelId
  target : Nat
  extranonceSize : UInt16
  extranoncePrefix : Bytes
  groupChannelId : ChannelId
  prefix_le : extranoncePrefix.length ≤ 32
  deriving DecidableEq

/-- The messages of the upstream that are not just logged. -/
inductive UpstreamMessage where
  | openExtendedMiningChannelSuccess (m : UpstreamOpenSuccess)
  | openMiningChannelError
  | closeChannel (channelId : ChannelId)
  | newExtendedMiningJob (m : NewExtendedMiningJob)
  | setNewPrevHash (m : SetNewPrevHash)
  | setTarget (m : SetTarget)
  | setGroupChannel (m : SetGroupChannel)
  deriving DecidableEq

/-- `is_future`. -/
def NewExtendedMiningJob.isFuture (m : NewExtendedMiningJob) : Bool :=
  m.minNtime.isNone

/-! ### Third-party code -/

/-- `channels_sv2::chain_tip::ChainTip`. -/
structure ChainTip where
  prevHash : Bytes
  nbits : UInt32
  minNtime : UInt32
  deriving Repr, DecidableEq

/-- The chain tip a `SetNewPrevHash` announces. -/
def SetNewPrevHash.chainTip (m : SetNewPrevHash) : ChainTip :=
  ⟨m.prevHash, m.nbits, m.minNtime⟩

/-- `ExtranoncePrefix`: its bytes, and how many of them are the upstream's when an allocator
minted it. -/
structure ExtranoncePrefix where
  bytes : Bytes
  upstreamPrefixLen : Option Nat
  deriving Repr, DecidableEq

/-- The parts of `channels_sv2` the channel manager uses. Methods that fail return `none`. -/
structure ChannelsSv2 where
  /-- `client::extended::ExtendedChannel`. -/
  Channel : Type
  /-- `client::group::GroupChannel`. -/
  Group : Type
  /-- `ExtranonceAllocator`. -/
  Allocator : Type
  /-- `ExtendedChannel::new`, with the target and the rollable extranonce size. -/
  newChannel : ChannelId → ExtranoncePrefix → Nat → UInt16 → Channel
  channelId : Channel → ChannelId
  extranoncePrefix : Channel → ExtranoncePrefix
  rollableExtranonceSize : Channel → UInt16
  target : Channel → Nat
  setTarget : Channel → Nat → Channel
  activeJob : Channel → Option NewExtendedMiningJob
  futureJobs : Channel → List NewExtendedMiningJob
  chainTip : Channel → Option ChainTip
  setChainTip : Channel → ChainTip → Channel
  onNewExtendedMiningJob : Channel → NewExtendedMiningJob → Option Channel
  onSetNewPrevHash : Channel → SetNewPrevHash → Option Channel
  /-- `validate_share`: the channel with the share accounted for, and whether it is valid. -/
  validateShare : Channel → SubmitSharesExtended → Channel × Bool
  newGroup : ChannelId → Group
  groupChannelId : Group → ChannelId
  /-- `get_channel_ids`. -/
  members : Group → List ChannelId
  addChannelId : Group → ChannelId → Nat → Option Group
  removeChannelId : Group → ChannelId → Group
  groupOnNewExtendedMiningJob : Group → NewExtendedMiningJob → Group
  groupOnSetNewPrevHash : Group → SetNewPrevHash → Option Group
  /-- `bytes_needed`. -/
  bytesNeeded : Nat → Nat
  /-- `ExtranoncePrefix::from_wire`. -/
  fromWire : Bytes → Option ExtranoncePrefix
  /-- `from_upstream_prefix(upstream_prefix, local_prefix_bytes, total_extranonce_len,
  max_channels)`. -/
  fromUpstreamPrefix : Bytes → Bytes → UInt8 → Nat → Option Allocator
  upstreamPrefix : Allocator → Bytes
  /-- `local_prefix_bytes`. -/
  localPrefix : Allocator → Bytes
  localIndexLen : Allocator → Nat
  allocatorRollableSize : Allocator → Nat
  allocateExtended : Allocator → Nat → Option (ExtranoncePrefix × Allocator)
  /-- The `Drop` of a prefix, seen by the allocator. -/
  release : Allocator → ExtranoncePrefix → Allocator
  /-- **Ghost.** The prefixes that were allocated and not released. -/
  inUse : Allocator → List Bytes

namespace ChannelsSv2

variable (api : ChannelsSv2)

/-- A step on a channel that keeps its id, its prefix and its size. -/
structure SameShape (ch ch' : api.Channel) : Prop where
  channelId : api.channelId ch' = api.channelId ch
  extranoncePrefix : api.extranoncePrefix ch' = api.extranoncePrefix ch
  rollable : api.rollableExtranonceSize ch' = api.rollableExtranonceSize ch

/-- A step on a channel that keeps its jobs and its chain tip, too. -/
structure SameJobs (ch ch' : api.Channel) : Prop extends api.SameShape ch ch' where
  activeJob : api.activeJob ch' = api.activeJob ch
  futureJobs : api.futureJobs ch' = api.futureJobs ch
  chainTip : api.chainTip ch' = api.chainTip ch

/-- A channel as it is opened. -/
structure Opened (ch : api.Channel) (c : ChannelId) (p : ExtranoncePrefix) (n : UInt16) : Prop where
  channelId : api.channelId ch = c
  extranoncePrefix : api.extranoncePrefix ch = p
  rollable : api.rollableExtranonceSize ch = n
  activeJob : api.activeJob ch = none
  futureJobs : api.futureJobs ch = []
  chainTip : api.chainTip ch = none

/-- A step on an allocator that changes at most the prefixes in use. -/
structure SameLayout (a a' : api.Allocator) : Prop where
  upstreamPrefix : api.upstreamPrefix a' = api.upstreamPrefix a
  localPrefix : api.localPrefix a' = api.localPrefix a
  localIndexLen : api.localIndexLen a' = api.localIndexLen a
  rollable : api.allocatorRollableSize a' = api.allocatorRollableSize a

/-- What an allocator mints, for at least `n` bytes to roll. -/
structure Minted (a : api.Allocator) (n : Nat) (p : ExtranoncePrefix) (a' : api.Allocator) :
    Prop where
  layout : api.SameLayout a a'
  rollable : n ≤ api.allocatorRollableSize a
  upstreamPrefixLen : p.upstreamPrefixLen = some (api.upstreamPrefix a).length
  bytes : ∃ index : Bytes, index.length = api.localIndexLen a ∧
    p.bytes = api.upstreamPrefix a ++ api.localPrefix a ++ index
  notInUse : p.bytes ∉ api.inUse a
  inUse : ∀ q, q = p.bytes ∨ q ∈ api.inUse a → q ∈ api.inUse a'

structure Lawful : Prop where
  newChannel : ∀ {c p t n}, api.Opened (api.newChannel c p t n) c p n
  setTarget : ∀ {ch t}, api.SameJobs ch (api.setTarget ch t)
  validateShare : ∀ {ch m}, api.SameJobs ch (api.validateShare ch m).1
  validateShare_valid : ∀ {ch m}, (api.validateShare ch m).2 = true →
    m.extranonce.length = (api.rollableExtranonceSize ch).toNat
  setChainTip : ∀ {ch tip}, api.SameShape ch (api.setChainTip ch tip) ∧
    api.activeJob (api.setChainTip ch tip) = api.activeJob ch ∧
    api.futureJobs (api.setChainTip ch tip) = api.futureJobs ch ∧
    api.chainTip (api.setChainTip ch tip) = some tip
  onNewExtendedMiningJob : ∀ {ch m ch'}, api.onNewExtendedMiningJob ch m = some ch' →
    api.SameShape ch ch' ∧ api.chainTip ch' = api.chainTip ch ∧
      api.activeJob ch' = (if m.isFuture then api.activeJob ch else some m) ∧
      ∀ j ∈ api.futureJobs ch', j = m ∨ j ∈ api.futureJobs ch
  onSetNewPrevHash : ∀ {ch m ch'}, api.onSetNewPrevHash ch m = some ch' →
    api.SameShape ch ch' ∧ api.chainTip ch' = some m.chainTip ∧
      (∃ j ∈ api.futureJobs ch, j.jobId = m.jobId ∧
        api.activeJob ch' = some { j with minNtime := some m.minNtime }) ∧
      ∀ j ∈ api.futureJobs ch', j ∈ api.futureJobs ch
  /-- Every `B032` is short enough for a prefix. -/
  fromWire : ∀ {b : Bytes}, b.length ≤ 32 → api.fromWire b = some ⟨b, none⟩
  /-- The parts of the extranonce make up the total, which is at most `MAX_EXTRANONCE_LEN`. -/
  fromUpstreamPrefix : ∀ {up padding n k a}, api.fromUpstreamPrefix up padding n k = some a →
    api.upstreamPrefix a = up ∧ api.localPrefix a = padding ∧
      api.localIndexLen a = api.bytesNeeded k ∧ n.toNat ≤ 32 ∧
      up.length + padding.length + api.bytesNeeded k + api.allocatorRollableSize a = n.toNat
  allocateExtended : ∀ {a n p a'}, api.allocateExtended a n = some (p, a') → api.Minted a n p a'
  release : ∀ {a p}, api.SameLayout a (api.release a p) ∧
    ∀ q ∈ api.inUse a, q ≠ p.bytes → q ∈ api.inUse (api.release a p)

end ChannelsSv2

/-! ### A channel implementation -/

/-- An extended channel that keeps its jobs in lists. -/
structure RefChannel where
  channelId : ChannelId
  extranoncePrefix : ExtranoncePrefix
  rollable : UInt16
  target : Nat
  active : Option NewExtendedMiningJob := none
  future : List NewExtendedMiningJob := []
  tip : Option ChainTip := none
  deriving Repr, DecidableEq

namespace RefChannel

def onNewExtendedMiningJob (ch : RefChannel) (m : NewExtendedMiningJob) : RefChannel :=
  if m.isFuture then { ch with future := m :: ch.future } else { ch with active := some m }

def onSetNewPrevHash (ch : RefChannel) (m : SetNewPrevHash) : Option RefChannel :=
  (ch.future.find? (·.jobId = m.jobId)).map fun job =>
    { ch with
      active := some { job with minNtime := some m.minNtime }
      future := []
      tip := some m.chainTip }

/-- A share of the active job is valid. -/
def valid (ch : RefChannel) (m : SubmitSharesExtended) : Bool :=
  m.extranonce.length = ch.rollable.toNat && (ch.active.map (·.jobId) = some m.jobId)

end RefChannel

/-- A group of channels of one extranonce size. -/
structure RefGroup where
  groupChannelId : ChannelId
  members : List ChannelId := []
  fullExtranonceSize : Option Nat := none
  futureJobIds : List UInt32 := []
  deriving Repr, DecidableEq

namespace RefGroup

def addChannelId (g : RefGroup) (c : ChannelId) (n : Nat) : Option RefGroup :=
  if g.members = [] ∨ g.fullExtranonceSize = some n then
    some { g with members := g.members.insert c, fullExtranonceSize := some n }
  else none

def onNewExtendedMiningJob (g : RefGroup) (m : NewExtendedMiningJob) : RefGroup :=
  if m.isFuture then { g with futureJobIds := m.jobId :: g.futureJobIds } else g

def onSetNewPrevHash (g : RefGroup) (m : SetNewPrevHash) : Option RefGroup :=
  if m.jobId ∈ g.futureJobIds then some { g with futureJobIds := [] } else none

end RefGroup

/-- An allocator that takes the first index not in use. -/
structure RefAllocator where
  upstreamPrefix : Bytes
  localPrefix : Bytes
  localIndexLen : Nat
  rollable : Nat
  inUse : List Bytes := []
  deriving Repr, DecidableEq

/-- The bytes that index `n` channels. -/
def indexLength (n : Nat) : Nat :=
  if n ≤ 2 ^ 8 then 1 else if n ≤ 2 ^ 16 then 2 else if n ≤ 2 ^ 24 then 3 else 4

namespace RefAllocator

def fromUpstreamPrefix (up padding : Bytes) (n : UInt8) (k : Nat) : Option RefAllocator :=
  let used := up.length + padding.length + indexLength k
  if used ≤ n.toNat ∧ n.toNat ≤ 32 then
    some
      { upstreamPrefix := up
        localPrefix := padding
        localIndexLen := indexLength k
        rollable := n.toNat - used }
  else none

/-- The bytes of an index, the most significant one first. -/
def indexBytes : Nat → Nat → Bytes
  | 0, _ => []
  | k + 1, i => indexBytes k (i / 256) ++ [UInt8.ofNat i]

@[simp] theorem length_indexBytes (k i : Nat) : (indexBytes k i).length = k := by
  induction k generalizing i with
  | zero => rfl
  | succ k ih => simp [indexBytes, ih]

/-- The prefix with this index. -/
def withIndex (a : RefAllocator) (i : Nat) : Bytes :=
  a.upstreamPrefix ++ a.localPrefix ++ indexBytes a.localIndexLen i

def allocateExtended (a : RefAllocator) (n : Nat) : Option (ExtranoncePrefix × RefAllocator) :=
  if n ≤ a.rollable then
    (((List.range (a.inUse.length + 1)).map a.withIndex).find? (· ∉ a.inUse)).map fun p =>
      (⟨p, some a.upstreamPrefix.length⟩, { a with inUse := p :: a.inUse })
  else none

end RefAllocator

/-- The channels, groups and allocators above. -/
def referenceChannels : ChannelsSv2 where
  Channel := RefChannel
  Group := RefGroup
  Allocator := RefAllocator
  newChannel c p t n := { channelId := c, extranoncePrefix := p, rollable := n, target := t }
  channelId := RefChannel.channelId
  extranoncePrefix := RefChannel.extranoncePrefix
  rollableExtranonceSize := RefChannel.rollable
  target := RefChannel.target
  setTarget ch t := { ch with target := t }
  activeJob := RefChannel.active
  futureJobs := RefChannel.future
  chainTip := RefChannel.tip
  setChainTip ch tip := { ch with tip := some tip }
  onNewExtendedMiningJob ch m := some (ch.onNewExtendedMiningJob m)
  onSetNewPrevHash := RefChannel.onSetNewPrevHash
  validateShare ch m := (ch, ch.valid m)
  newGroup g := { groupChannelId := g }
  groupChannelId := RefGroup.groupChannelId
  members := RefGroup.members
  addChannelId := RefGroup.addChannelId
  removeChannelId g c := { g with members := g.members.erase c }
  groupOnNewExtendedMiningJob := RefGroup.onNewExtendedMiningJob
  groupOnSetNewPrevHash := RefGroup.onSetNewPrevHash
  bytesNeeded := indexLength
  fromWire b := if b.length ≤ 32 then some ⟨b, none⟩ else none
  fromUpstreamPrefix := RefAllocator.fromUpstreamPrefix
  upstreamPrefix := RefAllocator.upstreamPrefix
  localPrefix := RefAllocator.localPrefix
  localIndexLen := RefAllocator.localIndexLen
  allocatorRollableSize := RefAllocator.rollable
  allocateExtended := RefAllocator.allocateExtended
  release a p := { a with inUse := a.inUse.filter (· ≠ p.bytes) }
  inUse := RefAllocator.inUse

theorem referenceChannels_lawful : referenceChannels.Lawful where
  newChannel := ⟨rfl, rfl, rfl, rfl, rfl, rfl⟩
  setTarget := ⟨⟨rfl, rfl, rfl⟩, rfl, rfl, rfl⟩
  validateShare := ⟨⟨rfl, rfl, rfl⟩, rfl, rfl, rfl⟩
  validateShare_valid := by
    intro ch m h
    change ch.valid m = true at h
    simp only [RefChannel.valid, Bool.and_eq_true, decide_eq_true_eq] at h
    exact h.1
  setChainTip := ⟨⟨rfl, rfl, rfl⟩, rfl, rfl, rfl⟩
  onNewExtendedMiningJob := by
    intro ch m ch' h
    obtain rfl := Option.some.inj h
    change referenceChannels.SameShape ch (ch.onNewExtendedMiningJob m) ∧
      (ch.onNewExtendedMiningJob m).tip = ch.tip ∧ (ch.onNewExtendedMiningJob m).active =
        (if m.isFuture then ch.active else some m) ∧
      ∀ j ∈ (ch.onNewExtendedMiningJob m).future, j = m ∨ j ∈ ch.future
    unfold RefChannel.onNewExtendedMiningJob
    split
    · exact ⟨⟨rfl, rfl, rfl⟩, rfl, rfl, fun j hj => List.mem_cons.mp hj⟩
    · exact ⟨⟨rfl, rfl, rfl⟩, rfl, rfl, fun j hj => .inr hj⟩
  onSetNewPrevHash := by
    intro ch m ch' h
    obtain ⟨job, hjob, rfl⟩ := Option.map_eq_some_iff.mp h
    have hid := List.find?_some hjob
    refine ⟨⟨rfl, rfl, rfl⟩, rfl, ⟨job, List.mem_of_find?_eq_some hjob, by simpa using hid, rfl⟩,
      ?_⟩
    intro j hj
    cases hj
  fromWire := by
    intro b h
    exact if_pos h
  fromUpstreamPrefix := by
    intro up padding n k a h
    change RefAllocator.fromUpstreamPrefix up padding n k = some a at h
    unfold RefAllocator.fromUpstreamPrefix at h
    dsimp only at h
    split at h
    · rename_i hfits
      obtain rfl := Option.some.inj h
      refine ⟨rfl, rfl, rfl, hfits.2, ?_⟩
      change up.length + padding.length + indexLength k +
        (n.toNat - (up.length + padding.length + indexLength k)) = n.toNat
      omega
    · cases h
  allocateExtended := by
    intro a n p a' h
    change a.allocateExtended n = some (p, a') at h
    unfold RefAllocator.allocateExtended at h
    split at h
    · rename_i hroom
      obtain ⟨q, hq, heq⟩ := Option.map_eq_some_iff.mp h
      obtain ⟨rfl, rfl⟩ := Prod.mk.inj heq
      have hfree : q ∉ a.inUse := by simpa using List.find?_some hq
      obtain ⟨i, -, rfl⟩ := List.mem_map.mp (List.mem_of_find?_eq_some hq)
      exact ⟨⟨rfl, rfl, rfl, rfl⟩, hroom, rfl,
        ⟨_, RefAllocator.length_indexBytes _ i, rfl⟩, hfree, fun q hq => List.mem_cons.mpr hq⟩
    · cases h
  release := by
    intro a p
    refine ⟨⟨rfl, rfl, rfl, rfl⟩, fun q hq hne => List.mem_filter.mpr ⟨hq, by simpa using hne⟩⟩

end GridPoolSv2.Translator
