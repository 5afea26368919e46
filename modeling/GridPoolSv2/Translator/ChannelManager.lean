import GridPoolSv2.Lib.Visit
import GridPoolSv2.Translator.Channels
import GridPoolSv2.Translator.PayoutVerification
import Mathlib.Data.List.Sort

/-!
# Translator.ChannelManager: the SV2 side of the translator

The model of `miner-apps/translator/src/lib/sv2/channel_manager`: the task between the
`Sv1Server` and the upstream. It opens one upstream channel for all miners (aggregated) or one
for each (non-aggregated), keeps the jobs and chain tips of the channels, and passes messages on
in both directions.

* Every queue of the task is unbounded, so a handler never waits: it is one step from the
  state and the message to the new state and what was sent (`Handled`), or the task ends
  (`Fatal`). A log-only error changes nothing.
* A prefix gives its slot back to the allocator when the channel that owns it is dropped
  (`dropPrefix`).
* A `DashMap` is iterated in no particular order. Where the order matters, the handler takes a
  `hash` that sorts the keys.

Left out: hashrates, share accounting, extensions but for the worker TLV, and the messages that
are only logged.
-/

namespace GridPoolSv2.Translator

open Function (update)
open GridPoolSv2.Payout (PayoutMode)

/-- `AGGREGATED_TPROXY_MAX_CHANNELS`. -/
def aggregatedTproxyMaxChannels : Nat := 65536

/-- `NON_AGGREGATED_TPROXY_MAX_CHANNELS`. -/
def nonAggregatedTproxyMaxChannels : Nat := 1

/-! ### State -/

/-- `utils::AggregatedState`. -/
inductive AggregatedState where
  | noChannel
  | pending
  | connected
  deriving Repr, DecidableEq

/-- An entry of `pending_downstream_channels`, without the hashrate. -/
structure PendingChannel where
  userIdentity : List Char
  downstreamExtranonceLen : Nat
  deriving Repr, DecidableEq

/-- `ChannelManager`. -/
structure ChannelManager (api : ChannelsSv2) where
  mode : TproxyMode
  expectedPayoutDistribution : Option PayoutMode
  /-- `EXTENSION_TYPE_WORKER_HASHRATE_TRACKING` is among the `negotiated_extensions`. -/
  workerHashrateTracking : Bool
  /-- Keyed by request id in both modes. -/
  pendingDownstreamChannels : AList fun _ : RequestId => PendingChannel := ∅
  extendedChannels : AList fun _ : ChannelId => api.Channel := ∅
  groupChannels : AList fun _ : ChannelId => api.Group := ∅
  shareSequenceCounters : ChannelId → UInt32 := fun _ => 0
  aggregatedExtranonceAllocator : Option api.Allocator := none
  aggregatedChannelState : AggregatedState := .noChannel

/-- How a handler ends the task: `Action::Fallback`, `Action::Shutdown`, or an `unwrap` on what is
not there. -/
inductive Fatal where
  | fallback
  | shutdown
  | panic
  deriving Repr, DecidableEq

/-- What a handler leaves behind. -/
structure Handled (api : ChannelsSv2) where
  manager : ChannelManager api
  toSv1Server : List Sv1Message := []
  toUpstream : List ClientMessage := []

/-- The iteration of a `DashMap` whose keys hash like this. -/
def iterate {V : Type} (hash : UInt32 → Nat) (m : AList fun _ : UInt32 => V) :
    List (Sigma fun _ : UInt32 => V) :=
  m.entries.insertionSort fun x y => hash x.1 ≤ hash y.1

namespace ChannelManager

variable {api : ChannelsSv2}

/-- A prefix is dropped: its slot is free again. -/
def dropPrefix (s : ChannelManager api) (p : ExtranoncePrefix) : ChannelManager api :=
  { s with
    aggregatedExtranonceAllocator := s.aggregatedExtranonceAllocator.map (api.release · p) }

/-- `extended_channels.remove`. -/
def removeChannel (s : ChannelManager api) (c : ChannelId) : ChannelManager api :=
  match s.extendedChannels.lookup c with
  | none => s
  | some ch =>
      { s.dropPrefix (api.extranoncePrefix ch) with extendedChannels := s.extendedChannels.erase c }

/-- `extended_channels.insert`; a channel that was there is dropped. -/
def insertChannel (s : ChannelManager api) (c : ChannelId) (ch : api.Channel) :
    ChannelManager api :=
  let s := s.removeChannel c
  { s with extendedChannels := s.extendedChannels.insert c ch }

/-- A channel is changed in place, through `get_mut`. -/
def setChannel (s : ChannelManager api) (c : ChannelId) (ch : api.Channel) : ChannelManager api :=
  { s with extendedChannels := s.extendedChannels.insert c ch }

/-- `remove_channel_id` on every group; groups that do not have the channel ignore it. -/
def removeFromGroups (s : ChannelManager api) (c : ChannelId) : ChannelManager api :=
  { s with
    groupChannels := (Visit.visit (N := Unit) (E := Unit)
      (fun _ g => .keep (api.removeChannelId g c)) s.groupChannels).value }

/-- Visit the given channels from the left; each visit may change the channel and leaves an item. -/
def visitMembers {α : Type} (f : ChannelId → api.Channel → Except Fatal (api.Channel × α))
    (s : ChannelManager api) : List ChannelId → Except Fatal (ChannelManager api × List α)
  | [] => .ok (s, [])
  | c :: cs =>
      match s.extendedChannels.lookup c with
      | none => .error .fallback
      | some ch =>
          match f c ch with
          | .error e => .error e
          | .ok (ch', x) =>
              match visitMembers f (s.setChannel c ch') cs with
              | .error e => .error e
              | .ok (s', xs) => .ok (s', x :: xs)

/-- The conversion to a `B032`. -/
def toB032 (bytes : Bytes) : Except Fatal Bytes :=
  if bytes.length ≤ 32 then .ok bytes else .error .shutdown

/-! ### Requests for channels

A request is answered at once if the aggregated channel is there. Otherwise it waits, and the first
one asks the upstream. -/

/-- The id of the next downstream channel in aggregated mode: one above the largest in use, the
sentinel of the upstream channel apart. -/
def nextChannelId (s : ChannelManager api) : ChannelId :=
  (s.extendedChannels.keys.filter (· ≠ aggregatedChannelId)).foldl max 0 + 1

/-- A new downstream channel takes over the chain tip, the active job and the future jobs of the
aggregated channel. A job it refuses is passed over. -/
def inheritJobs (aggregated ch : api.Channel) (c : ChannelId) : api.Channel :=
  let ch := ((api.chainTip aggregated).map (api.setChainTip ch)).getD ch
  ((api.activeJob aggregated).toList ++ api.futureJobs aggregated).foldl
    (fun ch job => (api.onNewExtendedMiningJob ch { job with channelId := c }).getD ch) ch

/-- `handle_downstream_channel_request_in_aggregated_mode`. -/
def handleDownstreamChannelRequestInAggregatedMode (s : ChannelManager api) (requestId : RequestId)
    (minExtranonceSize : Nat) : Except Fatal (Handled api) :=
  match s.extendedChannels.lookup aggregatedChannelId with
  | none => .error .panic
  | some upstreamChannel =>
      match s.aggregatedExtranonceAllocator with
      | none => .ok { manager := s }
      | some allocator =>
          match api.allocateExtended allocator minExtranonceSize with
          | none => .ok { manager := s }
          | some (newPrefix, allocator') =>
              let s := { s with aggregatedExtranonceAllocator := some allocator' }
              if api.allocatorRollableSize allocator = minExtranonceSize then
                let target := api.target upstreamChannel
                let nextId := s.nextChannelId
                let s := s.insertChannel nextId
                  (api.newChannel nextId newPrefix target (UInt16.ofNat minExtranonceSize))
                match toB032 newPrefix.bytes with
                | .error e => .error e
                | .ok extranoncePrefix =>
                    let success : OpenExtendedMiningChannelSuccess :=
                      { requestId := requestId
                        channelId := nextId
                        target := target
                        extranonceSize := (UInt16.ofNat minExtranonceSize).toNat
                        extranoncePrefix := extranoncePrefix }
                    match s.extendedChannels.lookup aggregatedChannelId,
                        s.extendedChannels.lookup nextId with
                    | some aggregated, some ch =>
                        .ok
                          { manager := s.setChannel nextId (inheritJobs aggregated ch nextId)
                            toSv1Server := .openExtendedMiningChannelSuccess success ::
                              (api.activeJob aggregated).toList.map fun job =>
                                .newExtendedMiningJob
                                  { job with channelId := aggregatedChannelId } }
                    | _, _ =>
                        .ok
                          { manager := s
                            toSv1Server := [.openExtendedMiningChannelSuccess success] }
              else .ok { manager := s.dropPrefix newPrefix }

/-- The identity of the one upstream channel in aggregated mode. -/
def translatorIdentity (userIdentity : List Char) : List Char :=
  if "sri/".toList.isPrefixOf userIdentity then userIdentity
  else userIdentity.takeWhile (· ≠ '.') ++ ".translator-proxy".toList

/-- The `OpenExtendedMiningChannel` arm of `handle_downstream_message`. -/
def handleOpenExtendedMiningChannel (s : ChannelManager api) (m : OpenExtendedMiningChannel) :
    Except Fatal (Handled api) :=
  let pending : PendingChannel := ⟨m.userIdentity, m.minExtranonceSize.toNat⟩
  let stored := { s with
    pendingDownstreamChannels := s.pendingDownstreamChannels.insert m.requestId pending }
  match s.mode with
  | .nonAggregated =>
      .ok { manager := stored, toUpstream := [.openExtendedMiningChannel m] }
  | .aggregated =>
      match s.aggregatedChannelState with
      | .connected =>
          s.handleDownstreamChannelRequestInAggregatedMode m.requestId m.minExtranonceSize.toNat
      | .pending => .ok { manager := stored }
      | .noChannel =>
          let userIdentity := translatorIdentity m.userIdentity
          -- the conversion to a `Str0255` is unwrapped
          if (userIdentity.map Char.utf8Size).sum ≤ 255 then
            .ok
              { manager := { stored with aggregatedChannelState := .pending }
                toUpstream := [.openExtendedMiningChannel
                  { m with
                    userIdentity := userIdentity
                    minExtranonceSize := UInt16.ofNat
                      (m.minExtranonceSize.toNat + api.bytesNeeded aggregatedTproxyMaxChannels) }] }
          else .error .panic

/-! ### Shares, updates and closing -/

/-- `next_share_sequence_number`: the number, and the counters after it. -/
def nextShareSequenceNumber (s : ChannelManager api) (counterKey : ChannelId) :
    UInt32 × ChannelManager api :=
  let n := s.shareSequenceCounters counterKey + 1
  (n, { s with shareSequenceCounters := update s.shareSequenceCounters counterKey n })

/-- The extranonce the upstream expects: the bytes of the prefix that are not the upstream's, then
the miner's. The slice panics when the prefix is shorter. -/
def rewriteExtranonce (p : ExtranoncePrefix) (upstreamPrefixLen : Nat) (extranonce : Bytes) :
    Except Fatal Bytes :=
  if upstreamPrefixLen ≤ p.bytes.length then
    toB032 (p.bytes.drop upstreamPrefixLen ++ extranonce)
  else .error .panic

/-- A valid share gets its sequence number and goes to the upstream. -/
def forwardShare (s : ChannelManager api) (m : SubmitSharesExtended) (tlv : Option Bytes) :
    Handled api :=
  let (n, s) := s.nextShareSequenceNumber m.channelId
  { manager := s
    toUpstream := [.submitSharesExtended { m with sequenceNumber := n }
      (if s.workerHashrateTracking then tlv else none)] }

/-- The extranonce of a share in aggregated mode; a share of an unknown channel keeps its own. -/
def aggregatedExtranonce (s : ChannelManager api) (m : SubmitSharesExtended) : Except Fatal Bytes :=
  match s.extendedChannels.lookup m.channelId, s.aggregatedExtranonceAllocator with
  | some ch, some allocator =>
      rewriteExtranonce (api.extranoncePrefix ch) (api.upstreamPrefix allocator).length m.extranonce
  | _, _ => .ok m.extranonce

/-- The extranonce of a share in non-aggregated mode; without a recorded length of the upstream
prefix there is nothing to rewrite. -/
def channelExtranonce (p : ExtranoncePrefix) (extranonce : Bytes) : Except Fatal Bytes :=
  match p.upstreamPrefixLen with
  | some n => rewriteExtranonce p n extranonce
  | none => .ok extranonce

/-- The `SubmitSharesExtended` arm, against the aggregated channel. -/
def submitAggregated (s : ChannelManager api) (aggregated : api.Channel) (m : SubmitSharesExtended)
    (tlv : Option Bytes) : Except Fatal (Handled api) :=
  match s.aggregatedExtranonce m with
  | .error e => .error e
  | .ok extranonce =>
      let m := { m with extranonce := extranonce, channelId := api.channelId aggregated }
      let (aggregated, valid) := api.validateShare aggregated m
      let s := s.setChannel aggregatedChannelId aggregated
      .ok (if valid then s.forwardShare m tlv else { manager := s })

/-- The `SubmitSharesExtended` arm, against the channel of the share. -/
def submitToChannel (s : ChannelManager api) (m : SubmitSharesExtended) (tlv : Option Bytes) :
    Except Fatal (Handled api) :=
  match s.extendedChannels.lookup m.channelId with
  | none => .ok { manager := s }
  | some ch =>
      let (ch, valid) := api.validateShare ch m
      let s := s.setChannel m.channelId ch
      if valid then
        match channelExtranonce (api.extranoncePrefix ch) m.extranonce with
        | .error e => .error e
        | .ok extranonce => .ok (s.forwardShare { m with extranonce := extranonce } tlv)
      else .ok { manager := s }

/-- The `SubmitSharesExtended` arm of `handle_downstream_message`. -/
def handleSubmitSharesExtended (s : ChannelManager api) (m : SubmitSharesExtended)
    (tlv : Option Bytes) : Except Fatal (Handled api) :=
  match s.mode, s.extendedChannels.lookup aggregatedChannelId with
  | .aggregated, some aggregated => s.submitAggregated aggregated m tlv
  | _, _ => s.submitToChannel m tlv

/-- The `UpdateChannel` arm of `handle_downstream_message`. -/
def handleUpdateChannel (s : ChannelManager api) (m : UpdateChannel) : Handled api :=
  match s.mode with
  | .nonAggregated => { manager := s, toUpstream := [.updateChannel m] }
  | .aggregated =>
      match s.extendedChannels.lookup aggregatedChannelId with
      | none => { manager := s }
      | some aggregated =>
          { manager := s
            toUpstream := [.updateChannel { m with channelId := api.channelId aggregated }] }

/-- The `CloseChannel` arm of `handle_downstream_message`. -/
def handleDownstreamCloseChannel (s : ChannelManager api) (c : ChannelId) : Handled api :=
  match s.mode with
  | .nonAggregated =>
      { manager := (s.removeChannel c).removeFromGroups c, toUpstream := [.closeChannel c] }
  | .aggregated =>
      if c = aggregatedChannelId then { manager := s }
      else { manager := (s.removeChannel c).removeFromGroups c }

/-- `handle_downstream_message`. -/
def handleDownstreamMessage (s : ChannelManager api) : ClientMessage → Except Fatal (Handled api)
  | .openExtendedMiningChannel m => s.handleOpenExtendedMiningChannel m
  | .submitSharesExtended m tlv => s.handleSubmitSharesExtended m tlv
  | .updateChannel m => .ok (s.handleUpdateChannel m)
  | .closeChannel c => .ok (s.handleDownstreamCloseChannel c)

/-! ### The upstream opens a channel -/

/-- `full_extranonce_size`, as the two allocators are given it: both terms and the sum are `u8`. -/
def fullExtranonceSize (m : UpstreamOpenSuccess) : UInt8 :=
  UInt8.ofNat m.extranoncePrefix.length + m.extranonceSize.toUInt8

/-- An allocator over the granted prefix, padded so that `downstreamExtranonceLen` bytes are left
to roll, and its first prefix. -/
def allocatorFromUpstream (api : ChannelsSv2) (m : UpstreamOpenSuccess) (maxChannels : Nat)
    (downstreamExtranonceLen : Nat) : Except Fatal (ExtranoncePrefix × api.Allocator) :=
  let localIndexBytes := api.bytesNeeded maxChannels
  if m.extranonceSize.toNat < localIndexBytes + downstreamExtranonceLen then .error .fallback
  else
    let padding := m.extranonceSize.toNat - localIndexBytes - downstreamExtranonceLen
    match api.fromUpstreamPrefix m.extranoncePrefix (List.replicate padding 0)
        (fullExtranonceSize m) maxChannels with
    | none => .error .fallback
    | some allocator =>
        match api.allocateExtended allocator downstreamExtranonceLen with
        | none => .error .fallback
        | some r => .ok r

/-- The `OpenExtendedMiningChannelSuccess` for the `Sv1Server`. -/
def successFor (m : UpstreamOpenSuccess) (c : ChannelId) (downstreamExtranonceLen : Nat)
    (extranoncePrefix : Bytes) : OpenExtendedMiningChannelSuccess where
  requestId := m.requestId
  channelId := c
  target := m.target
  extranonceSize := (UInt16.ofNat downstreamExtranonceLen).toNat
  extranoncePrefix := extranoncePrefix

/-- The aggregated half of `handle_open_extended_mining_channel_success`: the upstream channel under
the sentinel, and the first downstream channel with the id 1. -/
def openAggregated (s : ChannelManager api) (m : UpstreamOpenSuccess) (pending : PendingChannel) :
    Except Fatal (ChannelManager api × OpenExtendedMiningChannelSuccess) :=
  match allocatorFromUpstream api m aggregatedTproxyMaxChannels pending.downstreamExtranonceLen with
  | .error e => .error e
  | .ok (newPrefix, allocator) =>
      match api.fromWire (api.upstreamPrefix allocator) with
      | none => .error .panic
      | some upstreamPrefix =>
          let s := s.insertChannel aggregatedChannelId
            (api.newChannel m.channelId upstreamPrefix m.target m.extranonceSize)
          let s := s.insertChannel 1 (api.newChannel 1 newPrefix m.target
            (UInt16.ofNat pending.downstreamExtranonceLen))
          match toB032 newPrefix.bytes with
          | .error e => .error e
          | .ok extranoncePrefix =>
              .ok ({ s with
                aggregatedExtranonceAllocator := some allocator
                aggregatedChannelState := .connected },
                successFor m 1 pending.downstreamExtranonceLen extranoncePrefix)

/-- The prefix of a channel in non-aggregated mode: the upstream's own when it granted the requested
size, and one that pads the granted size otherwise. -/
def nonAggregatedPrefix (api : ChannelsSv2) (m : UpstreamOpenSuccess)
    (downstreamExtranonceLen : Nat) : Except Fatal ExtranoncePrefix :=
  if m.extranonceSize.toNat < downstreamExtranonceLen then .error .fallback
  else if m.extranonceSize.toNat = downstreamExtranonceLen then
    match api.fromWire m.extranoncePrefix with
    | none => .error .shutdown
    | some p => .ok p
  else
    (allocatorFromUpstream api m nonAggregatedTproxyMaxChannels downstreamExtranonceLen).map (·.1)

/-- The non-aggregated half. -/
def openNonAggregated (s : ChannelManager api) (m : UpstreamOpenSuccess)
    (pending : PendingChannel) :
    Except Fatal (ChannelManager api × OpenExtendedMiningChannelSuccess) :=
  match nonAggregatedPrefix api m pending.downstreamExtranonceLen with
  | .error e => .error e
  | .ok newPrefix =>
      match toB032 newPrefix.bytes with
      | .error e => .error e
      | .ok extranoncePrefix =>
          .ok (s.insertChannel m.channelId (api.newChannel m.channelId newPrefix m.target
              (UInt16.ofNat pending.downstreamExtranonceLen)),
            successFor m m.channelId pending.downstreamExtranonceLen extranoncePrefix)

/-- The requests that were buffered while the upstream channel was being opened. -/
def servePending (s : ChannelManager api) :
    List (Sigma fun _ : RequestId => PendingChannel) → Except Fatal (Handled api)
  | [] => .ok { manager := s }
  | x :: rest =>
      match s.handleDownstreamChannelRequestInAggregatedMode x.1 x.2.downstreamExtranonceLen with
      | .error e => .error e
      | .ok h =>
          match servePending h.manager rest with
          | .error e => .error e
          | .ok h' => .ok { h' with toSv1Server := h.toSv1Server ++ h'.toSv1Server }

/-- `handle_open_extended_mining_channel_success`. -/
def handleOpenExtendedMiningChannelSuccess (s : ChannelManager api) (hash : UInt32 → Nat)
    (m : UpstreamOpenSuccess) : Except Fatal (Handled api) :=
  match s.pendingDownstreamChannels.lookup m.requestId with
  | none => .ok { manager := s }
  | some pending =>
      let s := { s with
        pendingDownstreamChannels := s.pendingDownstreamChannels.erase m.requestId }
      let group := (s.groupChannels.lookup m.groupChannelId).getD (api.newGroup m.groupChannelId)
      match api.addChannelId group m.channelId
          (m.extranonceSize.toNat + m.extranoncePrefix.length) with
      | none => .error .fallback
      | some group =>
          let s := { s with groupChannels := s.groupChannels.insert m.groupChannelId group }
          match s.mode with
          | .nonAggregated =>
              match s.openNonAggregated m pending with
              | .error e => .error e
              | .ok (s, success) =>
                  .ok
                    { manager := s
                      toSv1Server := [.openExtendedMiningChannelSuccess success] }
          | .aggregated =>
              match s.openAggregated m pending with
              | .error e => .error e
              | .ok (s, success) =>
                  match servePending { s with pendingDownstreamChannels := ∅ }
                      (iterate hash s.pendingDownstreamChannels) with
                  | .error e => .error e
                  | .ok h =>
                      .ok { h with
                        toSv1Server := .openExtendedMiningChannelSuccess success :: h.toSv1Server }

/-- `handle_close_channel`. -/
def handleCloseChannel (s : ChannelManager api) (c : ChannelId) : Except Fatal (Handled api) :=
  match s.mode with
  | .aggregated => .error .fallback
  | .nonAggregated =>
      match s.groupChannels.lookup c with
      | some group =>
          let s := { s with groupChannels := s.groupChannels.erase c }
          .ok { manager := (api.members group).foldl removeChannel s }
      | none =>
          match s.extendedChannels.lookup c with
          | none => .ok { manager := s }
          | some _ => .ok { manager := (s.removeChannel c).removeFromGroups c }

/-! ### Jobs, chain tips and targets

In aggregated mode a message for the upstream's channel is passed on for each of the miners'
channels. -/

/-- The aggregated channel, if the message is for it or for its group. The groups of the map are
assumed to be one, and the first one met is taken. -/
def aggregatedAddressed (s : ChannelManager api) (hash : UInt32 → Nat) (c : ChannelId) :
    Except Fatal (Option api.Channel) :=
  match s.extendedChannels.lookup aggregatedChannelId with
  | none => .error .fallback
  | some aggregated =>
      match (iterate hash s.groupChannels).head? with
      | none => .error .fallback
      | some group =>
          .ok (if api.channelId aggregated = c ∨ api.groupChannelId group.2 = c then some aggregated
            else none)

/-- Update every extended channel. -/
def updateAll (s : ChannelManager api) (f : api.Channel → Option api.Channel) :
    Except Fatal (ChannelManager api) :=
  let r := Visit.visit (N := Unit) (E := Fatal)
    (fun _ ch => match f ch with
      | none => .fail ch .fallback
      | some ch' => .keep ch') s.extendedChannels
  match r.error with
  | some e => .error e
  | none => .ok { s with extendedChannels := r.value }

/-- One channel takes a job, under its own id. -/
def takeJob (m : NewExtendedMiningJob) (c : ChannelId) (ch : api.Channel) :
    Except Fatal (api.Channel × NewExtendedMiningJob) :=
  let job := { m with channelId := c }
  match api.onNewExtendedMiningJob ch job with
  | none => .error .fallback
  | some ch => .ok (ch, job)

/-- Only a job that is not a future job is passed on. -/
def jobMessages (jobs : List NewExtendedMiningJob) : List Sv1Message :=
  (jobs.filter (!·.isFuture)).map .newExtendedMiningJob

/-- `handle_new_extended_mining_job`. -/
def handleNewExtendedMiningJob (s : ChannelManager api) (hash : UInt32 → Nat)
    (m : NewExtendedMiningJob) : Except Fatal (Handled api) :=
  match verifyPayout s.expectedPayoutDistribution m with
  | .error _ => .error .fallback
  | .ok () =>
      match s.mode with
      | .aggregated =>
          match s.aggregatedAddressed hash m.channelId with
          | .error e => .error e
          | .ok none => .ok { manager := s }
          | .ok (some _) =>
              match s.updateAll (api.onNewExtendedMiningJob · m) with
              | .error e => .error e
              | .ok s =>
                  .ok
                    { manager := s
                      toSv1Server := jobMessages [{ m with channelId := aggregatedChannelId }] }
      | .nonAggregated =>
          match s.groupChannels.lookup m.channelId with
          | some group =>
              let group := api.groupOnNewExtendedMiningJob group m
              let s := { s with groupChannels := s.groupChannels.insert m.channelId group }
              match visitMembers (takeJob m) s (api.members group) with
              | .error e => .error e
              | .ok (s, jobs) => .ok { manager := s, toSv1Server := jobMessages jobs }
          | none =>
              match s.extendedChannels.lookup m.channelId with
              | none => .ok { manager := s }
              | some _ =>
                  match visitMembers (takeJob m) s [m.channelId] with
                  | .error e => .error e
                  | .ok (s, jobs) => .ok { manager := s, toSv1Server := jobMessages jobs }

/-- One channel moves to a chain tip and starts the job it activates. -/
def takePrevHash (m : SetNewPrevHash) (c : ChannelId) (ch : api.Channel) :
    Except Fatal (api.Channel × (SetNewPrevHash × NewExtendedMiningJob)) :=
  match api.onSetNewPrevHash ch m with
  | none => .error .fallback
  | some ch =>
      match api.activeJob ch with
      | none => .error .panic
      | some job => .ok (ch, { m with channelId := c }, job)

/-- First the prev-hashes, then the jobs. -/
def prevHashMessages (xs : List (SetNewPrevHash × NewExtendedMiningJob)) : List Sv1Message :=
  (xs.map fun x => .setNewPrevHash x.1) ++ xs.map fun x => .newExtendedMiningJob x.2

/-- `handle_set_new_prev_hash`. -/
def handleSetNewPrevHash (s : ChannelManager api) (hash : UInt32 → Nat) (m : SetNewPrevHash) :
    Except Fatal (Handled api) :=
  match s.mode with
  | .aggregated =>
      match s.aggregatedAddressed hash m.channelId with
      | .error e => .error e
      | .ok none => .ok { manager := s }
      | .ok (some _) =>
          match s.updateAll (api.onSetNewPrevHash · m) with
          | .error e => .error e
          | .ok s =>
              match (s.extendedChannels.lookup aggregatedChannelId).bind api.activeJob with
              | none => .error .panic
              | some job =>
                  .ok
                    { manager := s
                      toSv1Server := prevHashMessages
                        [({ m with channelId := aggregatedChannelId },
                          { job with channelId := aggregatedChannelId })] }
  | .nonAggregated =>
      match s.groupChannels.lookup m.channelId with
      | some group =>
          match api.groupOnSetNewPrevHash group m with
          | none => .error .fallback
          | some group =>
              let s := { s with groupChannels := s.groupChannels.insert m.channelId group }
              match visitMembers (takePrevHash m) s (api.members group) with
              | .error e => .error e
              | .ok (s, xs) => .ok { manager := s, toSv1Server := prevHashMessages xs }
      | none =>
          match s.extendedChannels.lookup m.channelId with
          | none => .ok { manager := s }
          | some _ =>
              match visitMembers (takePrevHash m) s [m.channelId] with
              | .error e => .error e
              | .ok (s, xs) => .ok { manager := s, toSv1Server := prevHashMessages xs }

/-- One channel takes a target. -/
def takeTarget (m : SetTarget) (c : ChannelId) (ch : api.Channel) :
    Except Fatal (api.Channel × SetTarget) :=
  .ok (api.setTarget ch m.maximumTarget, { m with channelId := c })

/-- `handle_set_target`. -/
def handleSetTarget (s : ChannelManager api) (hash : UInt32 → Nat) (m : SetTarget) :
    Except Fatal (Handled api) :=
  match s.mode with
  | .aggregated =>
      match s.aggregatedAddressed hash m.channelId with
      | .error e => .error e
      | .ok none => .ok { manager := s }
      | .ok (some _) =>
          match s.updateAll (fun ch => some (api.setTarget ch m.maximumTarget)) with
          | .error e => .error e
          | .ok s =>
              .ok
                { manager := s
                  toSv1Server := [.setTarget { m with channelId := aggregatedChannelId }] }
  | .nonAggregated =>
      match s.groupChannels.lookup m.channelId with
      | some group =>
          match visitMembers (takeTarget m) s (api.members group) with
          | .error e => .error e
          | .ok (s, xs) => .ok { manager := s, toSv1Server := xs.map .setTarget }
      | none =>
          match s.extendedChannels.lookup m.channelId with
          | none => .ok { manager := s }
          | some _ =>
              match visitMembers (takeTarget m) s [m.channelId] with
              | .error e => .error e
              | .ok (s, xs) => .ok { manager := s, toSv1Server := xs.map .setTarget }

/-! ### Groups

Channels are put in groups by the upstream, and jobs and previous hashes of a group go to each of
its channels. -/

/-- Add channels to a group; each has to be open. -/
def addMembers (s : ChannelManager api) : api.Group → List ChannelId → Except Fatal api.Group
  | group, [] => .ok group
  | group, c :: cs =>
      match s.extendedChannels.lookup c with
      | none => .error .fallback
      | some ch =>
          match api.addChannelId group c ((api.extranoncePrefix ch).bytes.length +
              (api.rollableExtranonceSize ch).toNat) with
          | none => .error .fallback
          | some group => addMembers s group cs

/-- The groups without the given channels; those that end up empty are removed. -/
def groupsWithout (groups : AList fun _ : ChannelId => api.Group) (cs : List ChannelId) :
    AList fun _ : ChannelId => api.Group :=
  let rest := (Visit.visit (N := Unit) (E := Unit)
    (fun _ g => .keep (cs.foldl api.removeChannelId g)) groups).value
  (rest.entries.filter fun x => (api.members x.2).isEmpty).foldl (fun gs x => gs.erase x.1) rest

/-- `handle_set_group_channel`. -/
def handleSetGroupChannel (s : ChannelManager api) (m : SetGroupChannel) :
    Except Fatal (Handled api) :=
  let s := { s with groupChannels := groupsWithout s.groupChannels m.channelIds }
  let group := match s.groupChannels.lookup m.groupChannelId with
    | some group =>
        ((api.members group).filter (· ∉ m.channelIds)).foldl api.removeChannelId group
    | none => api.newGroup m.groupChannelId
  match s.addMembers group m.channelIds with
  | .error e => .error e
  | .ok group =>
      .ok { manager := { s with groupChannels := s.groupChannels.insert m.groupChannelId group } }

/-- `handle_upstream_frame`. -/
def handleUpstreamFrame (s : ChannelManager api) (hash : UInt32 → Nat) :
    UpstreamMessage → Except Fatal (Handled api)
  | .openExtendedMiningChannelSuccess m => s.handleOpenExtendedMiningChannelSuccess hash m
  | .openMiningChannelError => .error .fallback
  | .closeChannel c => s.handleCloseChannel c
  | .newExtendedMiningJob m => s.handleNewExtendedMiningJob hash m
  | .setNewPrevHash m => s.handleSetNewPrevHash hash m
  | .setTarget m => s.handleSetTarget hash m
  | .setGroupChannel m => s.handleSetGroupChannel m

/-- `ChannelManager::new`. -/
def new (mode : TproxyMode) (expectedPayoutDistribution : Option PayoutMode)
    (workerHashrateTracking : Bool) : ChannelManager api :=
  { mode := mode
    expectedPayoutDistribution := expectedPayoutDistribution
    workerHashrateTracking := workerHashrateTracking }

end ChannelManager

end GridPoolSv2.Translator
