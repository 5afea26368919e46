import GridPoolSv2.Translator.ChannelManager
import GridPoolSv2.Translator.Difficulty

/-!
# Translator.Tproxy: the whole translator

The `Sv1Server` and the channel manager are two tasks with a first-in first-out queue in each
direction; the upstream's frames reach the channel manager one by one, and what it sends to the
upstream is kept in order.

* A step is one handler: of a miner's message, of a connection that comes or goes, of the next
  message of one of the two queues, of a frame, or one iteration of the vardiff or the keepalive
  loop. Every queue is unbounded, so no handler waits in the middle, and a run interleaves the
  steps in any order.
* A handler of the channel manager that ends its task leaves no manager behind. What follows in
  the source is a new `Sv1Server` and a new channel manager, which is a run of its own.
* Where a `set_difficulty` cannot be built and the source shuts down, the model goes on.
-/

namespace GridPoolSv2.Translator

open Runs Sv1Server
open GridPoolSv2.Payout (PayoutMode)

/-- The configuration, and the third-party code. -/
structure Env where
  sv1 : Sv1Lib
  channels : ChannelsSv2
  /-- The targets a `mining.set_difficulty` can be built for. -/
  builds : Nat → Bool
  /-- `build_sv2_open_extended_mining_channel` takes the identity. -/
  buildsOpen : List Char → Bool
  mode : TproxyMode
  userIdentity : List Char
  downstreamExtranonce2Size : UInt16
  keepaliveIntervalSecs : UInt16
  enableVardiff : Bool
  /-- The target of `min_individual_miner_hashrate`. -/
  firstTarget : Nat
  expectedPayoutDistribution : Option PayoutMode
  workerHashrateTracking : Bool

/-- `Target::MAX`, as 32 bytes `0xff`. -/
def maxTarget : Nat := 2 ^ 256 - 1

/-- The translator between its miners and its upstream. -/
structure Tproxy (env : Env) where
  sv1 : VardiffServer
  minerCounter : UInt32 := 0
  /-- The `all_updates` of the vardiff round. -/
  allUpdates : List (ChannelId × PendingTargetUpdate) := []
  manager : Option (ChannelManager env.channels)
  toManager : List ClientMessage := []
  toSv1Server : List Sv1Message := []
  /-- What was sent to the upstream, oldest first. -/
  toUpstream : List ClientMessage := []

/-- The handlers that concern one miner and nobody else. -/
def Sv1Server.Event.isLocal : Sv1Server.Event → Bool
  | .keepalive _ _ | .deliver _ _ | .configure _ _ _ | .authorize _ _ _ | .submit _ _ | .flush _ =>
      true
  | _ => false

theorem setsNoTarget_of_isLocal {e : Sv1Server.Event} (h : e.isLocal = true) :
    VardiffServer.setsNoTarget e = true := by
  cases e <;> first | rfl | cases h

/-- `handle_set_target_without_vardiff`, with what is sent to the channel manager. -/
def Sv1Server.handleSetTargetWithoutVardiff (s : Sv1Server) (m : SetTarget) :
    Sv1Server × List ClientMessage :=
  let setTarget (data : DownstreamData) : DownstreamData :=
    { data with upstreamTarget := some m.maximumTarget, pendingTarget := some m.maximumTarget }
  match s.mode with
  | .aggregated =>
      let opened (d : DownstreamId) := ((s.downstreams d).bind (·.channelId)).isSome
      ({ s with
        downstreams := fun d =>
          if opened d then (s.downstreams d).map setTarget else s.downstreams d
        queues := fun d => if opened d then (s.queues d).map (· ++ [.setDifficulty m.maximumTarget])
          else s.queues d }, [])
  | .nonAggregated =>
      match s.channelIdToDownstreamId m.channelId with
      | none => (s, [.closeChannel m.channelId])
      | some d =>
          match s.downstreams d with
          | none => (s, [])
          | some data => ((s.setData d (setTarget data)).enqueue d (.setDifficulty m.maximumTarget),
              [])

namespace Tproxy

variable {env : Env}

/-! ### What the `Sv1Server` sends -/

/-- The identity of a miner. -/
def minerIdentity (userIdentity : List Char) (minerId : UInt32) : List Char :=
  if "sri/".toList.isPrefixOf userIdentity then userIdentity
  else userIdentity ++ ".miner".toList ++ decimal minerId

/-- The request of `open_extended_mining_channel`. -/
def openRequest (s : Tproxy env) : OpenExtendedMiningChannel where
  requestId := s.sv1.server.requestIdFactory
  userIdentity := minerIdentity env.userIdentity (s.minerCounter + 1)
  maxTarget := if env.enableVardiff then env.firstTarget else maxTarget
  minExtranonceSize := env.downstreamExtranonce2Size

/-- A message of a miner whose channel is not open. -/
def handleHandshakeMessage (s : Tproxy env) (d : DownstreamId) : Tproxy env :=
  let asks := (s.sv1.server.downstreams d).any (·.channelId.isNone) && !s.sv1.queuedHandshake d
  let s' := { s with sv1 := s.sv1.handleHandshakeMessage d }
  if asks then
    { s' with
      minerCounter := s.minerCounter + 1
      toManager := s.toManager ++
        if env.buildsOpen s.openRequest.userIdentity then
          [.openExtendedMiningChannel s.openRequest]
        else [] }
  else s'

/-- The targets the connected miners are going to have. -/
def nextTargets (s : VardiffServer) : List Nat :=
  (List.range s.downstreamIdFactory).filterMap fun d =>
    (s.server.downstreams d).map VardiffServer.nextTarget

/-- One iteration of `handle_vardiff_updates` that has found a new target. -/
def handleVardiffUpdate (s : Tproxy env) (d : DownstreamId) (newTarget : Nat) : Tproxy env :=
  { s with
    sv1 := s.sv1.handleVardiffUpdate d newTarget
    allUpdates := s.allUpdates ++
      ((s.sv1.server.downstreams d).bind (·.channelId)).toList.map fun c => (c, ⟨d, newTarget⟩) }

/-- `send_update_channel_messages`, at the end of a round. -/
def sendUpdateChannelMessages (s : Tproxy env) : Tproxy env :=
  let messages : List UpdateChannel := match env.mode with
    | .aggregated =>
        match s.allUpdates.head?, (nextTargets s.sv1).min? with
        | some (c, _), some target => [⟨c, target⟩]
        | _, _ => []
    | .nonAggregated => s.allUpdates.map fun x => ⟨x.1, x.2.newTarget⟩
  { s with allUpdates := [], toManager := s.toManager ++ messages.map .updateChannel }

/-- `handle_downstream_disconnect`. -/
def handleDownstreamDisconnect (s : Tproxy env) (d : DownstreamId) : Tproxy env :=
  let sv1 := { s.sv1 with server := s.sv1.server.handleDownstreamDisconnect d }
  let messages : List ClientMessage := match s.sv1.server.downstreams d with
    | none => []
    | some data =>
        (if env.enableVardiff && decide (env.mode = .aggregated) then
          [.updateChannel ⟨0, (nextTargets sv1).min?.getD maxTarget⟩] else []) ++
        data.channelId.toList.map .closeChannel
  { s with sv1 := sv1, toManager := s.toManager ++ messages }

/-- The shares a handler sent, oldest first. -/
def sentShares (s s' : Sv1Server) : List ClientMessage :=
  ((s'.sent.take (s'.sent.length - s.sent.length)).reverse).map fun x =>
    .submitSharesExtended x.msg x.tlv

/-- A handler that concerns one miner. -/
def handleLocal (s : Tproxy env) (e : Sv1Server.Event) : Tproxy env :=
  let server := Sv1Server.step env.sv1 s.sv1.server e
  { s with
    sv1 := { s.sv1 with server := server }
    toManager := s.toManager ++ sentShares s.sv1.server server }

/-! ### The queues -/

/-- `Sv1Server::handle_upstream_message`, on one message. -/
def handleUpstreamMessage (s : Tproxy env) : Sv1Message → Tproxy env
  | .openExtendedMiningChannelSuccess m =>
      { s with sv1 := s.sv1.handleOpenSuccess env.firstTarget m }
  | .newExtendedMiningJob m =>
      { s with sv1 := { s.sv1 with server := s.sv1.server.handleNewExtendedMiningJob env.sv1 m } }
  | .setNewPrevHash m =>
      { s with sv1 := { s.sv1 with server := s.sv1.server.handleSetNewPrevHash m } }
  | .setTarget m =>
      if env.enableVardiff then
        { s with sv1 := s.sv1.handleSetTargetMessage m.channelId m.maximumTarget }
      else
        let r := s.sv1.server.handleSetTargetWithoutVardiff m
        { s with sv1 := { s.sv1 with server := r.1 }, toManager := s.toManager ++ r.2 }

/-- The `Sv1Server` takes the next message off its queue. -/
def receiveUpstream (s : Tproxy env) : Tproxy env :=
  match s.toSv1Server with
  | [] => s
  | m :: rest => { s with toSv1Server := rest }.handleUpstreamMessage m

/-- A handler of the channel manager has ended. -/
def managed (s : Tproxy env) : Except Fatal (Handled env.channels) → Tproxy env
  | .error _ => { s with manager := none }
  | .ok h =>
      { s with
        manager := some h.manager
        toSv1Server := s.toSv1Server ++ h.toSv1Server
        toUpstream := s.toUpstream ++ h.toUpstream }

/-- The channel manager takes the next message off its queue. -/
def receiveDownstream (s : Tproxy env) : Tproxy env :=
  match s.manager, s.toManager with
  | some manager, m :: rest =>
      { s with toManager := rest }.managed (manager.handleDownstreamMessage m)
  | _, _ => s

/-- The channel manager handles a frame of the upstream. -/
def receiveFrame (s : Tproxy env) (hash : UInt32 → Nat) (m : UpstreamMessage) : Tproxy env :=
  match s.manager with
  | some manager => s.managed (manager.handleUpstreamFrame hash m)
  | none => s

section Projections

variable (s : Tproxy env)

@[simp] theorem managed_sv1 (r : Except Fatal (Handled env.channels)) :
    (s.managed r).sv1 = s.sv1 := by
  cases r <;> rfl

@[simp] theorem receiveDownstream_sv1 : s.receiveDownstream.sv1 = s.sv1 := by
  unfold receiveDownstream
  split <;> simp

@[simp] theorem receiveFrame_sv1 (hash : UInt32 → Nat) (m : UpstreamMessage) :
    (s.receiveFrame hash m).sv1 = s.sv1 := by
  unfold receiveFrame
  split <;> simp

@[simp] theorem handleHandshakeMessage_sv1 (d : DownstreamId) :
    (s.handleHandshakeMessage d).sv1 = s.sv1.handleHandshakeMessage d := by
  unfold handleHandshakeMessage
  dsimp only
  split <;> rfl

end Projections

/-! ### Runs -/

inductive Event where
  | accept
  | handshakeMessage (d : DownstreamId)
  | vardiff (d : DownstreamId) (newTarget : Nat)
  | sendUpdateChannelMessages
  | sendImmediate
  | sendApplicable
  | disconnect (d : DownstreamId)
  | sv1 (e : Sv1Server.Event) (h : e.isLocal = true)
  | receiveUpstream
  | receiveDownstream
  | frame (hash : UInt32 → Nat) (m : UpstreamMessage)

/-- One step of the translator. -/
def step (s : Tproxy env) : Event → Tproxy env
  | .accept => { s with sv1 := s.sv1.accept env.firstTarget }
  | .handshakeMessage d => s.handleHandshakeMessage d
  | .vardiff d newTarget => if env.enableVardiff then s.handleVardiffUpdate d newTarget else s
  | .sendUpdateChannelMessages => s.sendUpdateChannelMessages
  | .sendImmediate => { s with sv1 := s.sv1.sendImmediate env.builds }
  | .sendApplicable => { s with sv1 := s.sv1.sendApplicable env.builds }
  | .disconnect d => s.handleDownstreamDisconnect d
  | .sv1 e _ => s.handleLocal e
  | .receiveUpstream => s.receiveUpstream
  | .receiveDownstream => s.receiveDownstream
  | .frame hash m => s.receiveFrame hash m

/-- The translator before its first connection. -/
def initial (env : Env) : Tproxy env :=
  { sv1 := VardiffServer.initial env.mode env.keepaliveIntervalSecs
    manager := some (ChannelManager.new env.mode env.expectedPayoutDistribution
      env.workerHashrateTracking) }

end Tproxy

/-- A translator with the reference libraries, without payout verification. -/
def referenceEnv (mode : TproxyMode) (enableVardiff : Bool) (firstTarget : Nat) : Env where
  sv1 := referenceLib
  channels := referenceChannels
  builds _ := true
  buildsOpen _ := true
  mode := mode
  userIdentity := []
  downstreamExtranonce2Size := 4
  keepaliveIntervalSecs := 60
  enableVardiff := enableVardiff
  firstTarget := firstTarget
  expectedPayoutDistribution := none
  workerHashrateTracking := false

/-- The answer of the upstream to the first request, with the target 40. -/
def sampleOpenSuccess (channelId : ChannelId) (extranonceSize : UInt16) : UpstreamOpenSuccess where
  requestId := 0
  channelId := channelId
  target := 40
  extranonceSize := extranonceSize
  extranoncePrefix := [7]
  groupChannelId := 1
  prefix_le := by decide

end GridPoolSv2.Translator
