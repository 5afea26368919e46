import GridPoolSv2.Lib.Runs
import Mathlib.Algebra.Group.Nat.Defs
import Mathlib.Logic.Function.Basic

/-!
# Translator.Sv1Server: the SV1 side of the translator

The model of `miner-apps/translator/src/lib/sv1`: the `Sv1Server` task with its job
storage, the per-connection `Downstream` tasks, and the path of a `mining.submit` from
`handle_submit` through `pending_share` to the `SubmitSharesExtended` that
`handle_submit_shares` sends to the channel manager.

* **Tasks and interleaving.** The server task and the `Downstream` tasks share
  `downstream_data` behind a lock. Each event below is the body of one lock section or
  of one handler that holds no message back, so a list of events is an interleaving of
  the tasks: a `deliver` (the `Downstream` task taking a notification off its queue)
  may fall between a submission and the flush of its pending share.
* **Third-party code.** `channels_sv2`, `stratum_translation` and the block hash are the
  parameter `Sv1Lib`; `Sv1Lib.Lawful` says what the code relies on.
* **Ghost state.** `history` (upstream jobs that became a `mining.notify`), `accepted`
  (what `handle_submit` checked the pending share against) and the `check` half of
  `sent` are not in the source. No handler reads them.

Left out: JSON encoding, vardiff (its only effect here is `pending_target`), hashrates,
telemetry, and the queue of handshake messages, which only delays `submit` events.
-/

namespace GridPoolSv2.Translator

open Function (update)

abbrev Bytes := List UInt8
abbrev ChannelId := UInt32
abbrev DownstreamId := Nat
abbrev RequestId := UInt32
/-- SV1 job ids are texts. -/
abbrev JobId := List Char

/-- `utils::AGGREGATED_CHANNEL_ID`. -/
def aggregatedChannelId : ChannelId := 0xFFFFFFFF

/-- `utils::KEEPALIVE_JOB_ID_DELIMITER`. -/
def keepaliveJobIdDelimiter : Char := '#'

/-- `utils::TproxyMode`. -/
inductive TproxyMode where
  | aggregated
  | nonAggregated
  deriving Repr, DecidableEq

/-- `server_to_client::Notify`. -/
structure Notify where
  jobId : JobId
  prevHash : Bytes
  coinBase1 : Bytes
  coinBase2 : Bytes
  merkleBranch : List Bytes
  version : UInt32
  bits : UInt32
  time : UInt32
  cleanJobs : Bool
  deriving Repr, DecidableEq

/-- `client_to_server::Submit`. -/
structure Submit where
  userName : List Char
  jobId : JobId
  extraNonce2 : Bytes
  time : UInt32
  nonce : UInt32
  versionBits : Option UInt32
  deriving Repr, DecidableEq

/-- The SV2 `SetNewPrevHash` of an extended channel. -/
structure SetNewPrevHash where
  channelId : ChannelId
  jobId : UInt32
  prevHash : Bytes
  minNtime : UInt32
  nbits : UInt32
  deriving Repr, DecidableEq

/-- The SV2 `NewExtendedMiningJob`. -/
structure NewExtendedMiningJob where
  channelId : ChannelId
  jobId : UInt32
  minNtime : Option UInt32
  version : UInt32
  versionRollingAllowed : Bool
  merklePath : List Bytes
  coinbaseTxPrefix : Bytes
  coinbaseTxSuffix : Bytes
  deriving Repr, DecidableEq

/-- The SV2 `OpenExtendedMiningChannel.Success`. -/
structure OpenExtendedMiningChannelSuccess where
  requestId : RequestId
  channelId : ChannelId
  target : Nat
  extranonceSize : Nat
  extranoncePrefix : Bytes
  deriving Repr, DecidableEq

/-- The SV2 `SubmitSharesExtended`. -/
structure SubmitSharesExtended where
  channelId : ChannelId
  sequenceNumber : UInt32
  jobId : UInt32
  nonce : UInt32
  ntime : UInt32
  version : UInt32
  extranonce : Bytes
  deriving Repr, DecidableEq

/-- The block header of `bitcoin::block::Header`. -/
structure Header where
  version : UInt32
  prevBlockhash : Bytes
  merkleRoot : Bytes
  time : UInt32
  bits : UInt32
  nonce : UInt32
  deriving Repr, DecidableEq

/-- Decimal rendering, `to_string` of a `u32`. -/
def decimal (n : UInt32) : JobId :=
  Nat.toDigits 10 n.toNat

/-! ### Third-party code -/

/-- The functions of `channels_sv2`, `stratum_translation` and `bitcoin` the translator calls. -/
structure Sv1Lib where
  /-- `merkle_root_from_path(prefix, suffix, extranonce, path)`. -/
  merkleRootFromPath : Bytes → Bytes → Bytes → List Bytes → Option Bytes
  /-- `header.block_hash()` read as a little-endian 256-bit number. -/
  blockHash : Header → Nat
  /-- `build_sv1_notify_from_sv2(prevhash, job, clean_jobs)`. -/
  buildNotify : SetNewPrevHash → NewExtendedMiningJob → Bool → Option Notify
  /-- `build_sv2_submit_shares_extended_from_sv1_submit(submit, channel_id, sequence_number,
  job_version, version_rolling_mask)`. -/
  buildSubmit : Submit → ChannelId → UInt32 → UInt32 → Option UInt32 → Option SubmitSharesExtended
  /-- `UserIdentity::new(name)?.to_tlv().ok()`; `none` when `UserIdentity::new` fails. -/
  userIdentityTlv : List Char → Option (Option Bytes)

/-- The version rolling mask in force when none was negotiated. -/
def defaultVersionRollingMask : UInt32 := 0x1FFFE000

/-- `(job_version & !mask) | (bits & mask)`. -/
def rolledVersion (jobVersion bits mask : UInt32) : UInt32 :=
  (jobVersion &&& ~~~mask) ||| (bits &&& mask)

/-- What the translator relies on in the third-party code. -/
structure Sv1Lib.Lawful (lib : Sv1Lib) : Prop where
  /-- A `mining.notify` carries the upstream job id in decimal. -/
  notify_jobId : ∀ {p m c n}, lib.buildNotify p m c = some n → n.jobId = decimal m.jobId
  /-- The submission names the channel it is built for. -/
  submit_channelId : ∀ {s ch seq jv mask r}, lib.buildSubmit s ch seq jv mask = some r →
    r.channelId = ch
  /-- A decimal job id is parsed back. -/
  submit_jobId : ∀ {s ch seq jv mask r id}, lib.buildSubmit s ch seq jv mask = some r →
    s.jobId = decimal id → r.jobId = id
  submit_nonce : ∀ {s ch seq jv mask r}, lib.buildSubmit s ch seq jv mask = some r →
    r.nonce = s.nonce
  submit_ntime : ∀ {s ch seq jv mask r}, lib.buildSubmit s ch seq jv mask = some r →
    r.ntime = s.time
  submit_extranonce : ∀ {s ch seq jv mask r}, lib.buildSubmit s ch seq jv mask = some r →
    r.extranonce = s.extraNonce2
  /-- The version is the given job version with the masked bits replaced by the share's. -/
  submit_version : ∀ {s ch seq jv mask r}, lib.buildSubmit s ch seq jv mask = some r →
    r.version = rolledVersion jv (s.versionBits.getD jv) (mask.getD defaultVersionRollingMask)

/-! ### Connection state -/

/-- `utils::SubmitShareWithChannelId`. -/
structure SubmitShareWithChannelId where
  channelId : ChannelId
  downstreamId : DownstreamId
  share : Submit
  extranonce : Bytes
  extranonce2Len : Nat
  versionRollingMask : Option UInt32
  jobVersion : Option UInt32
  deriving Repr, DecidableEq

/-- The notifications the server task queues for a `Downstream` task. -/
inductive Notification where
  | setDifficulty (target : Nat)
  | notify (n : Notify)
  deriving Repr, DecidableEq

/-- **Ghost.** What `handle_submit` checked an accepted share against: the job it found, the
connection's fields it read, and the header `validate_sv1_share` hashed. -/
structure ShareCheck where
  share : Submit
  job : Notify
  extranonce1 : Bytes
  versionRollingMask : Option UInt32
  lastJobVersionField : Option UInt32
  header : Header
  deriving Repr, DecidableEq

/-- The fields of `downstream::DownstreamData` the submit path reads or writes, with the
connection's handshake flag. -/
structure DownstreamData where
  channelId : Option ChannelId := none
  extranonce1 : Bytes := List.replicate 8 0
  extranonce2Len : Nat := 4
  target : Nat
  versionRollingMask : Option UInt32 := none
  versionRollingMinBit : Option UInt32 := none
  lastJobVersionField : Option UInt32 := none
  userIdentity : List Char := []
  cachedSetDifficulty : Option Nat := none
  cachedNotify : Option Notify := none
  pendingTarget : Option Nat := none
  pendingShare : Option SubmitShareWithChannelId := none
  upstreamTarget : Option Nat := none
  lastJobReceivedTime : Option Nat := none
  sv1HandshakeComplete : Bool := false
  /-- `downstream_sv1_sender`: what was sent to the miner, newest last. -/
  toMiner : List Notification := []
  /-- Ghost: the check behind `pendingShare`. -/
  accepted : Option ShareCheck := none
  deriving Repr, DecidableEq

/-- **Ghost.** One upstream job that became a `mining.notify`. -/
structure UpstreamJob where
  job : NewExtendedMiningJob
  notify : Notify
  deriving Repr, DecidableEq

/-- A message sent to the channel manager, with the (ghost) check of the share it reports. -/
structure SentShare where
  msg : SubmitSharesExtended
  tlv : Option Bytes
  check : Option ShareCheck
  deriving Repr, DecidableEq

/-- The state of `Sv1Server` and of its `Downstream` tasks. -/
structure Sv1Server where
  mode : TproxyMode
  /-- `job_keepalive_interval_secs`; the keepalive loop does not run when it is `0`. -/
  keepaliveIntervalSecs : UInt16
  downstreams : DownstreamId → Option DownstreamData := fun _ => none
  /-- `sv1_server_to_downstream_sender`: the notifications queued for each connection. -/
  queues : DownstreamId → Option (List Notification) := fun _ => none
  prevhashes : ChannelId → Option SetNewPrevHash := fun _ => none
  validSv1Jobs : ChannelId → Option (List Notify) := fun _ => none
  channelIdToDownstreamId : ChannelId → Option DownstreamId := fun _ => none
  requestIdToDownstreamId : RequestId → Option DownstreamId := fun _ => none
  requestIdFactory : RequestId := 0
  sequenceCounter : UInt32 := 0
  keepaliveJobIdCounter : UInt32 := 0
  /-- Messages sent to the channel manager, newest first. -/
  sent : List SentShare := []
  /-- Ghost: upstream jobs that became a notify, newest first. -/
  history : List UpstreamJob := []

namespace Sv1Server

/-- Replace the data of one connection. -/
def setData (s : Sv1Server) (d : DownstreamId) (data : DownstreamData) : Sv1Server :=
  { s with downstreams := update s.downstreams d (some data) }

/-- Queue a notification for one connection; dropped when its sender is gone. -/
def enqueue (s : Sv1Server) (d : DownstreamId) (n : Notification) : Sv1Server :=
  { s with queues := update s.queues d ((s.queues d).map (· ++ [n])) }

/-- `Sv1Server::send_to_channel`. -/
def sendToChannel (s : Sv1Server) (ch : ChannelId) (n : Notification) : Sv1Server :=
  if ch = aggregatedChannelId then
    { s with queues := fun d => (s.queues d).map (· ++ [n]) }
  else
    match s.channelIdToDownstreamId ch with
    | none => s
    | some d => s.enqueue d n

/-- The key of `valid_sv1_jobs` for a channel: one shared list in aggregated mode. -/
def jobChannel (s : Sv1Server) (ch : ChannelId) : ChannelId :=
  match s.mode with
  | .aggregated => aggregatedChannelId
  | .nonAggregated => ch

/-! ### Upstream messages -/

/-- The `NewExtendedMiningJob` arm of `handle_upstream_message`. -/
def handleNewExtendedMiningJob (s : Sv1Server) (lib : Sv1Lib) (m : NewExtendedMiningJob) :
    Sv1Server :=
  match s.prevhashes m.channelId with
  | none => s
  | some prevhash =>
      let cleanJobs := decide (m.jobId = prevhash.jobId)
      match lib.buildNotify prevhash m cleanJobs with
      | none => s
      | some notify =>
          let jobChannelId := s.jobChannel m.channelId
          let channelJobs := if cleanJobs then [] else (s.validSv1Jobs jobChannelId).getD []
          sendToChannel
            { s with
              validSv1Jobs := update s.validSv1Jobs jobChannelId (some (channelJobs ++ [notify]))
              history := ⟨m, notify⟩ :: s.history }
            jobChannelId (.notify notify)

/-- The `SetNewPrevHash` arm of `handle_upstream_message`. -/
def handleSetNewPrevHash (s : Sv1Server) (m : SetNewPrevHash) : Sv1Server :=
  { s with prevhashes := update s.prevhashes m.channelId (some m) }

/-- `handle_open_channel_request`. -/
def handleOpenChannelRequest (s : Sv1Server) (d : DownstreamId) : Sv1Server :=
  { s with
    requestIdFactory := s.requestIdFactory + 1
    requestIdToDownstreamId := update s.requestIdToDownstreamId s.requestIdFactory (some d) }

/-- The `OpenExtendedMiningChannelSuccess` arm of `handle_upstream_message`. -/
def handleOpenExtendedMiningChannelSuccess (s : Sv1Server) (firstTarget : Nat)
    (m : OpenExtendedMiningChannelSuccess) : Sv1Server :=
  match s.requestIdToDownstreamId m.requestId with
  | none => s
  | some d =>
      let s := { s with
        requestIdToDownstreamId := update s.requestIdToDownstreamId m.requestId none }
      match s.downstreams d with
      | none => s
      | some data =>
          let data := { data with
            extranonce1 := m.extranoncePrefix
            extranonce2Len := m.extranonceSize
            channelId := some m.channelId
            upstreamTarget := some m.target }
          enqueue
            { s.setData d data with
              channelIdToDownstreamId := update s.channelIdToDownstreamId m.channelId (some d) }
            d (.setDifficulty firstTarget)

/-- A new target for a connection, from `SetTarget` or from vardiff: it stays pending until the
`mining.set_difficulty` that announces it is sent. -/
def setPendingTarget (s : Sv1Server) (d : DownstreamId) (target : Nat) : Sv1Server :=
  match s.downstreams d with
  | none => s
  | some data =>
      (s.setData d { data with pendingTarget := some target }).enqueue d (.setDifficulty target)

/-! ### Keepalive jobs -/

/-- `Sv1Server::is_keepalive_job_id`. -/
def isKeepaliveJobId (j : JobId) : Bool :=
  j.contains keepaliveJobIdDelimiter

/-- `Sv1Server::extract_original_job_id`: the text before the first delimiter. -/
def extractOriginalJobId (j : JobId) : Option JobId :=
  if isKeepaliveJobId j then some (j.takeWhile (· ≠ keepaliveJobIdDelimiter)) else none

/-- `Sv1Server::next_keepalive_job_id`, the counter being passed in. -/
def nextKeepaliveJobId (counter : Nat) (original : JobId) : JobId :=
  original ++ keepaliveJobIdDelimiter :: Nat.toDigits 10 counter

/-- The key `get_last_job` and `get_original_job` look under. -/
def lookupChannel (s : Sv1Server) (ch : Option ChannelId) : Option ChannelId :=
  match s.mode with
  | .aggregated => some aggregatedChannelId
  | .nonAggregated => ch

/-- `Sv1Server::get_last_job`. -/
def getLastJob (s : Sv1Server) (ch : Option ChannelId) : Option Notify := do
  let ch ← s.lookupChannel ch
  let jobs ← s.validSv1Jobs ch
  jobs.getLast?

/-- `Sv1Server::get_original_job`. -/
def getOriginalJob (s : Sv1Server) (j : JobId) (ch : Option ChannelId) : Option Notify := do
  let ch ← s.lookupChannel ch
  let jobs ← s.validSv1Jobs ch
  jobs.find? (·.jobId = j)

/-- `u32::saturating_add`. -/
def saturatingAdd (a b : UInt32) : UInt32 :=
  if a.toNat + b.toNat < 2 ^ 32 then a + b else 0xFFFFFFFF

/-- The cap on how far a keepalive may move the time of its job. -/
def maxFutureBlockTime : UInt32 := 2 * 60 * 60

/-- The time of the next keepalive of `lastJob`. -/
def keepaliveTime (s : Sv1Server) (ch : Option ChannelId) (lastJob : Notify) : UInt32 :=
  let originalJobId := (extractOriginalJobId lastJob.jobId).getD lastJob.jobId
  let baseTime := ((s.getOriginalJob originalJobId ch).map (·.time)).getD lastJob.time
  min (saturatingAdd lastJob.time s.keepaliveIntervalSecs.toUInt32)
    (saturatingAdd baseTime maxFutureBlockTime)

/-- The condition under which `spawn_job_keepalive_loop` picks a connection. -/
def needsKeepalive (s : Sv1Server) (now : Nat) (data : DownstreamData) : Bool :=
  0 < s.keepaliveIntervalSecs && data.sv1HandshakeComplete &&
    match data.lastJobReceivedTime with
    | some last => decide (last + s.keepaliveIntervalSecs.toNat ≤ now)
    | none => false

/-- Store a keepalive job and queue it for its connection. -/
def pushKeepalive (s : Sv1Server) (now : Nat) (d : DownstreamId) (data : DownstreamData)
    (notify : Notify) : Sv1Server :=
  let s := match s.lookupChannel data.channelId with
    | none => s
    | some ch =>
        { s with
          validSv1Jobs := update s.validSv1Jobs ch ((s.validSv1Jobs ch).map (· ++ [notify])) }
  if (s.queues d).isSome then
    (s.enqueue d (.notify notify)).setData d { data with lastJobReceivedTime := some now }
  else s

/-- One target of one pass of `spawn_job_keepalive_loop`. -/
def keepalive (s : Sv1Server) (now : Nat) (d : DownstreamId) : Sv1Server :=
  match s.downstreams d with
  | none => s
  | some data =>
      if s.needsKeepalive now data then
        match s.getLastJob data.channelId with
        | none => s
        | some lastJob =>
            let newTime := s.keepaliveTime data.channelId lastJob
            if newTime = lastJob.time then s
            else
              let originalJobId := (extractOriginalJobId lastJob.jobId).getD lastJob.jobId
              let newJobId := nextKeepaliveJobId s.keepaliveJobIdCounter.toNat originalJobId
              pushKeepalive { s with keepaliveJobIdCounter := s.keepaliveJobIdCounter + 1 }
                now d data { lastJob with jobId := newJobId, time := newTime }
      else s

/-! ### The `Downstream` task -/

/-- Move a pending target in force. -/
def applyPendingTarget (data : DownstreamData) : DownstreamData :=
  { data with target := data.pendingTarget.getD data.target, pendingTarget := none }

/-- `Downstream::handle_sv1_server_message` on one notification. `last_job_version_field` is set by
every `mining.notify`, before and after the handshake. -/
def handleSv1ServerMessage (now : Nat) (data : DownstreamData) : Notification → DownstreamData
  | .setDifficulty t => { data with cachedSetDifficulty := some t }
  | .notify n =>
      if data.sv1HandshakeComplete then
        match data.cachedSetDifficulty with
        | some t =>
            { applyPendingTarget data with
              cachedSetDifficulty := none
              lastJobVersionField := some n.version
              lastJobReceivedTime := some now
              toMiner := data.toMiner ++ [.setDifficulty t, .notify { n with cleanJobs := true }] }
        | none =>
            { data with
              lastJobVersionField := some n.version
              lastJobReceivedTime := some now
              toMiner := data.toMiner ++ [.notify n] }
      else
        { data with cachedNotify := some n, lastJobVersionField := some n.version }

/-- The `Downstream` task takes the next notification off its queue. -/
def deliver (s : Sv1Server) (now : Nat) (d : DownstreamId) : Sv1Server :=
  match s.downstreams d, s.queues d with
  | some data, some (n :: rest) =>
      { s.setData d (handleSv1ServerMessage now data n) with
        queues := update s.queues d (some rest) }
  | _, _ => s

/-- `Downstream::handle_sv1_handshake_completion`. -/
def handleSv1HandshakeCompletion (now : Nat) (data : DownstreamData) : DownstreamData :=
  let cachedNotify := data.cachedNotify
  let cachedSetDifficulty := data.cachedSetDifficulty
  let data := { data with
    sv1HandshakeComplete := true, cachedSetDifficulty := none, cachedNotify := none }
  let data := match cachedSetDifficulty with
    | some t => { applyPendingTarget data with toMiner := data.toMiner ++ [.setDifficulty t] }
    | none => data
  match cachedNotify with
  | some n => { data with lastJobReceivedTime := some now, toMiner := data.toMiner ++ [.notify n] }
  | none => data

/-! ### Requests of the miner -/

/-- `handle_configure`. -/
def handleConfigure (s : Sv1Server) (d : DownstreamId) (mask minBit : Option UInt32) : Sv1Server :=
  match s.downstreams d with
  | none => s
  | some data =>
      s.setData d { data with
        versionRollingMask := mask.map (· &&& defaultVersionRollingMask)
        versionRollingMinBit := minBit }

/-- The longest run of leading characters that fits into `budget` UTF-8 bytes. -/
def takeUtf8 : Nat → List Char → List Char
  | _, [] => []
  | budget, c :: cs =>
      if c.utf8Size ≤ budget then c :: takeUtf8 (budget - c.utf8Size) cs else []

/-- `utils::tlv_compatible_username`. -/
def tlvCompatibleUsername (name : List Char) : List Char :=
  takeUtf8 32 name

/-- `authorize`, with the handshake completion that follows the response. -/
def handleAuthorize (s : Sv1Server) (now : Nat) (d : DownstreamId) (name : List Char) : Sv1Server :=
  match s.downstreams d with
  | none => s
  | some data =>
      s.setData d (handleSv1HandshakeCompletion now
        { data with userIdentity := tlvCompatibleUsername name })

/-- The header `validate_sv1_share` builds for a share of `job`; `none` where it fails. -/
def shareHeader (lib : Sv1Lib) (share : Submit) (extranonce1 : Bytes)
    (versionRollingMask : Option UInt32) (job : Notify) : Option Header :=
  let fullExtranonce := extranonce1 ++ share.extraNonce2
  let shareVersion := share.versionBits.getD job.version
  let mask := versionRollingMask.getD defaultVersionRollingMask
  if job.prevHash.length = 32 then
    match lib.merkleRootFromPath job.coinBase1 job.coinBase2 fullExtranonce job.merkleBranch with
    | none => none
    | some merkleRoot =>
        if merkleRoot.length = 32 then
          some
            { version := rolledVersion job.version shareVersion mask
              prevBlockhash := job.prevHash
              merkleRoot := merkleRoot
              time := share.time
              bits := job.bits
              nonce := share.nonce }
        else none
  else none

/-- `utils::validate_sv1_share`; `none` stands for its error. -/
def validateSv1Share (lib : Sv1Lib) (share : Submit) (target : Nat) (extranonce1 : Bytes)
    (versionRollingMask : Option UInt32) (job : Notify) : Option Bool :=
  (shareHeader lib share extranonce1 versionRollingMask job).map
    fun header => decide (lib.blockHash header < target)

/-- The job `handle_submit` validates a share against: the first stored one with the share's id. -/
def findJob (s : Sv1Server) (ch : ChannelId) (j : JobId) : Option Notify := do
  let jobs ← s.validSv1Jobs (s.jobChannel ch)
  jobs.find? (·.jobId = j)

/-- `handle_submit`. An accepted share becomes the connection's `pending_share`; the ghost field
`accepted` records what it was checked against. -/
def handleSubmit (s : Sv1Server) (lib : Sv1Lib) (d : DownstreamId) (request : Submit) : Sv1Server :=
  match s.downstreams d with
  | none => s
  | some data =>
      match data.channelId with
      | none => s
      | some channelId =>
          match s.findJob channelId request.jobId with
          | none => s
          | some job =>
              let header := shareHeader lib request data.extranonce1 data.versionRollingMask job
              let isValid := (validateSv1Share lib request data.target data.extranonce1
                data.versionRollingMask job).getD false
              if isValid then
                s.setData d { data with
                  pendingShare := some
                    { channelId := channelId
                      downstreamId := d
                      share := request
                      extranonce := data.extranonce1
                      extranonce2Len := data.extranonce2Len
                      versionRollingMask := data.versionRollingMask
                      jobVersion := data.lastJobVersionField }
                  accepted := header.map fun header =>
                    { share := request
                      job := job
                      extranonce1 := data.extranonce1
                      versionRollingMask := data.versionRollingMask
                      lastJobVersionField := data.lastJobVersionField
                      header := header } }
              else s

/-- The job id `handle_submit_shares` submits upstream: the part before the keepalive delimiter. -/
def upstreamJobId (j : JobId) : JobId :=
  (extractOriginalJobId j).getD j

/-- `handle_submit_shares`; `check` is the ghost record of the share. -/
def handleSubmitShares (s : Sv1Server) (lib : Sv1Lib) (message : SubmitShareWithChannelId)
    (check : Option ShareCheck) : Sv1Server :=
  match message.jobVersion with
  | none => s
  | some jobVersion =>
      let share := { message.share with jobId := upstreamJobId message.share.jobId }
      let sequenceNumber := s.sequenceCounter
      let s := { s with sequenceCounter := s.sequenceCounter + 1 }
      match lib.buildSubmit share message.channelId sequenceNumber jobVersion
          message.versionRollingMask with
      | none => s
      | some msg =>
          match s.mode with
          | .aggregated => { s with sent := ⟨msg, none, check⟩ :: s.sent }
          | .nonAggregated =>
              match s.downstreams message.downstreamId with
              | none => s
              | some data =>
                  match lib.userIdentityTlv data.userIdentity with
                  | none => s
                  | some tlv => { s with sent := ⟨msg, tlv, check⟩ :: s.sent }

/-- The end of `handle_downstream_message`: take the pending share and submit it. -/
def flushPending (s : Sv1Server) (lib : Sv1Lib) (d : DownstreamId) : Sv1Server :=
  match s.downstreams d with
  | none => s
  | some data =>
      match data.pendingShare with
      | none => s
      | some share =>
          (s.setData d { data with pendingShare := none, accepted := none }).handleSubmitShares lib
            share data.accepted

/-! ### Connections and runs -/

/-- A new connection, with its queue. -/
def connect (s : Sv1Server) (d : DownstreamId) (target : Nat) : Sv1Server :=
  match s.queues d with
  | some _ => s
  | none => { s.setData d { target := target } with queues := update s.queues d (some []) }

/-- `handle_downstream_disconnect`. -/
def handleDownstreamDisconnect (s : Sv1Server) (d : DownstreamId) : Sv1Server :=
  let channelId := (s.downstreams d).bind (·.channelId)
  { s with
    queues := update s.queues d none
    downstreams := update s.downstreams d none
    channelIdToDownstreamId := match channelId with
      | some ch => update s.channelIdToDownstreamId ch none
      | none => s.channelIdToDownstreamId }

/-- One lock section or handler of the server task or of a `Downstream` task. -/
inductive Event where
  | connect (d : DownstreamId) (target : Nat)
  | disconnect (d : DownstreamId)
  | openChannelRequest (d : DownstreamId)
  | openSuccess (firstTarget : Nat) (m : OpenExtendedMiningChannelSuccess)
  | setNewPrevHash (m : SetNewPrevHash)
  | newExtendedMiningJob (m : NewExtendedMiningJob)
  | pendingTarget (d : DownstreamId) (target : Nat)
  | keepalive (now : Nat) (d : DownstreamId)
  | deliver (now : Nat) (d : DownstreamId)
  | configure (d : DownstreamId) (mask minBit : Option UInt32)
  | authorize (now : Nat) (d : DownstreamId) (name : List Char)
  | submit (d : DownstreamId) (request : Submit)
  | flush (d : DownstreamId)
  deriving Repr, DecidableEq

/-- One step of the translator's SV1 side. -/
def step (lib : Sv1Lib) (s : Sv1Server) : Event → Sv1Server
  | .connect d target => s.connect d target
  | .disconnect d => s.handleDownstreamDisconnect d
  | .openChannelRequest d => s.handleOpenChannelRequest d
  | .openSuccess firstTarget m => s.handleOpenExtendedMiningChannelSuccess firstTarget m
  | .setNewPrevHash m => s.handleSetNewPrevHash m
  | .newExtendedMiningJob m => s.handleNewExtendedMiningJob lib m
  | .pendingTarget d target => s.setPendingTarget d target
  | .keepalive now d => s.keepalive now d
  | .deliver now d => s.deliver now d
  | .configure d mask minBit => s.handleConfigure d mask minBit
  | .authorize now d name => s.handleAuthorize now d name
  | .submit d request => s.handleSubmit lib d request
  | .flush d => s.flushPending lib d

/-- The server before its first event. -/
def initial (mode : TproxyMode) (keepaliveIntervalSecs : UInt16) : Sv1Server :=
  { mode := mode, keepaliveIntervalSecs := keepaliveIntervalSecs }

end Sv1Server

end GridPoolSv2.Translator
