import GridPoolSv2.Lib.Visit
import GridPoolSv2.Pool.Channels
import GridPoolSv2.Pool.GridPool

/-!
# Pool.ChannelManager: the state and the handlers of the pool's channel manager

The model of `pool/src/lib/channel_manager/`: `bootstrap_group_channel`, the handlers of
`NewTemplate` and `SetNewPrevHash`, opening and closing channels, custom jobs, the
GridPool fee tick, and what each of them sends. One event of `Event` is one handler run
to its end; an error it returns is acted on as `handle_error_action` does.

* Maps that are iterated (`downstreams`, the channels of a downstream) are association
  lists, visited with `Visit.visit`: the first error ends the loop, and what was changed
  before it stays changed.
* The messages of a handler are sent after its loops, and only when these had no error.
* `history` records what the manager did: the messages it sent, each with the channels it
  addresses at that moment, and, as **ghost** notes, every job that was built from
  `GridPoolClient::coinbase_outputs`, with the selection and the fee state it was built
  under. No handler reads it.

Times are given by the events, one reading for each call that reads the clock, and so are
the answers of the GridPool node, of the extranonce allocator and of the embedded JDS.
Vardiff and share handling change no job and are not part of this model.
-/

namespace GridPoolSv2.Pool

open Consensus (Bytes TxOut)
open Payout (Text PayoutMode)
open Function (update)
open Visit

/-- What the manager uses from outside this repository. -/
structure Env where
  channels : ChannelsSv2
  readAddress : AddressReader
  /-- `script_from_address`, for payout modes. -/
  scriptFromAddress : Text → Except String Bytes

inductive ChannelKind where
  | standard
  | extended
  deriving Repr, DecidableEq

/-- The error codes of `OpenMiningChannelError`. -/
inductive OpenErrorCode where
  | standardChannelsNotSupportedForCustomWork
  | extendedChannelsNotSupportedForStandardJobs
  | invalidUserIdentity
  | minExtranonceSizeTooLarge
  | channel (code : String)
  deriving Repr, DecidableEq

/-- The error codes of `SetCustomMiningJobError`. -/
inductive CustomJobErrorCode where
  | jdNotSupported
  | rejected
  | invalidChannelId
  deriving Repr, DecidableEq

/-- The mining messages the manager sends. -/
inductive Mining where
  | openMiningChannelSuccess (kind : ChannelKind) (requestId : Nat) (channelId groupChannelId :
      ChannelId)
  | openMiningChannelError (requestId : Nat) (code : OpenErrorCode)
  | newMiningJob (channelId : ChannelId) (job : Job)
  | newExtendedMiningJob (channelId : ChannelId) (job : Job)
  | setNewPrevHash (channelId : ChannelId) (jobId : JobId) (prevHash : Bytes)
      (minNtime nbits : UInt32)
  | setCustomMiningJobSuccess (channelId : ChannelId) (requestId : Nat) (jobId : JobId)
  | setCustomMiningJobError (channelId : ChannelId) (requestId : Nat) (code : CustomJobErrorCode)
  deriving Repr, DecidableEq

/-- The job message of a channel of this kind. -/
def Mining.job : ChannelKind → ChannelId → Job → Mining
  | .standard => .newMiningJob
  | .extended => .newExtendedMiningJob

/-- A message sent to a downstream, with the channels it addresses when it is sent. -/
structure Sent where
  downstream : DownstreamId
  message : Mining
  addressees : List ChannelId
  deriving Repr, DecidableEq

/-- A job built from `GridPoolClient::coinbase_outputs`. -/
structure Built where
  downstream : DownstreamId
  kind : ChannelKind
  channel : ChannelId
  jobId : JobId
  template : NewTemplate
  outputs : List TxOut
  work : WorkSelection
  fee : Bool
  deriving Repr, DecidableEq

inductive Note where
  | built (job : Built)
  | sent (message : Sent)
  deriving Repr, DecidableEq

def Note.isBuilt : Note → Bool
  | .built _ => true
  | .sent _ => false

/-- `PoolErrorKind`. A panic of `expect` ends the manager like a shutdown. -/
inductive PoolErrorKind where
  | configuration (text : String)
  | channel (error : ChannelError)
  | jobNotFound
  | futureTemplateNotPresent
  | lastNewPrevhashNotFound
  | downstreamNotFound
  | channelErrorSender
  | extranonce (text : String)
  | bootstrap
  | jds (text : String)
  | expect (text : String)
  deriving Repr, DecidableEq

/-- `Action`. -/
inductive Action where
  | log
  | disconnect (downstream : DownstreamId)
  | shutdown
  deriving Repr, DecidableEq

/-- `PoolError`. -/
structure PoolError where
  kind : PoolErrorKind
  action : Action
  deriving Repr, DecidableEq

/-- `PoolError::shutdown`. -/
def PoolError.shutdown (kind : PoolErrorKind) : PoolError := ⟨kind, .shutdown⟩

/-- `PoolError::disconnect`. -/
def PoolError.disconnect (kind : PoolErrorKind) (d : DownstreamId) : PoolError :=
  ⟨kind, .disconnect d⟩

/-- `Downstream`. The two connection flags are set by `SetupConnection`, before the first mining
message. -/
structure Downstream (api : ChannelsSv2) where
  requiresStandardJobs : Bool
  requiresCustomWork : Bool
  payoutMode : Option PayoutMode
  group : api.Group
  /-- `standard_channels` and `extended_channels`. -/
  channels : ChannelKind → AList fun _ : ChannelId => api.Channel
  channelIdFactory : ChannelId

/-- `ChannelManager`. -/
structure ChannelManager (api : ChannelsSv2) where
  downstreams : AList fun _ : DownstreamId => Downstream api
  downstreamIdFactory : DownstreamId
  coinbaseOutputs : List TxOut
  coinbaseRewardScript : Bytes
  lastFutureTemplate : Option NewTemplate
  lastNewPrevHash : Option SetNewPrevHash
  jobDeclarator : Bool
  gridpool : Option GridPoolClient
  gridpoolChannels : DownstreamId × ChannelId → Option ChannelPayout
  /-- The last constraints sent to the template provider. -/
  constraints : CoinbaseOutputConstraints
  /-- Cleared by a shutdown. -/
  running : Bool
  history : List Note

/-! ### Steps on one channel

What the loops below do with one channel: give it a template, with or without the outputs of a
GridPool payout, or the job of its group. Each leaves the channel, the notes and the error. -/

section Channel

variable (env : Env)

/-- The job a channel, or a group, has for a template it was just given. -/
def jobOf {C : Type} (ops : JobOps C) (c : C) (t : NewTemplate) : Option Job :=
  if t.futureTemplate then ops.futureJob c t.templateId else ops.activeJob c

/-- `on_new_template`, and the message that announces the job. `missing` is the error for a channel
that then has no such job, and `ghost` the notes about the built job. -/
def giveTemplate (d : DownstreamId) (k : ChannelKind) (c : ChannelId) (t : NewTemplate)
    (outputs : List TxOut) (missing : PoolErrorKind) (ghost : List Note)
    (ch : env.channels.Channel) : Outcome env.channels.Channel Note PoolErrorKind :=
  match env.channels.channel.onNewTemplate ch t outputs with
  | .error e => .fail ch (.channel e)
  | .ok ch' =>
      match jobOf env.channels.channel ch' t with
      | none => ⟨ch', ghost, some missing⟩
      | some job => ⟨ch', ghost ++ [.sent ⟨d, .job k c job, [c]⟩], none⟩

/-- The ghost note of a job that is about to be built for a channel. -/
def builtNote (g : GridPoolClient) (d : DownstreamId) (k : ChannelKind) (c : ChannelId)
    (payout : ChannelPayout) (t : NewTemplate) (outputs : List TxOut) (now : UInt64)
    (ch : env.channels.Channel) : Note :=
  .built ⟨d, k, c, env.channels.channel.nextJobId ch, t, outputs, g.work,
    g.feeActive payout.payoutAddress now⟩

/-- A channel's own job in GridPool mode, from the outputs computed for its payout. -/
def giveGridPoolTemplate (g : GridPoolClient) (d : DownstreamId) (k : ChannelKind) (c : ChannelId)
    (payout : ChannelPayout) (t : NewTemplate) (missing : PoolErrorKind) (now : UInt64)
    (ch : env.channels.Channel) : Outcome env.channels.Channel Note PoolErrorKind :=
  match g.coinbaseOutputs env.readAddress payout t.coinbaseTxValueRemaining now with
  | .error e => .fail ch (.configuration e)
  | .ok outputs =>
      giveTemplate env d k c t outputs missing [builtNote env g d k c payout t outputs now ch] ch

/-- `on_group_channel_job`. -/
def giveGroupJob (job : Job) (ch : env.channels.Channel) :
    Outcome env.channels.Channel Note PoolErrorKind :=
  match env.channels.onGroupChannelJob ch job with
  | .error e => .fail ch (.channel e)
  | .ok ch' => .keep ch'

end Channel

namespace Downstream

variable {api : ChannelsSv2}

/-- Visit the channels of one kind. -/
def visitChannels (k : ChannelKind)
    (f : ChannelId → api.Channel → Outcome api.Channel Note PoolErrorKind) (ds : Downstream api) :
    Outcome (Downstream api) Note PoolErrorKind :=
  let r := visit f (ds.channels k)
  ⟨{ ds with channels := update ds.channels k r.value }, r.notes, r.error⟩

/-- Visit the channels of both kinds. -/
def visitBoth (first second : ChannelKind)
    (f : ChannelKind → ChannelId → api.Channel → Outcome api.Channel Note PoolErrorKind)
    (ds : Downstream api) : Outcome (Downstream api) Note PoolErrorKind :=
  (ds.visitChannels first (f first)).andThen fun ds => ds.visitChannels second (f second)

/-- Add a channel to the channels of its kind. -/
def insertChannel (ds : Downstream api) (k : ChannelKind) (c : ChannelId) (ch : api.Channel) :
    Downstream api :=
  { ds with channels := update ds.channels k ((ds.channels k).insert c ch) }

end Downstream

namespace ChannelManager

variable {env : Env}

/-- `remove_downstream`. -/
def removeDownstream (s : ChannelManager env.channels) (d : DownstreamId) :
    ChannelManager env.channels :=
  { s with
    downstreams := s.downstreams.erase d
    gridpoolChannels := fun key => if key.1 = d then none else s.gridpoolChannels key }

/-- `handle_error_action`. -/
def handleErrorAction (s : ChannelManager env.channels) (e : PoolError) :
    ChannelManager env.channels :=
  match e.action with
  | .log => s
  | .disconnect d => s.removeDownstream d
  | .shutdown => { s with running := false }

def note (s : ChannelManager env.channels) (notes : List Note) : ChannelManager env.channels :=
  { s with history := s.history ++ notes }

/-- Send one message that is not about jobs. -/
def reply (s : ChannelManager env.channels) (d : DownstreamId) (m : Mining) :
    ChannelManager env.channels :=
  s.note [.sent ⟨d, m, []⟩]

/-- The end of a handler that went through the downstreams: its messages are sent unless a loop
failed. The jobs built before the failure stay, and every error of a loop is mapped to a
shutdown. -/
def conclude (s : ChannelManager env.channels)
    (o : Outcome (AList fun _ : DownstreamId => Downstream env.channels) Note PoolErrorKind) :
    ChannelManager env.channels × Option PoolError :=
  let s := { s with downstreams := o.value }
  match o.error with
  | none => (s.note o.notes, none)
  | some e => (s.note (o.notes.filter Note.isBuilt), some (.shutdown e))

/-- What the loop of `start` does with the result of a handler. -/
def settle (r : ChannelManager env.channels × Option PoolError) : ChannelManager env.channels :=
  match r.2 with
  | none => r.1
  | some e => r.1.handleErrorAction e

/-! ### Templates

In GridPool mode every channel has outputs of its own, by the payout it was opened with. Otherwise
all of them get the pool's. -/

/-- The outputs of a downstream's group jobs. The configured outputs are one, made from the reward
script of the pool; the source indexes the first one and would panic without it. -/
def downstreamOutputs (s : ChannelManager env.channels) (ds : Downstream env.channels)
    (t : NewTemplate) : List TxOut :=
  match ds.payoutMode with
  | some mode => mode.coinbaseOutputs t.coinbaseTxValueRemaining s.coinbaseRewardScript
  | none =>
      match s.coinbaseOutputs with
      | [] => []
      | o :: rest => { o with value := t.coinbaseTxValueRemaining } :: rest

/-- The end of `handle_new_template` for a channel without the job of the template: a panic for
standard channels, an error for extended ones. -/
def missingJob (k : ChannelKind) (t : NewTemplate) : PoolErrorKind :=
  match k with
  | .standard => .expect (if t.futureTemplate then "future job must exist" else
      "active job must exist")
  | .extended => .jobNotFound

/-- The loop bodies of `handle_new_template` over standard and extended channels. In GridPool mode
every channel gets a job of its own. -/
def newTemplateChannel (s : ChannelManager env.channels) (t : NewTemplate)
    (clock : DownstreamId → ChannelId → UInt64) (d : DownstreamId) (requiresStandardJobs : Bool)
    (outputs : List TxOut) (groupJob : Job) (k : ChannelKind) (c : ChannelId)
    (ch : env.channels.Channel) : Outcome env.channels.Channel Note PoolErrorKind :=
  match s.gridpool with
  | some g =>
      match s.gridpoolChannels (d, c) with
      | none => .fail ch .jobNotFound
      | some payout =>
          giveGridPoolTemplate env g d k c payout t (missingJob k t) (clock d c) ch
  | none =>
      match k with
      | .standard =>
          if requiresStandardJobs then
            giveTemplate env d k c t outputs (missingJob k t) [] ch
          else giveGroupJob env groupJob ch
      | .extended => giveGroupJob env groupJob ch

/-- The body of the downstream loop of `handle_new_template`. -/
def newTemplateDownstream (s : ChannelManager env.channels) (t : NewTemplate)
    (clock : DownstreamId → ChannelId → UInt64) (d : DownstreamId) (ds : Downstream env.channels) :
    Outcome (Downstream env.channels) Note PoolErrorKind :=
  if ds.requiresCustomWork then .keep ds
  else
    let outputs := s.downstreamOutputs ds t
    match env.channels.group.onNewTemplate ds.group t outputs with
    | .error e => .fail ds (.channel e)
    | .ok group =>
        let ds := { ds with group := group }
        match jobOf env.channels.group group t with
        | none => .fail ds .jobNotFound
        | some groupJob =>
            let members := env.channels.members group
            let announced : List Note :=
              if !ds.requiresStandardJobs && !members.isEmpty && s.gridpool.isNone then
                [.sent ⟨d, .newExtendedMiningJob (env.channels.groupChannelId group) groupJob,
                  members⟩]
              else []
            Outcome.andThen ⟨ds, announced, none⟩ fun ds =>
              ds.visitBoth .standard .extended
                (s.newTemplateChannel t clock d ds.requiresStandardJobs outputs groupJob)

/-- `handle_new_template`, given what the GridPool node answers if the tip refresh is made. -/
def handleNewTemplate (s : ChannelManager env.channels) (t : NewTemplate)
    (fetch : Nat → Except String WorkSelection) (clock : DownstreamId → ChannelId → UInt64) :
    ChannelManager env.channels × Option PoolError :=
  let refreshed : Except String (Option GridPoolClient) :=
    match s.gridpool with
    | some g =>
        if t.futureTemplate && t.templateId ≠ 0 && s.lastFutureTemplate.isSome then
          (g.refreshForChainTip fetch).map some
        else .ok (some g)
    | none => .ok none
  match refreshed with
  | .error e => (s, some (.shutdown (.configuration e)))
  | .ok gridpool =>
      let s := { s with
        gridpool := gridpool
        lastFutureTemplate := if t.futureTemplate then some t else s.lastFutureTemplate }
      s.conclude (visit (s.newTemplateDownstream t clock) s.downstreams)

/-! ### Previous hashes -/

/-- The loop bodies of `handle_set_new_prev_hash` over channels: standard channels are told when the
downstream requires standard jobs. -/
def prevHashChannel (m : SetNewPrevHash) (d : DownstreamId) (requiresStandardJobs : Bool)
    (k : ChannelKind) (c : ChannelId) (ch : env.channels.Channel) :
    Outcome env.channels.Channel Note PoolErrorKind :=
  match env.channels.channel.onSetNewPrevHash ch m with
  | .error e => .fail ch (.channel e)
  | .ok ch' =>
      match k with
      | .extended => .keep ch'
      | .standard =>
          if requiresStandardJobs then
            match env.channels.channel.activeJob ch' with
            | none => .fail ch' .jobNotFound
            | some job =>
                ⟨ch', [.sent ⟨d, .setNewPrevHash c job.jobId m.prevHash m.headerTimestamp m.nBits,
                  [c]⟩], none⟩
          else .keep ch'

/-- The body of the downstream loop of `handle_set_new_prev_hash`. -/
def prevHashDownstream (m : SetNewPrevHash) (d : DownstreamId) (ds : Downstream env.channels) :
    Outcome (Downstream env.channels) Note PoolErrorKind :=
  if ds.requiresCustomWork then .keep ds
  else
    match env.channels.group.onSetNewPrevHash ds.group m with
    | .error e => .fail ds (.channel e)
    | .ok group =>
        let ds := { ds with group := group }
        let members := env.channels.members group
        let announced : Outcome (Downstream env.channels) Note PoolErrorKind :=
          if !ds.requiresStandardJobs && !members.isEmpty then
            match env.channels.group.activeJob group with
            | none => .fail ds (.expect "active job must exist")
            | some job =>
                ⟨ds, [.sent ⟨d, .setNewPrevHash (env.channels.groupChannelId group) job.jobId
                  m.prevHash m.headerTimestamp m.nBits, members⟩], none⟩
          else .keep ds
        announced.andThen fun ds =>
          ds.visitBoth .extended .standard (prevHashChannel m d ds.requiresStandardJobs)

/-- `handle_set_new_prev_hash`. -/
def handleSetNewPrevHash (s : ChannelManager env.channels) (m : SetNewPrevHash) :
    ChannelManager env.channels × Option PoolError :=
  let s := { s with lastNewPrevHash := some m }
  s.conclude (visit (prevHashDownstream m) s.downstreams)

/-! ### The fee tick

`refresh_gridpool_fee_jobs` computes the outputs of every GridPool channel anew, and rotates a
channel only if they are others than those of its active job. -/

/-- `commit_gridpool_job_refresh`. -/
def commitGridpoolJobRefresh (t : NewTemplate) (refreshId : UInt64) :
    Except PoolErrorKind NewTemplate :=
  let coinbasePrefix := t.coinbasePrefix ++ [8] ++ Consensus.leBytes 8 refreshId.toNat
  if 100 < coinbasePrefix.length then
    .error (.configuration "GridPool fee job coinbase prefix exceeds consensus limit")
  else .ok { t with coinbasePrefix := coinbasePrefix }

/-- The loop bodies of `refresh_gridpool_fee_jobs`, the same for both kinds of channels. -/
def refreshChannel (s : ChannelManager env.channels) (g : GridPoolClient) (t : NewTemplate)
    (clock : DownstreamId → ChannelId → UInt64) (d : DownstreamId) (k : ChannelKind) (c : ChannelId)
    (ch : env.channels.Channel) : Outcome env.channels.Channel Note PoolErrorKind :=
  match s.gridpoolChannels (d, c) with
  | none => .keep ch
  | some payout =>
      match g.coinbaseOutputs env.readAddress payout t.coinbaseTxValueRemaining (clock d c) with
      | .error e => .fail ch (.configuration e)
      | .ok outputs =>
          if (env.channels.channel.activeJob ch).any fun j => outputs.isPrefixOf j.coinbaseOutputs
          then .keep ch
          else
            giveTemplate env d k c t outputs .jobNotFound
              [builtNote env g d k c payout t outputs (clock d c) ch] ch

/-- `refresh_gridpool_fee_jobs`. -/
def refreshGridpoolFeeJobs (s : ChannelManager env.channels) (now : UInt64)
    (clock : DownstreamId → ChannelId → UInt64) : ChannelManager env.channels × Option PoolError :=
  match s.gridpool, s.lastFutureTemplate with
  | some g, some template =>
      match commitGridpoolJobRefresh { template with futureTemplate := false } now with
      | .error e => (s, some (.shutdown e))
      | .ok t =>
          s.conclude (visit (fun d ds => ds.visitBoth .standard .extended
            (s.refreshChannel g t clock d)) s.downstreams)
  | _, _ => (s, none)

/-! ### Connections -/

/-- `bootstrap_group_channel`. -/
def bootstrapGroupChannel (s : ChannelManager env.channels) (t : NewTemplate) (m : SetNewPrevHash)
    (channelId : ChannelId) : Option env.channels.Group :=
  match env.channels.newGroup channelId with
  | .error _ => none
  | .ok group =>
      let output : TxOut := ⟨t.coinbaseTxValueRemaining, s.coinbaseRewardScript⟩
      match env.channels.group.onNewTemplate group t [output] with
      | .error _ => none
      | .ok group =>
          match env.channels.group.onSetNewPrevHash group m with
          | .error _ => none
          | .ok group => some group

/-- A new connection, with the flags of its `SetupConnection`. No connection is accepted before the
first template and previous hash. -/
def connect (s : ChannelManager env.channels) (requiresStandardJobs requiresCustomWork : Bool) :
    ChannelManager env.channels × Option PoolError :=
  match s.lastFutureTemplate, s.lastNewPrevHash with
  | some t, some m =>
      let d := s.downstreamIdFactory
      let s := { s with downstreamIdFactory := d + 1 }
      let groupChannelId := 1
      match s.bootstrapGroupChannel t m groupChannelId with
      | none => (s, some (.shutdown .bootstrap))
      | some group =>
          let ds : Downstream env.channels :=
            { requiresStandardJobs := requiresStandardJobs
              requiresCustomWork := requiresCustomWork
              payoutMode := none
              group := group
              channels := fun _ => ∅
              channelIdFactory := groupChannelId + 1 }
          ({ s with downstreams := s.downstreams.insert d ds }, none)
  | _, _ => (s, none)

/-! ### Opening channels

The identity decides where the rewards go. A channel that requires custom work is opened without a
job. -/

/-- The GridPool payout of a new channel, in GridPool mode. -/
def resolvePayout (s : ChannelManager env.channels) (identity : Text) :
    Except String (Option ChannelPayout) :=
  match s.gridpool with
  | some g => (g.resolveChannel env.readAddress identity).map some
  | none => .ok none

/-- The payout mode of a `user_identity`; one that names none donates everything. -/
def payoutModeOf (env : Env) (identity : Text) : Option PayoutMode :=
  match PayoutMode.ofUserIdentity env.scriptFromAddress identity with
  | .ok mode => some mode
  | .error (.noPayoutMode _) => some .fullDonation
  | .error _ => none

/-- The outputs of a new channel's first job. -/
def rewardOutputs (s : ChannelManager env.channels) (payout : Option ChannelPayout)
    (mode : PayoutMode) (t : NewTemplate) (now : UInt64) : Except String (List TxOut) :=
  match s.gridpool, payout with
  | some g, some payout =>
      g.coinbaseOutputs env.readAddress payout t.coinbaseTxValueRemaining now
  | _, _ => .ok (mode.coinbaseOutputs t.coinbaseTxValueRemaining s.coinbaseRewardScript)

/-- The first job of a new channel: `on_new_template` with the last future template, and
`on_set_new_prev_hash` with the last previous hash. The job is the future one, as it is
announced. -/
def firstJob (t : NewTemplate) (m : SetNewPrevHash) (outputs : List TxOut)
    (ch : env.channels.Channel) : Except PoolErrorKind (Job × env.channels.Channel) :=
  match env.channels.channel.onNewTemplate ch t outputs with
  | .error e => .error (.channel e)
  | .ok ch =>
      match env.channels.channel.futureJob ch t.templateId with
      | none => .error (.expect "future job id must exist")
      | some job =>
          match env.channels.channel.onSetNewPrevHash ch m with
          | .error e => .error (.channel e)
          | .ok ch => .ok (job, ch)

/-- The messages that open a channel: its success, its future job and the previous hash that
activates it. -/
def openingNotes (s : ChannelManager env.channels) (d : DownstreamId) (k : ChannelKind)
    (requestId : Nat) (c groupChannelId : ChannelId) (payout : Option ChannelPayout)
    (t : NewTemplate) (m : SetNewPrevHash) (outputs : List TxOut) (now : UInt64)
    (new : env.channels.Channel) (job : Job) : List Note :=
  let ghost : List Note :=
    match s.gridpool, payout with
    | some g, some payout => [builtNote env g d k c payout t outputs now new]
    | _, _ => []
  ghost ++
    [.sent ⟨d, .openMiningChannelSuccess k requestId c groupChannelId, [c]⟩,
      .sent ⟨d, .job k c job, [c]⟩,
      .sent ⟨d, .setNewPrevHash c job.jobId m.prevHash m.headerTimestamp m.nBits, [c]⟩]

def setDownstream (s : ChannelManager env.channels) (d : DownstreamId)
    (ds : Downstream env.channels) : ChannelManager env.channels :=
  { s with downstreams := s.downstreams.insert d ds }

/-- Record the GridPool payout of a channel. -/
def setPayout (s : ChannelManager env.channels) (d : DownstreamId) (c : ChannelId)
    (payout : Option ChannelPayout) : ChannelManager env.channels :=
  { s with
    gridpoolChannels :=
      match payout with
      | some payout => update s.gridpoolChannels (d, c) (some payout)
      | none => s.gridpoolChannels }

/-- `handle_open_standard_mining_channel`, given the prefix the extranonce allocator returns. -/
def handleOpenStandardMiningChannel (s : ChannelManager env.channels) (d : DownstreamId)
    (msg : OpenMiningChannel) (allocated : Except String Bytes) (now : UInt64) :
    ChannelManager env.channels × Option PoolError :=
  match s.downstreams.lookup d with
  | none => (s, some (.disconnect .downstreamNotFound d))
  | some ds =>
      if ds.requiresCustomWork then
        (s.reply d (.openMiningChannelError msg.requestId
          .standardChannelsNotSupportedForCustomWork), none)
      else
        match s.lastFutureTemplate, s.lastNewPrevHash with
        | none, _ => (s, some (.disconnect .futureTemplateNotPresent d))
        | _, none => (s, some (.disconnect .lastNewPrevhashNotFound d))
        | some t, some m =>
            match s.resolvePayout msg.userIdentity, payoutModeOf env msg.userIdentity with
            | .error _, _ | _, none =>
                (s.reply d (.openMiningChannelError msg.requestId .invalidUserIdentity), none)
            | .ok payout, some mode =>
                match s.rewardOutputs payout mode t now with
                | .error e => (s, some (.disconnect (.configuration e) d))
                | .ok outputs =>
                    let ds := { ds with payoutMode := some mode }
                    match allocated with
                    | .error e => (s.setDownstream d ds, some (.shutdown (.extranonce e)))
                    | .ok extranoncePrefix =>
                        let c := ds.channelIdFactory
                        let ds := { ds with channelIdFactory := c + 1 }
                        let s := s.setDownstream d ds
                        match env.channels.newStandard c msg extranoncePrefix with
                        | .error (.openChannel code) =>
                            (s.reply d (.openMiningChannelError msg.requestId (.channel code)),
                              none)
                        | .error (.other _) => (s, some (.disconnect .channelErrorSender d))
                        | .ok new =>
                            let s := s.setPayout d c payout
                            match firstJob t m outputs new with
                            | .error e => (s, some (.shutdown e))
                            | .ok (job, ch) =>
                                let ds := ds.insertChannel .standard c ch
                                let notes := s.openingNotes d .standard msg.requestId c
                                  (env.channels.groupChannelId ds.group) payout t m outputs
                                    now new job
                                if ds.requiresStandardJobs then
                                  ((s.setDownstream d ds).note notes, none)
                                else
                                  match env.channels.addChannelId ds.group c with
                                  | .error e => (s.setDownstream d ds,
                                      some (.shutdown (.channel e)))
                                  | .ok group =>
                                      ((s.setDownstream d { ds with group := group }).note notes,
                                        none)

/-- `handle_open_extended_mining_channel`. A channel of a downstream that requires custom work gets
no job: it only learns the last previous hash, and does not join the group. -/
def handleOpenExtendedMiningChannel (s : ChannelManager env.channels) (d : DownstreamId)
    (msg : OpenMiningChannel) (allocated : Except String Bytes) (now : UInt64) :
    ChannelManager env.channels × Option PoolError :=
  match s.downstreams.lookup d with
  | none => (s, some (.disconnect .downstreamNotFound d))
  | some ds =>
      if ds.requiresStandardJobs then
        (s.reply d (.openMiningChannelError msg.requestId
          .extendedChannelsNotSupportedForStandardJobs), none)
      else
        match allocated with
        | .error _ => (s.reply d (.openMiningChannelError msg.requestId .minExtranonceSizeTooLarge),
            none)
        | .ok extranoncePrefix =>
            match s.resolvePayout msg.userIdentity, payoutModeOf env msg.userIdentity with
            | .error _, _ | _, none =>
                (s.reply d (.openMiningChannelError msg.requestId .invalidUserIdentity), none)
            | .ok payout, some mode =>
                let c := ds.channelIdFactory
                let ds := { ds with payoutMode := some mode, channelIdFactory := c + 1 }
                let s := s.setDownstream d ds
                match env.channels.newExtended c msg extranoncePrefix with
                | .error (.openChannel code) =>
                    (s.reply d (.openMiningChannelError msg.requestId (.channel code)), none)
                | .error (.other e) => (s, some (.disconnect (.channel (.other e)) d))
                | .ok new =>
                    let s := s.setPayout d c payout
                    match s.lastNewPrevHash, s.lastFutureTemplate with
                    | none, _ => (s, some (.disconnect .lastNewPrevhashNotFound d))
                    | _, none => (s, some (.disconnect .futureTemplateNotPresent d))
                    | some m, some t =>
                        if ds.requiresCustomWork then
                          match env.channels.channel.onSetNewPrevHash new m with
                          | .error e => (s, some (.shutdown (.channel e)))
                          | .ok ch =>
                              let success := Mining.openMiningChannelSuccess .extended
                                msg.requestId c (env.channels.groupChannelId ds.group)
                              ((s.setDownstream d (ds.insertChannel .extended c ch)).note
                                [.sent ⟨d, success, [c]⟩], none)
                        else
                          match s.rewardOutputs payout mode t now with
                          | .error e => (s, some (.disconnect (.configuration e) d))
                          | .ok outputs =>
                              match firstJob t m outputs new with
                              | .error e => (s, some (.shutdown e))
                              | .ok (job, ch) =>
                                  match env.channels.addChannelId ds.group c with
                                  | .error e => (s, some (.shutdown (.channel e)))
                                  | .ok group =>
                                      let notes := s.openingNotes d .extended msg.requestId c
                                        (env.channels.groupChannelId ds.group) payout t m
                                        outputs now new job
                                      let ds := { ds with group := group }
                                      ((s.setDownstream d
                                        (ds.insertChannel .extended c ch)).note notes, none)

/-- `handle_close_channel`. -/
def handleCloseChannel (s : ChannelManager env.channels) (d : DownstreamId) (c : ChannelId) :
    ChannelManager env.channels × Option PoolError :=
  match s.downstreams.lookup d with
  | none => (s, some (.disconnect .downstreamNotFound d))
  | some ds =>
      let group :=
        if c ∈ env.channels.members ds.group then env.channels.removeChannelId ds.group c
        else ds.group
      let ds := { ds with group := group, channels := fun k => (ds.channels k).erase c }
      let s := s.setDownstream d ds
      ({ s with gridpoolChannels := update s.gridpoolChannels (d, c) none }, none)

/-- The answer of the embedded JDS to a custom job. -/
inductive JdsResponse where
  | success
  | error
  | failure (text : String)
  deriving Repr, DecidableEq

/-- `handle_set_custom_mining_job`, given the answer of the embedded JDS. -/
def handleSetCustomMiningJob (s : ChannelManager env.channels) (d : DownstreamId)
    (msg : SetCustomMiningJob) (response : JdsResponse) :
    ChannelManager env.channels × Option PoolError :=
  if !s.jobDeclarator then
    (s.reply d (.setCustomMiningJobError msg.channelId msg.requestId .jdNotSupported), none)
  else
    match response with
    | .failure text => (s, some (.shutdown (.jds text)))
    | .error =>
        (s.reply d (.setCustomMiningJobError msg.channelId msg.requestId .rejected), none)
    | .success =>
        match s.downstreams.lookup d with
        | none => (s, some (.disconnect .downstreamNotFound d))
        | some ds =>
            match (ds.channels .extended).lookup msg.channelId with
            | none =>
                (s.reply d (.setCustomMiningJobError msg.channelId msg.requestId .invalidChannelId),
                  none)
            | some ch =>
                match env.channels.onSetCustomMiningJob ch msg with
                | .error e => (s, some (.disconnect (.channel e) d))
                | .ok (jobId, ch) =>
                    ((s.setDownstream d (ds.insertChannel .extended msg.channelId ch)).reply d
                      (.setCustomMiningJobSuccess msg.channelId msg.requestId jobId), none)

/-! ### Runs -/

/-- What the manager handles, with everything the handler reads from outside. -/
inductive Event where
  | connect (requiresStandardJobs requiresCustomWork : Bool)
  | disconnect (d : DownstreamId)
  | newTemplate (t : NewTemplate) (fetch : Nat → Except String WorkSelection)
      (clock : DownstreamId → ChannelId → UInt64)
  | setNewPrevHash (m : SetNewPrevHash)
  | openChannel (k : ChannelKind) (d : DownstreamId) (msg : OpenMiningChannel)
      (allocated : Except String Bytes) (now : UInt64)
  | closeChannel (d : DownstreamId) (c : ChannelId)
  | setCustomMiningJob (d : DownstreamId) (msg : SetCustomMiningJob) (response : JdsResponse)
  | feeTick (now : UInt64) (clock : DownstreamId → ChannelId → UInt64)
  | poll (response : Except String WorkSelection)

/-- One event. The fee tick only logs its errors. -/
def step (s : ChannelManager env.channels) (e : Event) : ChannelManager env.channels :=
  if !s.running then s
  else
    match e with
    | .connect std custom => settle (s.connect std custom)
    | .disconnect d => s.removeDownstream d
    | .newTemplate t fetch clock => settle (s.handleNewTemplate t fetch clock)
    | .setNewPrevHash m => settle (s.handleSetNewPrevHash m)
    | .openChannel .standard d msg allocated now =>
        settle (s.handleOpenStandardMiningChannel d msg allocated now)
    | .openChannel .extended d msg allocated now =>
        settle (s.handleOpenExtendedMiningChannel d msg allocated now)
    | .closeChannel d c => settle (s.handleCloseChannel d c)
    | .setCustomMiningJob d msg response => settle (s.handleSetCustomMiningJob d msg response)
    | .feeTick now clock => (s.refreshGridpoolFeeJobs now clock).1
    | .poll response => { s with gridpool := s.gridpool.map (·.poll response) }

/-- The parts of `PoolConfig` and of the constructor the model depends on. -/
structure Config where
  coinbaseOutputs : List TxOut
  coinbaseRewardScript : Bytes
  jobDeclarator : Bool
  gridpool : Option GridPoolClient

/-- The state in which the loop of `start` begins, with constraints computed from `outputs`. -/
def initial (config : Config) (outputs : List TxOut) : ChannelManager env.channels where
  downstreams := ∅
  downstreamIdFactory := 1
  coinbaseOutputs := config.coinbaseOutputs
  coinbaseRewardScript := config.coinbaseRewardScript
  lastFutureTemplate := none
  lastNewPrevHash := none
  jobDeclarator := config.jobDeclarator
  gridpool := config.gridpool
  gridpoolChannels := fun _ => none
  constraints := coinbaseOutputConstraintsMessageWithOffset outputs
  running := true
  history := []

/-- `ChannelManager::start` up to its loop: the constraints are computed and sent once. -/
def start (env : Env) (config : Config) (now : UInt64) :
    Except PoolError (ChannelManager env.channels) :=
  let constraintOutputs : Except String (List TxOut) :=
    match config.gridpool with
    | some g => g.constraintOutputs env.readAddress now
    | none => .ok config.coinbaseOutputs
  match constraintOutputs with
  | .error e => .error (.shutdown (.configuration e))
  | .ok outputs => .ok (initial config outputs)

end ChannelManager

/-! ### A reference environment -/

namespace Reference

-- `bc1qrwsx8fs0l6z7ugp5cvzy6lhss7jlyru3kg9s8y` and `bc1qce93hy5rhg02s6aeu7mfdvxg76x66pqqtrvzs3`,
-- written out for evaluation
def fallbackAddress : Text :=
  ['b', 'c', '1', 'q', 'r', 'w', 's', 'x', '8', 'f', 's', '0', 'l', '6', 'z', '7', 'u', 'g',
    'p', '5', 'c', 'v', 'z', 'y', '6', 'l', 'h', 's', 's', '7', 'j', 'l', 'y', 'r', 'u', '3',
    'k', 'g', '9', 's', '8', 'y']

def operatorAddress : Text :=
  ['b', 'c', '1', 'q', 'c', 'e', '9', '3', 'h', 'y', '5', 'r', 'h', 'g', '0', '2', 's', '6',
    'a', 'e', 'u', '7', 'm', 'f', 'd', 'v', 'x', 'g', '7', '6', 'x', '6', '6', 'p', 'q', 'q',
    't', 'r', 'v', 'z', 's', '3']

/-- The script of the fallback address. -/
def fallbackScript : Bytes :=
  [0x00, 0x14, 0x1b, 0xa0, 0x63, 0xa6, 0x0f, 0xfe, 0x85, 0xee, 0x20, 0x34, 0xc3, 0x04, 0x4d,
    0x7e, 0xf0, 0x87, 0xa5, 0xf2, 0x0f, 0x91]

/-- The script of the operator's address. -/
def operatorScript : Bytes :=
  [0x00, 0x14, 0xc6, 0x4b, 0x1b, 0x92, 0x83, 0xba, 0x1e, 0xa8, 0x6b, 0xb9, 0xe7, 0xb6, 0x96,
    0xb0, 0xc8, 0xf6, 0x8d, 0xad, 0x04, 0x00]

/-- The addresses of a small main net address book, with their scripts. -/
def addressBook : List (Text × Bytes) :=
  [(fallbackAddress, fallbackScript), (operatorAddress, operatorScript)]

def readAddress : AddressReader := fun network address =>
  match network, addressBook.lookup address with
  | .bitcoin, some script => .ok script
  | _, _ => .error ("invalid payout address '" ++ String.ofList address ++ "'")

/-- The reference channel types with this address book. -/
def env : Env where
  channels := channels
  readAddress := readAddress
  scriptFromAddress := readAddress .bitcoin

/-- A client without an operator fee, whose selection has these outputs. -/
def client (tip : String) (outputs : List GridPoolOutput) : GridPoolClient where
  config :=
    { fallbackPayoutAddress := fallbackAddress
      operatorFeeAddress := some operatorAddress
      operatorFee := false
      feeDuration := 30
      feeCycleSeconds := 1500 }
  token := (List.range 32).map UInt8.ofNat
  work :=
    { bitcoinNetwork := "mainnet".toList
      currentTipBlockHash := some tip.toList
      coinbaseOutputs := outputs }
  lastTemplateTip := some tip.toList

/-- A selection for the same network. -/
def selection (tip : String) (outputs : List GridPoolOutput) : WorkSelection :=
  (client tip outputs).work

/-- An output of a selection that pays the operator. -/
def suffixOutput (value : UInt64) : GridPoolOutput where
  value := value
  scriptPubKeyHex :=
    ['0', '0', '1', '4', 'c', '6', '4', 'b', '1', 'b', '9', '2', '8', '3', 'b', 'a', '1', 'e',
      'a', '8', '6', 'b', 'b', '9', 'e', '7', 'b', '6', '9', '6', 'b', '0', 'c', '8', 'f', '6',
      '8', 'd', 'a', 'd', '0', '4', '0', '0']

def config (gridpool : Option GridPoolClient) : ChannelManager.Config where
  coinbaseOutputs := [⟨0, operatorScript⟩]
  coinbaseRewardScript := operatorScript
  jobDeclarator := false
  gridpool := gridpool

/-- A pool in GridPool mode, whose selection has one output after slot zero. -/
def gridpoolConfig : ChannelManager.Config := config (some (client "tip" [suffixOutput 100]))

/-- The manager of this pool. -/
def manager : ChannelManager env.channels :=
  .initial gridpoolConfig [⟨1, fallbackScript⟩, ⟨100, operatorScript⟩]

theorem start_manager : ChannelManager.start env gridpoolConfig 0 = .ok manager := by
  have houtputs : (client "tip" [suffixOutput 100]).constraintOutputs env.readAddress 0 =
      .ok [⟨1, fallbackScript⟩, ⟨100, operatorScript⟩] := by
    decide +kernel
  simp only [ChannelManager.start, gridpoolConfig, config, houtputs]
  rfl

def template (id : TemplateId) (future : Bool) (value : UInt64) : NewTemplate where
  templateId := id
  futureTemplate := future
  coinbasePrefix := [0x03, 0x40, 0x0d, 0x03]
  coinbaseTxValueRemaining := value

/-- The previous hash that activates a template, for the block numbered `tip`. -/
def prevHash (id : TemplateId) (tip : UInt8) : SetNewPrevHash where
  templateId := id
  prevHash := List.replicate 32 tip
  headerTimestamp := 1700000000
  nBits := 0x207fffff

def openRequest : OpenMiningChannel where
  requestId := 1
  userIdentity := "garage-rig".toList
  nominalHashRate := 0
  maxTarget := List.replicate 32 0xff
  minExtranonceSize := 4

end Reference

end GridPoolSv2.Pool
