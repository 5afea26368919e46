import GridPoolSv2.Lib.Consensus
import Mathlib.Data.List.AList

/-!
# BitcoinCoreSv2.TemplateDistribution: templates from Bitcoin Core over IPC

The model of `bitcoin-core-sv2/src/unix_capnp/v31x/template_distribution_protocol/`. One instance
runs a few local tasks over shared cells: the monitor that waits for the next template, the loop
over incoming messages, and one sleeping task for each set of stale templates.

* The tasks only meet at their `await`s, so an `Event` is what one task does between two of them.
  Events carry what Bitcoin Core answers. The channels are unbounded, and a `send` is no `await`.
* A constraints update waits for the monitor to end, asks for a new block template and starts a
  new monitor. No message is handled in the meantime.
* `publications` and `marked` are **ghost** data: the templates that were stored, in order, and
  the ids that were ever in `stale_template_ids`.
-/

namespace GridPoolSv2.BitcoinCoreSv2

open Consensus (Bytes TxOut Transaction)

/-- The ids of an `AtomicU64` that starts at zero. -/
abbrev TemplateId := Nat

/-! ### Template data -/

/-- The parts of `bitcoin::block::Header` that are sent on. -/
structure Header where
  version : Int32
  prevBlockhash : Bytes
  time : UInt32
  bits : UInt32
  deriving Repr, DecidableEq

/-- The transaction of `coinbase_tx_from_ipc`, with its one input. -/
structure CoinbaseTx where
  version : Int32
  scriptSig : Bytes
  sequence : UInt32
  output : List TxOut
  lockTime : UInt32
  deriving Repr, DecidableEq

/-- What `fetch_template_data` reads over IPC. -/
structure BlockTemplate where
  header : Header
  coinbaseTx : CoinbaseTx
  blockRewardRemaining : UInt64
  merklePath : List Bytes
  deriving Repr, DecidableEq

/-- `TemplateData`. -/
structure TemplateData extends BlockTemplate where
  templateId : TemplateId
  deriving Repr, DecidableEq

/-- `get_prev_hash`. -/
def BlockTemplate.prevHash (b : BlockTemplate) : Bytes := b.header.prevBlockhash

/-- `NewTemplate`. -/
structure NewTemplate where
  templateId : TemplateId
  futureTemplate : Bool
  version : UInt32
  coinbaseTxVersion : UInt32
  coinbasePrefix : Bytes
  coinbaseTxInputSequence : UInt32
  coinbaseTxValueRemaining : UInt64
  coinbaseTxOutputsCount : UInt32
  coinbaseTxOutputs : Bytes
  coinbaseTxLocktime : UInt32
  merklePath : List Bytes
  deriving Repr, DecidableEq

/-- `SetNewPrevHash`, without the target that follows from `n_bits`. -/
structure SetNewPrevHash where
  templateId : TemplateId
  prevHash : Bytes
  headerTimestamp : UInt32
  nBits : UInt32
  deriving Repr, DecidableEq

/-- `SubmitSolution`. -/
structure SubmitSolution where
  templateId : TemplateId
  version : UInt32
  headerTimestamp : UInt32
  headerNonce : UInt32
  coinbaseTx : Bytes
  deriving Repr, DecidableEq

/-- The messages for the Sv2 side. -/
inductive TemplateDistribution where
  | newTemplate (message : NewTemplate)
  | setNewPrevHash (message : SetNewPrevHash)
  | requestTransactionDataSuccess (templateId : TemplateId) (transactionList : List Bytes)
      (excessData : Bytes)
  | requestTransactionDataError (templateId : TemplateId) (errorCode : String)
  deriving Repr, DecidableEq

/-- `TemplateDataError`. -/
inductive TemplateDataError where
  | invalidBlockVersion
  | invalidCoinbaseTxVersion
  | invalidCoinbaseScriptSig
  | failedToSerializeCoinbaseOutputs
  | failedToConvertMerklePathHashToU256
  | failedToCreateMerklePathSeq
  deriving Repr, DecidableEq

/-- The errors of `BitcoinCoreSv2TDPError` that the handlers return. -/
inductive BitcoinCoreSv2TDPError where
  | templateNotFound
  | failedToSendNewTemplateMessage
  | failedToSendSetNewPrevHashMessage
  | failedToFetchTemplateTxData
  | failedToSendRequestTransactionDataResponseMessage
  | failedToSubmitSolution
  | failedToCreateSolutionDir
  deriving Repr, DecidableEq

/-- `i32` to `u32`. -/
def toU32 (v : Int32) : Option UInt32 :=
  if 0 ≤ v.toInt then some (UInt32.ofNat v.toInt.toNat) else none

/-- `get_merkle_path`: at most 255 hashes of 32 bytes. -/
def BlockTemplate.getMerklePath (b : BlockTemplate) : Except TemplateDataError (List Bytes) :=
  if b.merklePath.any fun h => h.length ≠ 32 then .error .failedToConvertMerklePathHashToU256
  else if 255 < b.merklePath.length then .error .failedToCreateMerklePathSeq
  else .ok b.merklePath

/-- `get_serialized_required_coinbase_outputs`. -/
def BlockTemplate.getSerializedRequiredCoinbaseOutputs (b : BlockTemplate) :
    Except TemplateDataError Bytes :=
  let outputs := b.coinbaseTx.output.flatMap TxOut.encode
  if 65535 < outputs.length then .error .failedToSerializeCoinbaseOutputs else .ok outputs

/-- `get_new_template_message`. -/
def TemplateData.getNewTemplateMessage (d : TemplateData) (futureTemplate : Bool) :
    Except TemplateDataError NewTemplate :=
  match toU32 d.header.version with
  | none => .error .invalidBlockVersion
  | some version =>
      match toU32 d.coinbaseTx.version with
      | none => .error .invalidCoinbaseTxVersion
      | some coinbaseTxVersion =>
          if 255 < d.coinbaseTx.scriptSig.length then .error .invalidCoinbaseScriptSig
          else
            match d.getSerializedRequiredCoinbaseOutputs with
            | .error e => .error e
            | .ok coinbaseTxOutputs =>
                match d.getMerklePath with
                | .error e => .error e
                | .ok merklePath =>
                    .ok {
                      templateId := d.templateId
                      futureTemplate := futureTemplate
                      version := version
                      coinbaseTxVersion := coinbaseTxVersion
                      coinbasePrefix := d.coinbaseTx.scriptSig
                      coinbaseTxInputSequence := d.coinbaseTx.sequence
                      coinbaseTxValueRemaining := d.blockRewardRemaining
                      coinbaseTxOutputsCount := UInt32.ofNat d.coinbaseTx.output.length
                      coinbaseTxOutputs := coinbaseTxOutputs
                      coinbaseTxLocktime := d.coinbaseTx.lockTime
                      merklePath := merklePath }

/-- `get_set_new_prev_hash_message`. -/
def TemplateData.getSetNewPrevHashMessage (d : TemplateData) : SetNewPrevHash where
  templateId := d.templateId
  prevHash := d.prevHash
  headerTimestamp := d.header.time
  nBits := d.header.bits

/-- Whether a template can be sent does not depend on its flag. -/
theorem TemplateData.getNewTemplateMessage_isOk (d : TemplateData) (f f' : Bool) :
    (d.getNewTemplateMessage f).isOk = (d.getNewTemplateMessage f').isOk := by
  unfold getNewTemplateMessage
  split
  · rfl
  · split
    · rfl
    · split
      · rfl
      · split
        · rfl
        · split <;> rfl

/-! ### The state -/

/-- A template that was stored. -/
structure Publication where
  templateId : TemplateId
  prevHash : Bytes
  /-- It was sent with a previous hash that differs from the one before. -/
  tipChange : Bool
  deriving Repr, DecidableEq

/-- Where the task of `monitor_ipc_templates` is. -/
inductive MonitorTask where
  | off
  | waitNext
  | fetching (templateId : TemplateId)
  deriving Repr, DecidableEq

/-- Where `run` and then the task of `monitor_incoming_messages` are. -/
inductive IncomingTask where
  | firstConstraints
  /-- Waiting for the monitor to end, and for `createNewBlock`. -/
  | bootstrapping
  | fetching (templateId : TemplateId)
  | listening
  | stopped
  deriving Repr, DecidableEq

/-- `BitcoinCoreSv2TDP`. -/
structure BitcoinCoreSv2TDP where
  currentPrevHash : Option Bytes
  templateData : AList fun _ : TemplateId => TemplateData
  staleTemplateIds : List TemplateId
  templateIdFactory : TemplateId
  /-- The sets of the tasks of `process_stale_template_data` that sleep. -/
  removals : List (List TemplateId)
  monitor : MonitorTask
  incoming : IncomingTask
  /-- What was sent to the Sv2 side, and whether anybody receives it. -/
  outgoing : List TemplateDistribution
  outgoingOpen : Bool
  /-- The solutions that were handed to Bitcoin Core. -/
  solutions : List (TemplateData × SubmitSolution)
  globalCancellationToken : Bool
  publications : List Publication
  marked : List TemplateId

namespace BitcoinCoreSv2TDP

/-- `BitcoinCoreSv2TDP::new`. -/
def new : BitcoinCoreSv2TDP where
  currentPrevHash := none
  templateData := ∅
  staleTemplateIds := []
  templateIdFactory := 0
  removals := []
  monitor := .off
  incoming := .firstConstraints
  outgoing := []
  outgoingOpen := true
  solutions := []
  globalCancellationToken := false
  publications := []
  marked := []

/-- A message for the Sv2 side. -/
def send (m : TemplateDistribution) (s : BitcoinCoreSv2TDP) : Option BitcoinCoreSv2TDP :=
  if s.outgoingOpen then some { s with outgoing := s.outgoing ++ [m] } else none

/-- `current_template_ids`. -/
def currentTemplateIds (s : BitcoinCoreSv2TDP) : List TemplateId :=
  s.templateData.keys

/-- `store_template_data`. -/
def storeTemplateData (d : TemplateData) (s : BitcoinCoreSv2TDP) : BitcoinCoreSv2TDP :=
  { s with templateData := s.templateData.insert d.templateId d }

/-- Whether a publication is a tip change that reaches the Sv2 side. -/
def changesTip (s : BitcoinCoreSv2TDP) (d : TemplateData) (sendSetNewPrevHash : Bool) : Bool :=
  sendSetNewPrevHash && s.outgoingOpen && s.currentPrevHash != some d.prevHash

/-- `publish_template`. -/
def publishTemplate (d : TemplateData) (futureTemplate sendSetNewPrevHash : Bool)
    (s : BitcoinCoreSv2TDP) : BitcoinCoreSv2TDP × Except BitcoinCoreSv2TDPError Unit :=
  match d.getNewTemplateMessage futureTemplate with
  | .error _ => (s, .error .failedToSendNewTemplateMessage)
  | .ok newTemplate =>
      let publication : Publication := ⟨d.templateId, d.prevHash, s.changesTip d sendSetNewPrevHash⟩
      let s := { s.storeTemplateData d with
        currentPrevHash := if sendSetNewPrevHash then some d.prevHash else s.currentPrevHash
        publications := s.publications ++ [publication] }
      match s.send (.newTemplate newTemplate) with
      | none => (s, .error .failedToSendNewTemplateMessage)
      | some s =>
          if sendSetNewPrevHash then
            match s.send (.setNewPrevHash d.getSetNewPrevHashMessage) with
            | none => (s, .error .failedToSendSetNewPrevHashMessage)
            | some s => (s, .ok ())
          else (s, .ok ())

/-- `process_stale_template_data`: the task is spawned, and sleeps. -/
def processStaleTemplateData (ids : List TemplateId) (s : BitcoinCoreSv2TDP) : BitcoinCoreSv2TDP :=
  { s with removals := s.removals ++ [ids] }

/-! ### The tasks -/

/-- The monitor gives up, and so does everything else. -/
def stopMonitor (s : BitcoinCoreSv2TDP) : BitcoinCoreSv2TDP :=
  { s with monitor := .off, globalCancellationToken := true }

/-- So does the loop over incoming messages. -/
def stopIncoming (s : BitcoinCoreSv2TDP) : BitcoinCoreSv2TDP :=
  { s with incoming := .stopped, globalCancellationToken := true }

/-- The monitor, once the data of the next template was fetched. -/
def monitorTemplate (id : TemplateId) (fetched : Option BlockTemplate) (s : BitcoinCoreSv2TDP) :
    BitcoinCoreSv2TDP :=
  match fetched, s.currentPrevHash with
  | none, _ | _, none => s.stopMonitor
  | some b, some currentPrevHash =>
      let newTemplateData : TemplateData := { b with templateId := id }
      if newTemplateData.prevHash ≠ currentPrevHash then
        let staleTemplateIds := s.currentTemplateIds
        match s.publishTemplate newTemplateData true true with
        | (s, .error _) => s.stopMonitor
        | (s, .ok _) => { s with monitor := .waitNext }.processStaleTemplateData staleTemplateIds
      else
        match s.publishTemplate newTemplateData false false with
        | (s, .error _) => s.stopMonitor
        | (s, .ok _) => { s with monitor := .waitNext }

/-- `bootstrap_template_ipc_client_from_coinbase_output_constraints`, once the template data was
fetched, and the start of the new monitor. -/
def bootstrapTemplate (id : TemplateId) (fetched : Option BlockTemplate) (s : BitcoinCoreSv2TDP) :
    BitcoinCoreSv2TDP :=
  match fetched with
  | none => s.stopIncoming
  | some b =>
      match s.publishTemplate { b with templateId := id } true true with
      | (s, .error _) => s.stopIncoming
      | (s, .ok _) => { s with incoming := .listening, monitor := .waitNext }

/-- The answer of `handle_request_transaction_data`. `fetched` is what Bitcoin Core has for the
template. -/
def answer (id : TemplateId) (fetched : Option (List Bytes)) (s : BitcoinCoreSv2TDP) :
    Except BitcoinCoreSv2TDPError TemplateDistribution :=
  if id ∈ s.staleTemplateIds then .ok (.requestTransactionDataError id "stale-template-id")
  else
    match s.templateData.lookup id with
    | none => .ok (.requestTransactionDataError id "template-id-not-found")
    | some d =>
        match fetched with
        | none => .error .failedToFetchTemplateTxData
        | some transactionList =>
            .ok (.requestTransactionDataSuccess d.templateId transactionList [])

/-- `handle_request_transaction_data`. -/
def handleRequestTransactionData (id : TemplateId) (fetched : Option (List Bytes))
    (s : BitcoinCoreSv2TDP) : BitcoinCoreSv2TDP × Except BitcoinCoreSv2TDPError Unit :=
  match s.answer id fetched with
  | .error e => (s, .error e)
  | .ok m =>
      match s.send m with
      | none => (s, .error .failedToSendRequestTransactionDataResponseMessage)
      | some s => (s, .ok ())

/-- `handle_submit_solution`. `solutionsDir` says whether the directory for solutions exists or
could be created, `accepted` what Bitcoin Core answers. -/
def handleSubmitSolution (m : SubmitSolution) (solutionsDir accepted : Bool)
    (s : BitcoinCoreSv2TDP) : BitcoinCoreSv2TDP × Except BitcoinCoreSv2TDPError Unit :=
  match s.templateData.lookup m.templateId with
  | none => (s, .error .templateNotFound)
  | some d =>
      if solutionsDir then
        match Transaction.deserialize m.coinbaseTx with
        | none => (s, .error .failedToSubmitSolution)
        | some _ =>
            ({ s with solutions := s.solutions ++ [(d, m)] },
              if accepted then .ok () else .error .failedToSubmitSolution)
      else (s, .error .failedToCreateSolutionDir)

/-- The task of `process_stale_template_data` after its sleep. `destroyed` says whether the IPC
clients of the removed templates could be destroyed. -/
def removeStale (i : Nat) (destroyed : Bool) (s : BitcoinCoreSv2TDP) : BitcoinCoreSv2TDP :=
  match s.removals[i]? with
  | none => s
  | some ids =>
      { s with
        staleTemplateIds := ids
        templateData := ids.foldl (fun m id => m.erase id) s.templateData
        removals := s.removals.eraseIdx i
        globalCancellationToken := s.globalCancellationToken || !destroyed
        marked := s.marked ++ ids }

/-! ### Runs -/

/-- The answer to `waitNext`. -/
inductive WaitNext where
  | template
  | timeout
  | failed
  deriving Repr, DecidableEq

/-- What a task does between two `await`s. -/
inductive Event where
  | coinbaseOutputConstraints
  | createNewBlock (created : Bool)
  | bootstrapFetched (fetched : Option BlockTemplate)
  | waitNext (result : WaitNext)
  | monitorFetched (fetched : Option BlockTemplate)
  | monitorCancelled (interrupted : Bool)
  | requestTransactionData (templateId : TemplateId) (fetched : Option (List Bytes))
  | submitSolution (message : SubmitSolution) (solutionsDir accepted : Bool)
  | removeStale (i : Nat) (destroyed : Bool)
  | cancel
  | receiverDropped

/-- One event. An event of a task that is elsewhere does nothing. -/
def step (s : BitcoinCoreSv2TDP) : Event → BitcoinCoreSv2TDP
  | .coinbaseOutputConstraints =>
      match s.incoming with
      | .firstConstraints | .listening => { s with incoming := .bootstrapping }
      | _ => s
  | .createNewBlock created =>
      match s.incoming, s.monitor with
      | .bootstrapping, .off =>
          if created then
            { s with
              incoming := .fetching s.templateIdFactory
              templateIdFactory := s.templateIdFactory + 1 }
          else s.stopIncoming
      | _, _ => s
  | .bootstrapFetched fetched =>
      match s.incoming with
      | .fetching id => s.bootstrapTemplate id fetched
      | _ => s
  | .waitNext result =>
      match s.monitor, result with
      | .waitNext, .template =>
          { s with
            monitor := .fetching s.templateIdFactory
            templateIdFactory := s.templateIdFactory + 1 }
      | .waitNext, .failed => s.stopMonitor
      | _, _ => s
  | .monitorFetched fetched =>
      match s.monitor with
      | .fetching id => s.monitorTemplate id fetched
      | _ => s
  | .monitorCancelled interrupted =>
      if s.monitor = .waitNext ∧ (s.incoming = .bootstrapping ∨
        s.globalCancellationToken = true) then
        { s with
          monitor := .off
          globalCancellationToken := s.globalCancellationToken || !interrupted }
      else s
  | .requestTransactionData id fetched =>
      match s.incoming with
      | .listening =>
          match s.handleRequestTransactionData id fetched with
          | (s, .ok _) => s
          | (s, .error _) => s.stopIncoming
      | _ => s
  | .submitSolution m solutionsDir accepted =>
      match s.incoming with
      -- an error is only logged
      | .listening => (s.handleSubmitSolution m solutionsDir accepted).1
      | _ => s
  | .removeStale i destroyed => s.removeStale i destroyed
  | .cancel => { s with globalCancellationToken := true }
  | .receiverDropped => { s with outgoingOpen := false }

end BitcoinCoreSv2TDP

end GridPoolSv2.BitcoinCoreSv2
