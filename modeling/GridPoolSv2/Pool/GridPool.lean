import GridPoolSv2.Lib.Sha256
import GridPoolSv2.Payout.PayoutMode

/-!
# Pool.GridPool: the GridPool client and the coinbase output constraints

The model of `pool/src/lib/gridpool.rs` as far as jobs depend on it, and of
`stratum-apps/src/coinbase_output_constraints.rs`.

A client holds the **work selection** it fetched last. The coinbase of a channel's job
pays slot zero to the channel's payout address, or to the operator while the fee window
of that address is active, and the rest to the outputs of the selection
(`GridPoolClient.coinbaseOutputs`).

Reading an address is a parameter (`AddressReader`). The length of the fee window,
`round(cycle * percent / 100)`, is computed by the source in floating point from the
configuration alone; it is a number of the configuration here, before clamping.
-/

namespace GridPoolSv2.Pool

open Consensus (Bytes TxOut)
open Payout (Text upTo)

/-- `bitcoin::Network`. -/
inductive Network where
  | bitcoin
  | testnet
  | testnet4
  | signet
  | regtest
  deriving Repr, DecidableEq

/-- `GridPoolOutput`. -/
structure GridPoolOutput where
  value : UInt64
  scriptPubKeyHex : Text
  deriving Repr, DecidableEq

/-- `WorkSelection`, with the fields jobs depend on. -/
structure WorkSelection where
  bitcoinNetwork : Text
  currentTipBlockHash : Option Text
  coinbaseOutputs : List GridPoolOutput
  deriving Repr, DecidableEq

/-- `GridPoolConfig`. `operatorFee` says that `operator_fee_percent` is positive, and `feeDuration`
is the length of the fee window that follows from it. -/
structure GridPoolConfig where
  fallbackPayoutAddress : Text
  operatorFeeAddress : Option Text
  operatorFee : Bool
  feeDuration : UInt64
  feeCycleSeconds : UInt64
  deriving Repr, DecidableEq

/-- `ChannelPayout`. -/
structure ChannelPayout where
  payoutAddress : Text
  username : Text
  deriving Repr, DecidableEq

/-- `GridPoolClient`. -/
structure GridPoolClient where
  config : GridPoolConfig
  token : Bytes
  work : WorkSelection
  lastTemplateTip : Option Text
  deriving Repr, DecidableEq

/-- `Address::from_str`, `require_network` and `script_pubkey`. -/
abbrev AddressReader := Network → Text → Except String Bytes

/-- `char::is_whitespace`. -/
def isWhitespace (c : Char) : Bool :=
  let n := c.toNat
  (9 ≤ n && n ≤ 13) || (0x2000 ≤ n && n ≤ 0x200a) ||
    n ∈ [0x20, 0x85, 0xa0, 0x1680, 0x2028, 0x2029, 0x202f, 0x205f, 0x3000]

/-- `str::trim`. -/
def trim (text : Text) : Text :=
  ((text.dropWhile isWhitespace).reverse.dropWhile isWhitespace).reverse

/-- ASCII letters in lower case. -/
def lowerAscii (text : Text) : Text :=
  text.map Char.toLower

/-- `parse_network`. -/
def parseNetwork (value : Text) : Except String Network :=
  let lower := lowerAscii value
  if lower = "mainnet".toList ∨ lower = "bitcoin".toList then .ok .bitcoin
  else if lower = "testnet".toList ∨ lower = "testnet3".toList then .ok .testnet
  else if lower = "testnet4".toList then .ok .testnet4
  else if lower = "signet".toList then .ok .signet
  else if lower = "regtest".toList then .ok .regtest
  else .error ("unsupported Bitcoin network '" ++ String.ofList value ++ "'")

/-- `parse_address`. -/
def parseAddress (read : AddressReader) (value network : Text) : Except String Bytes :=
  match parseNetwork network with
  | .error e => .error e
  | .ok network => read network value

/-- `looks_like_address`. -/
def looksLikeAddress (value : Text) : Bool :=
  let lower := lowerAscii value
  "bc1".toList.isPrefixOf lower || "tb1".toList.isPrefixOf lower ||
    "bcrt1".toList.isPrefixOf lower ||
    (value.head?.any fun c => c ∈ ['1', '3', 'm', 'n', '2'])

/-- The value of a hexadecimal digit. -/
def hexDigit (c : Char) : Option Nat :=
  if '0' ≤ c ∧ c ≤ '9' then some (c.toNat - '0'.toNat)
  else if 'a' ≤ c ∧ c ≤ 'f' then some (c.toNat - 'a'.toNat + 10)
  else if 'A' ≤ c ∧ c ≤ 'F' then some (c.toNat - 'A'.toNat + 10)
  else none

/-- The bytes of pairs of digits. -/
def hexPairs : Text → Option Bytes
  | hi :: lo :: rest =>
      match hexDigit hi, hexDigit lo, hexPairs rest with
      | some h, some l, some bytes => some (UInt8.ofNat (16 * h + l) :: bytes)
      | _, _, _ => none
  | _ => some []

/-- `hex::decode`. The text of an error leaves out which character it is and where it stands. -/
def hexDecode (text : Text) : Except String Bytes :=
  if text.length % 2 ≠ 0 then .error "Odd number of digits"
  else
    match hexPairs text with
    | some bytes => .ok bytes
    | none => .error "Invalid character"

/-- The bytes of a text. -/
def utf8 (text : Text) : Bytes :=
  text.flatMap String.utf8EncodeChar

/-- The first eight bytes of a digest, big-endian. -/
def beWord (digest : Bytes) : UInt64 :=
  UInt64.ofNat ((digest.take 8).foldl (fun n b => n * 256 + b.toNat) 0)

/-- The value of the outputs after slot zero, checked against overflow. -/
def suffixValue (outputs : List GridPoolOutput) : Except String UInt64 :=
  outputs.foldlM (fun (sum : UInt64) o =>
    if sum.toNat + o.value.toNat < 2 ^ 64 then .ok (sum + o.value)
    else .error "GridPool payout suffix overflow") 0

/-- The outputs of a selection after slot zero. -/
def suffixOutputs : List GridPoolOutput → Except String (List TxOut)
  | [] => .ok []
  | o :: rest =>
      match hexDecode o.scriptPubKeyHex with
      | .error e => .error ("invalid GridPool payout script: " ++ e)
      | .ok script =>
          match suffixOutputs rest with
          | .error e => .error e
          | .ok outputs => .ok (⟨o.value, script⟩ :: outputs)

/-- The outputs of a job whose slot zero pays `address`, under a work selection. -/
def outputsFor (read : AddressReader) (work : WorkSelection) (address : Text)
    (totalValue : UInt64) : Except String (List TxOut) :=
  match suffixValue work.coinbaseOutputs with
  | .error e => .error e
  | .ok suffix =>
      if totalValue < suffix then
        .error "GridPool payout suffix exceeds available coinbase value"
      else
        match parseAddress read address work.bitcoinNetwork with
        | .error e => .error e
        | .ok script =>
            match suffixOutputs work.coinbaseOutputs with
            | .error e => .error e
            | .ok outputs => .ok (⟨totalValue - suffix, script⟩ :: outputs)

namespace GridPoolClient

/-- `GridPoolClient::fee_active`. -/
def feeActive (g : GridPoolClient) (payoutAddress : Text) (unixSeconds : UInt64) : Bool :=
  if !g.config.operatorFee || g.config.operatorFeeAddress.isNone then false
  else
    let cycle := max g.config.feeCycleSeconds 1
    let duration := min (max g.config.feeDuration 1) cycle
    let offset := beWord (Sha256.digest (g.token ++ utf8 payoutAddress)) % cycle
    (unixSeconds + cycle - offset) % cycle < duration

/-- The address slot zero pays. -/
def slotZeroAddress (g : GridPoolClient) (payout : ChannelPayout) (fee : Bool) : Text :=
  if fee then g.config.operatorFeeAddress.getD payout.payoutAddress else payout.payoutAddress

/-- `GridPoolClient::coinbase_outputs`, at the time its own clock reads. -/
def coinbaseOutputs (read : AddressReader) (g : GridPoolClient) (payout : ChannelPayout)
    (totalValue now : UInt64) : Except String (List TxOut) :=
  outputsFor read g.work (g.slotZeroAddress payout (g.feeActive payout.payoutAddress now))
    totalValue

/-- `GridPoolClient::constraint_outputs`. -/
def constraintOutputs (read : AddressReader) (g : GridPoolClient) (now : UInt64) :
    Except String (List TxOut) :=
  g.coinbaseOutputs read ⟨g.config.fallbackPayoutAddress, "constraints".toList⟩
    ((g.work.coinbaseOutputs.map (·.value)).sum + 1) now

/-- `GridPoolClient::resolve_channel`. -/
def resolveChannel (read : AddressReader) (g : GridPoolClient) (identity : Text) :
    Except String ChannelPayout :=
  let trimmed := trim identity
  let solo := "sri/solo/".toList
  let explicit :=
    if solo.isPrefixOf trimmed then upTo '/' (trimmed.drop solo.length) else upTo '.' trimmed
  match parseAddress read explicit g.work.bitcoinNetwork with
  | .ok _ => .ok ⟨explicit, trimmed⟩
  | .error e =>
      if looksLikeAddress explicit then .error e
      else .ok ⟨g.config.fallbackPayoutAddress, if trimmed.isEmpty then "sv2".toList else trimmed⟩

/-- `CHAIN_TIP_REFRESH_ATTEMPTS`. -/
def chainTipRefreshAttempts : Nat := 600

/-- The fetch loop of `refresh_for_chain_tip`, with `remaining` attempts left: the selection fetched
last and the last error. The loop ends early at a selection for another tip. -/
def fetchLoop (previousTip : Option Text) (fetch : Nat → Except String WorkSelection) :
    (remaining attempt : Nat) → Option WorkSelection → Option String →
      Option WorkSelection × Option String
  | 0, _, latest, lastError => (latest, lastError)
  | remaining + 1, attempt, latest, lastError =>
      match fetch attempt with
      | .ok work =>
          if previousTip.isNone || work.currentTipBlockHash ≠ previousTip then
            (some work, lastError)
          else fetchLoop previousTip fetch remaining (attempt + 1) (some work) lastError
      | .error e => fetchLoop previousTip fetch remaining (attempt + 1) latest (some e)

/-- `GridPoolClient::refresh_for_chain_tip`, given what the node answers at each attempt. -/
def refreshForChainTip (g : GridPoolClient) (fetch : Nat → Except String WorkSelection) :
    Except String GridPoolClient :=
  let previousTip := g.lastTemplateTip
  match fetchLoop previousTip fetch chainTipRefreshAttempts 0 none none with
  | (none, lastError) =>
      .error ("GridPool returned no work selection after chain-tip refresh: " ++
        lastError.getD "no response")
  | (some work, _) =>
      if previousTip.isSome && work.currentTipBlockHash = previousTip then
        .error "GridPool work selection did not advance to the new chain tip"
      else .ok { g with work := work, lastTemplateTip := work.currentTipBlockHash }

/-- The background poll of `GridPoolClient::start`: an answer replaces the work selection. -/
def poll (g : GridPoolClient) (response : Except String WorkSelection) : GridPoolClient :=
  match response with
  | .ok work => { g with work := work }
  | .error _ => g

end GridPoolClient

/-! ### Coinbase output constraints -/

/-- `CoinbaseOutputConstraints`. -/
structure CoinbaseOutputConstraints where
  coinbaseOutputMaxAdditionalSize : UInt32
  coinbaseOutputMaxAdditionalSigops : UInt16
  deriving Repr, DecidableEq

/-- The serialized size of outputs. -/
def outputsSize (outputs : List TxOut) : Nat :=
  (outputs.map TxOut.size).sum

/-- `total_sigop_cost` of a coinbase with these outputs: its input has no signature operations, and
each legacy one costs four. -/
def sigopCost (outputs : List TxOut) : Nat :=
  (outputs.map fun o => 4 * Consensus.countSigopsLegacy o.scriptPubkey).sum

/-- `OFFSET_ADDITIONAL_SIZE`. -/
def offsetAdditionalSize : UInt32 := 43

/-- `OFFSET_MAX_SIGOPS`. -/
def offsetMaxSigops : UInt16 := 4

/-- `coinbase_output_constraints_message`. The sizes are added as `u32` and the cost is cut to
`u16`. -/
def coinbaseOutputConstraintsMessage (outputs : List TxOut) : CoinbaseOutputConstraints where
  coinbaseOutputMaxAdditionalSize := (outputs.map fun o => UInt32.ofNat o.size).sum
  coinbaseOutputMaxAdditionalSigops := UInt16.ofNat (sigopCost outputs)

/-- `coinbase_output_constraints_message_with_offset`. -/
def coinbaseOutputConstraintsMessageWithOffset (outputs : List TxOut) :
    CoinbaseOutputConstraints :=
  let constraints := coinbaseOutputConstraintsMessage outputs
  { coinbaseOutputMaxAdditionalSize :=
      constraints.coinbaseOutputMaxAdditionalSize + offsetAdditionalSize
    coinbaseOutputMaxAdditionalSigops :=
      constraints.coinbaseOutputMaxAdditionalSigops + offsetMaxSigops }

end GridPoolSv2.Pool
