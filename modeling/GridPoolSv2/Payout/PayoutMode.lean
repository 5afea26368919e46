import GridPoolSv2.Lib.Consensus
import Mathlib.Data.UInt

/-!
# Payout.PayoutMode: payout modes and the check of coinbase outputs

The model of `stratum-apps/src/payout.rs`: the `PayoutMode` a `user_identity` stands for,
the outputs a pool builds for it, and the checks a translator runs on an upstream's
coinbase. Amounts are `u64`, and sums and products wrap as they do in a release build.

A payout script is its `script_pubkey` bytes; addresses are texts that only appear in
error values. Reading an address (`script_from_address`) is a parameter of
`PayoutMode.ofUserIdentity`, the reading of a `user_identity`.
-/

namespace GridPoolSv2.Payout

open Consensus (Bytes TxOut)

/-- `PayoutMode`. -/
inductive PayoutMode where
  /-- The miner receives the full reward. -/
  | solo (address : String) (script : Bytes)
  /-- The miner receives at least `minLegacySoloPayoutPercentage` of the spendable outputs. -/
  | legacySolo (address : String) (script : Bytes)
  /-- The pool receives `percentage`, the miner the remainder. -/
  | donate (percentage : UInt8) (address : String) (script : Bytes)
  /-- The pool receives the full reward. -/
  | fullDonation
  deriving Repr, DecidableEq

/-- `PayoutValidationError`. The text of a decoding error is not modelled. -/
inductive PayoutValidationError where
  | noSpendableOutputs
  | payoutMismatch (address : String) (expectedSats : UInt64) (expectedPercentage : UInt8)
      (totalSpendableSats actualSats : UInt64)
  | coinbaseTxSuffixTooShort
  | decodeCoinbaseOutputs
  deriving Repr, DecidableEq

/-- `MIN_LEGACY_SOLO_PAYOUT_PERCENTAGE`. -/
def minLegacySoloPayoutPercentage : UInt8 := 90

/-- `Script::is_op_return`. -/
def isOpReturn (script : Bytes) : Bool :=
  script.head? = some 0x6a

/-- The sum of output values, as `u64`. -/
def sumSats (outputs : List TxOut) : UInt64 :=
  (outputs.map (·.value)).sum

/-- `MAX_VEC_SIZE` of the `bitcoin` crate: the bytes `Decodable::consensus_decode` reads at most. -/
def maxVecSize : Nat := 4000000

/-- `u64::div_ceil(100)`. -/
def divCeil100 (x : UInt64) : UInt64 :=
  if x % 100 = 0 then x / 100 else x / 100 + 1

namespace PayoutMode

/-- `PayoutMode::coinbase_outputs`. -/
def coinbaseOutputs (mode : PayoutMode) (totalValue : UInt64) (poolScript : Bytes) : List TxOut :=
  match mode with
  | .solo _ script | .legacySolo _ script => [⟨totalValue, script⟩]
  | .donate percentage _ script =>
      let poolValue := totalValue * percentage.toUInt64 / 100
      let minerValue := if poolValue ≤ totalValue then totalValue - poolValue else 0
      [⟨poolValue, poolScript⟩, ⟨minerValue, script⟩]
  | .fullDonation => [⟨totalValue, poolScript⟩]

/-- `PayoutMode::miner_script_pubkey` with the address of `PayoutMode::miner_address`. -/
def minerPayout : PayoutMode → Option (String × Bytes)
  | .solo address script | .legacySolo address script | .donate _ address script =>
      some (address, script)
  | .fullDonation => none

/-- `PayoutMode::expected_miner_percentage`. -/
def expectedMinerPercentage : PayoutMode → UInt8
  | .solo _ _ | .legacySolo _ _ => 100
  | .donate percentage _ _ => 100 - percentage
  | .fullDonation => 0

/-- `PayoutMode::expected_miner_sats`. -/
def expectedMinerSats (mode : PayoutMode) (totalSpendableSats : UInt64) : UInt64 :=
  match mode with
  | .solo _ _ | .legacySolo _ _ => totalSpendableSats
  | .donate percentage _ _ =>
      let poolSats := totalSpendableSats * percentage.toUInt64 / 100
      if poolSats ≤ totalSpendableSats then totalSpendableSats - poolSats else 0
  | .fullDonation => 0

/-- `PayoutMode::expected_legacy_solo_miner_sats`. -/
def expectedLegacySoloMinerSats (totalSpendableSats : UInt64) : UInt64 :=
  divCeil100 (totalSpendableSats * minLegacySoloPayoutPercentage.toUInt64)

/-- `PayoutMode::validate_coinbase_outputs`. -/
def validateCoinbaseOutputs (mode : PayoutMode) (outputs : List TxOut) :
    Except PayoutValidationError Unit :=
  match mode.minerPayout with
  | none => .ok ()
  | some (address, script) =>
      let spendable := outputs.filter fun o => !isOpReturn o.scriptPubkey
      let totalSpendableSats := sumSats spendable
      if totalSpendableSats = 0 then .error .noSpendableOutputs
      else
        let actualMinerSats := sumSats (spendable.filter fun o => o.scriptPubkey = script)
        match mode with
        | .legacySolo _ _ =>
            let expected := expectedLegacySoloMinerSats totalSpendableSats
            if actualMinerSats < expected then
              .error (.payoutMismatch address expected minLegacySoloPayoutPercentage
                totalSpendableSats actualMinerSats)
            else .ok ()
        | _ =>
            let expected := mode.expectedMinerSats totalSpendableSats
            if actualMinerSats ≠ expected then
              .error (.payoutMismatch address expected mode.expectedMinerPercentage
                totalSpendableSats actualMinerSats)
            else .ok ()

/-- `PayoutMode::validate_coinbase_tx_suffix`. The bytes after the output vector are not looked
at. -/
def validateCoinbaseTxSuffix (mode : PayoutMode) (coinbaseTxSuffix : Bytes) :
    Except PayoutValidationError Unit :=
  if 4 ≤ coinbaseTxSuffix.length then
    match Consensus.decodeVec TxOut.decode ((coinbaseTxSuffix.drop 4).take maxVecSize) with
    | none => .error .decodeCoinbaseOutputs
    | some (outputs, _) => mode.validateCoinbaseOutputs outputs
  else .error .coinbaseTxSuffixTooShort

end PayoutMode

/-! ### Reading a `user_identity`

The prefixes are tried in the order of the source. The text of an address ends at the first dot. -/

/-- A text of the protocol, as its characters. -/
abbrev Text := List Char

/-- `PayoutModeError`, without the errors of the verification settings. -/
inductive PayoutModeError where
  | noPayoutMode (identity : Text)
  | invalidUserIdentity (identity : Text)
  | invalidPayoutAddress (address : Text) (error : String)
  | invalidDonationPercentage (percentage : Text)
  deriving Repr, DecidableEq

/-- The part of a text before the first separator, or all of it. -/
def upTo (separator : Char) (text : Text) : Text :=
  text.takeWhile (· ≠ separator)

/-- `str::parse::<u8>`: decimal digits after an optional plus sign. -/
def parseU8 (text : Text) : Option UInt8 :=
  let digits := if text.head? = some '+' then text.tail else text
  if digits.isEmpty || !digits.all Char.isDigit then none
  else
    let value := digits.foldl (fun n c => n * 10 + (c.toNat - '0'.toNat)) 0
    if value < 256 then some (UInt8.ofNat value) else none

/-- `PayoutMode::try_from` of a `user_identity`. -/
def PayoutMode.ofUserIdentity (scriptFromAddress : Text → Except String Bytes) (identity : Text) :
    Except PayoutModeError PayoutMode :=
  if identity.isEmpty then .error (.noPayoutMode identity)
  else
    let address := upTo '.' identity
    match scriptFromAddress address with
    | .ok script => .ok (.legacySolo (String.ofList address) script)
    | .error _ =>
        match identity.splitOn '/' with
        | first :: second :: rest =>
            if first ≠ "sri".toList then .error (.noPayoutMode identity)
            else if second = "solo".toList then
              match rest with
              | payout :: _ =>
                  match scriptFromAddress payout with
                  | .ok script => .ok (.solo (String.ofList payout) script)
                  | .error e => .error (.invalidPayoutAddress payout e)
              | [] => .error (.invalidUserIdentity identity)
            else if second = "donate".toList then
              match rest with
              | percentage :: payout :: _ =>
                  match parseU8 percentage with
                  | none => .error (.invalidDonationPercentage percentage)
                  | some p =>
                      if 1 ≤ p ∧ p < 100 then
                        match scriptFromAddress payout with
                        | .ok script => .ok (.donate p (String.ofList payout) script)
                        | .error e => .error (.invalidPayoutAddress payout e)
                      else .error (.invalidDonationPercentage (toString p.toNat).toList)
              | _ => .ok .fullDonation
            else .error (.invalidUserIdentity identity)
        | _ => .error (.noPayoutMode identity)

/-- How an identity names each mode, and how the miner's script is read. -/
def PayoutMode.NamedBy (scriptFromAddress : Text → Except String Bytes) (identity : Text) :
    PayoutMode → Prop
  | .legacySolo address script =>
      identity ≠ [] ∧ address = String.ofList (upTo '.' identity) ∧
        scriptFromAddress (upTo '.' identity) = .ok script
  | .solo address script => ∃ payout rest,
      identity.splitOn '/' = "sri".toList :: "solo".toList :: payout :: rest ∧
        address = String.ofList payout ∧ scriptFromAddress payout = .ok script
  | .donate p address script => ∃ percentage payout rest,
      identity.splitOn '/' = "sri".toList :: "donate".toList :: percentage :: payout :: rest ∧
        parseU8 percentage = some p ∧ 1 ≤ p ∧ p < 100 ∧
          address = String.ofList payout ∧ scriptFromAddress payout = .ok script
  | .fullDonation => True

/-- A mode has the script of the address it names. -/
theorem PayoutMode.namedBy_of_ofUserIdentity {scriptFromAddress : Text → Except String Bytes}
    {identity : Text} {mode : PayoutMode}
    (h : PayoutMode.ofUserIdentity scriptFromAddress identity = .ok mode) :
    mode.NamedBy scriptFromAddress identity := by
  unfold PayoutMode.ofUserIdentity at h
  split at h
  · cases h
  · rename_i hempty
    dsimp only at h
    split at h
    · rename_i script hscript
      obtain rfl := Except.ok.inj h
      exact ⟨fun hnil => hempty (by rw [hnil]; rfl), rfl, hscript⟩
    · split at h
      · rename_i first second rest hsplit
        split at h
        · cases h
        · rename_i hfirst
          obtain rfl := of_not_not hfirst
          split at h
          · rename_i hsecond
            subst hsecond
            split at h
            · rename_i payout rest
              split at h
              · rename_i script hscript
                obtain rfl := Except.ok.inj h
                exact ⟨payout, rest, hsplit, rfl, hscript⟩
              · cases h
            · cases h
          · split at h
            · rename_i hsecond
              subst hsecond
              split at h
              · rename_i percentage payout rest
                split at h
                · cases h
                · rename_i p hp
                  split at h
                  · rename_i hrange
                    split at h
                    · rename_i script hscript
                      obtain rfl := Except.ok.inj h
                      exact ⟨percentage, payout, rest, hsplit, hp, hrange.1, hrange.2, rfl, hscript⟩
                    · cases h
                  · cases h
              · obtain rfl := Except.ok.inj h
                exact trivial
            · cases h
      · cases h

end GridPoolSv2.Payout
