import GridPoolSv2.Payout.PayoutMode
import GridPoolSv2.Pool.Constraints

/-!
# Pool.PayoutConstraints: payout outputs and the coinbase output constraints

Outside GridPool mode the pool computes its coinbase output constraints from its own output, before
any miner is known, and adds 43 bytes and a cost of 4 for the output of a miner
(`stratum-apps/src/coinbase_output_constraints.rs`). The outputs of a job are those of the payout
mode that the miner's identity names.

* `IsAddressScript` lists the scripts of addresses.
* `outputsWithin_iff` says for which modes the outputs stay within the constraints. A miner who is
  paid alone always fits as long as the sizes do not wrap (`hasRoom_of_noWrap`); what is short of
  room is the second output of a donation.
-/

namespace GridPoolSv2.Pool

open Consensus (Bytes TxOut countSigops countSigopsLegacy)
open Payout (Text PayoutMode)

/-! ### Scripts of addresses -/

/-- The scripts of addresses: of a key hash, of a script hash, and of a witness program of any
version. -/
inductive IsAddressScript : Bytes → Prop
  | p2pkh (hash : Bytes) (length : hash.length = 20) :
      IsAddressScript (0x76 :: 0xa9 :: 0x14 :: (hash ++ [0x88, 0xac]))
  | p2sh (hash : Bytes) (length : hash.length = 20) :
      IsAddressScript (0xa9 :: 0x14 :: (hash ++ [0x87]))
  | witness (version : UInt8) (program : Bytes)
      (opcode : version = 0 ∨ 0x51 ≤ version ∧ version ≤ 0x60)
      (length : 2 ≤ program.length ∧ program.length ≤ 40) :
      IsAddressScript (version :: UInt8.ofNat program.length :: program)

/-- The bytes of a push are not counted. -/
theorem countSigops_push (fuel : Nat) {op : UInt8} {data : Bytes} (hop : op ≤ 0x4b)
    (hlength : data.length = op.toNat) (rest : Bytes) :
    countSigops (fuel + 1) (op :: (data ++ rest)) = countSigops fuel rest := by
  have hle : op.toNat ≤ (data ++ rest).length := by
    rw [List.length_append]
    omega
  simp only [countSigops, if_pos hop, if_pos hle, List.drop_left' hlength]

/-- An opcode that neither pushes nor checks a signature. -/
theorem countSigops_other (fuel : Nat) {op : UInt8} (hop : 0x4e < op) (hsig : op < 0xac ∨ 0xaf < op)
    (rest : Bytes) : countSigops (fuel + 1) (op :: rest) = countSigops fuel rest := by
  have hpush : ¬op ≤ 0x4b := by
    rw [UInt8.lt_iff_toNat_lt] at hop
    rw [UInt8.le_iff_toNat_le]
    have hbounds : (0x4e : UInt8).toNat = 0x4e ∧ (0x4b : UInt8).toNat = 0x4b := ⟨rfl, rfl⟩
    omega
  have hcounted : op ≠ 0x4c ∧ op ≠ 0x4d ∧ op ≠ 0x4e := by
    refine ⟨?_, ?_, ?_⟩ <;>
    · rintro rfl
      exact absurd hop (by decide)
  have hchecksig : op ≠ 0xac ∧ op ≠ 0xad ∧ op ≠ 0xae ∧ op ≠ 0xaf := by
    refine ⟨?_, ?_, ?_, ?_⟩ <;>
    · rintro rfl
      exact absurd hsig (by decide)
  simp [countSigops, hpush, hcounted, hchecksig]

theorem countSigops_nil (fuel : Nat) : countSigops fuel [] = 0 := by
  cases fuel <;> rfl

/-- One legacy signature operation at most: that of a key hash. -/
theorem IsAddressScript.bounds {script : Bytes} (h : IsAddressScript script) :
    script.length ≤ 42 ∧ countSigopsLegacy script ≤ 1 := by
  cases h with
  | p2pkh hash hlength =>
      have hscript : (0x76 :: 0xa9 :: 0x14 :: (hash ++ [0x88, 0xac]) : Bytes).length = 24 + 1 := by
        simp [hlength]
      refine ⟨hscript.trans_le (by decide), ?_⟩
      rw [countSigopsLegacy, hscript, countSigops_other _ (by decide) (by decide),
        countSigops_other _ (by decide) (by decide), countSigops_push _ (by decide) hlength,
        countSigops_other _ (by decide) (by decide)]
      decide
  | p2sh hash hlength =>
      have hscript : (0xa9 :: 0x14 :: (hash ++ [0x87]) : Bytes).length = 22 + 1 := by
        simp [hlength]
      refine ⟨hscript.trans_le (by decide), ?_⟩
      rw [countSigopsLegacy, hscript, countSigops_other _ (by decide) (by decide),
        countSigops_push _ (by decide) hlength]
      decide
  | witness version program hopcode hlength =>
      have hpush : (UInt8.ofNat program.length).toNat = program.length := by
        rw [UInt8.toNat_ofNat']
        omega
      have hprogram : ∀ fuel, countSigops (fuel + 1) (UInt8.ofNat program.length :: program) =
        0 := by
        intro fuel
        have hle : UInt8.ofNat program.length ≤ 0x4b := by
          rw [UInt8.le_iff_toNat_le, hpush]
          exact hlength.2.trans (by decide)
        have hskip := countSigops_push fuel hle hpush.symm []
        rwa [List.append_nil, countSigops_nil] at hskip
      have hscript : (version :: UInt8.ofNat program.length :: program).length =
          program.length + 1 + 1 := rfl
      refine ⟨by omega, ?_⟩
      rw [countSigopsLegacy, hscript]
      rcases hopcode with rfl | ⟨hlo, hhi⟩
      · -- OP_0 is an empty push
        have hempty : countSigops (program.length + 1 + 1)
            (0 :: ([] ++ UInt8.ofNat program.length :: program)) = _ :=
          countSigops_push (program.length + 1) (by decide) rfl _
        rw [List.nil_append, hprogram] at hempty
        exact hempty.trans_le (Nat.zero_le _)
      · rw [countSigops_other _ ?_ (.inl ?_), hprogram]
        · exact Nat.zero_le _
        · rw [UInt8.le_iff_toNat_le] at hlo
          rw [UInt8.lt_iff_toNat_lt]
          exact Nat.lt_of_lt_of_le (by decide) hlo
        · rw [UInt8.le_iff_toNat_le] at hhi
          rw [UInt8.lt_iff_toNat_lt]
          exact Nat.lt_of_le_of_lt hhi (by decide)

/-! ### The outputs of a payout mode -/

/-- `PoolConfig::get_txout`. -/
def getTxout (coinbaseRewardScript : Bytes) : TxOut where
  value := 0
  scriptPubkey := coinbaseRewardScript

/-- The outputs of a mode stay within the constraints that the pool computes from its own output. -/
def OutputsWithin (mode : PayoutMode) (total : UInt64) (poolScript : Bytes) : Prop :=
  let constraints := coinbaseOutputConstraintsMessageWithOffset [getTxout poolScript]
  let outputs := mode.coinbaseOutputs total poolScript
  outputsSize outputs ≤ constraints.coinbaseOutputMaxAdditionalSize.toNat ∧
    sigopCost outputs ≤ constraints.coinbaseOutputMaxAdditionalSigops.toNat

/-- The constraints that are computed from a script do not wrap around. -/
def NoWrap (poolScript : Bytes) : Prop :=
  (getTxout poolScript).size + 43 < 2 ^ 32 ∧ 4 * countSigopsLegacy poolScript + 4 < 2 ^ 16

/-- There is room for a mode. In a partial donation the miner's script is next to the pool's and may
have 34 bytes, which is what a taproot script has. Alone, it has the room that the constraints leave
when they wrap around. -/
def HasRoom (poolScript : Bytes) : PayoutMode → Prop
  | .fullDonation => NoWrap poolScript
  | .donate _ _ script => NoWrap poolScript ∧ script.length ≤ 34
  | .solo _ script | .legacySolo _ script =>
      (getTxout script).size ≤ ((getTxout poolScript).size + 43) % 2 ^ 32 ∧
        4 * countSigopsLegacy script ≤ (4 * countSigopsLegacy poolScript + 4) % 2 ^ 16

theorem constraints_getTxout (poolScript : Bytes) :
    let m := coinbaseOutputConstraintsMessageWithOffset [getTxout poolScript]
    m.coinbaseOutputMaxAdditionalSize.toNat = ((getTxout poolScript).size + 43) % 2 ^ 32 ∧
      m.coinbaseOutputMaxAdditionalSigops.toNat =
        (4 * countSigopsLegacy poolScript + 4) % 2 ^ 16 := by
  have hsize := sum_size_toNat [getTxout poolScript]
  have hcost : sigopCost [getTxout poolScript] = 4 * countSigopsLegacy poolScript := rfl
  have htotal : outputsSize [getTxout poolScript] = (getTxout poolScript).size := rfl
  simp only [coinbaseOutputConstraintsMessageWithOffset, coinbaseOutputConstraintsMessage,
    UInt32.toNat_add, UInt16.toNat_add, hsize, hcost, htotal, offsetAdditionalSize, offsetMaxSigops,
    UInt16.toNat_ofNat', Nat.mod_add_mod]
  exact ⟨rfl, rfl⟩

section Outputs

variable (value value' : UInt64) (script script' : Bytes)

theorem outputsSize_one : outputsSize [⟨value, script⟩] = (getTxout script).size := rfl

theorem outputsSize_two :
    outputsSize [⟨value, script⟩, ⟨value', script'⟩] =
      (getTxout script).size + (getTxout script').size := rfl

theorem sigopCost_one : sigopCost [⟨value, script⟩] = 4 * countSigopsLegacy script := rfl

theorem sigopCost_two :
    sigopCost [⟨value, script⟩, ⟨value', script'⟩] =
      4 * countSigopsLegacy script + 4 * countSigopsLegacy script' := rfl

end Outputs

theorem size_getTxout {script : Bytes} (h : script.length ≤ 42) :
    (getTxout script).size = 9 + script.length := by
  have hvar : (Consensus.encodeVarInt script.length).length = 1 := by
    simp [Consensus.encodeVarInt, show script.length < 0xfd by omega]
  simp only [getTxout, TxOut.size, hvar]

/-- Without a wrap there is room for a miner alone. -/
theorem hasRoom_of_noWrap {poolScript script : Bytes} (h : NoWrap poolScript)
    (hscript : IsAddressScript script) (address : String) :
    HasRoom poolScript (.solo address script) := by
  obtain ⟨hsize, hsigops⟩ := h
  obtain ⟨hlength, hone⟩ := hscript.bounds
  have hpool := le_slotZero (getTxout poolScript)
  rw [HasRoom, size_getTxout hlength, Nat.mod_eq_of_lt hsize, Nat.mod_eq_of_lt hsigops]
  omega

/-- For every pool script, every mode whose script is that of an address and every value: the
outputs stay within the constraints exactly if there is room for them. -/
theorem outputsWithin_iff_hasRoom {mode : PayoutMode}
    (hmode : ∀ address script, mode.minerPayout = some (address, script) → IsAddressScript script)
    (total : UInt64) (poolScript : Bytes) :
    OutputsWithin mode total poolScript ↔ HasRoom poolScript mode := by
  obtain ⟨hmaxSize, hmaxSigops⟩ := constraints_getTxout poolScript
  unfold OutputsWithin
  simp only [hmaxSize, hmaxSigops]
  cases mode with
  | solo address script | legacySolo address script =>
      rw [PayoutMode.coinbaseOutputs, outputsSize_one, sigopCost_one, HasRoom]
  | fullDonation =>
      rw [PayoutMode.coinbaseOutputs, outputsSize_one, sigopCost_one, HasRoom, NoWrap]
      omega
  | donate percentage address script =>
      obtain ⟨hlength, hone⟩ := (hmode address script rfl).bounds
      simp only [PayoutMode.coinbaseOutputs]
      rw [outputsSize_two, sigopCost_two, HasRoom, NoWrap, size_getTxout hlength]
      omega

/-- For every pool script, every mode an identity names, with whatever address, and every value. -/
theorem outputsWithin_iff {scriptFromAddress : Text → Except String Bytes}
    (hread : ∀ address script, scriptFromAddress address = .ok script → IsAddressScript script)
    {identity : Text} {mode : PayoutMode}
    (h : PayoutMode.ofUserIdentity scriptFromAddress identity = .ok mode) (total : UInt64)
    (poolScript : Bytes) : OutputsWithin mode total poolScript ↔ HasRoom poolScript mode := by
  have hnamed := PayoutMode.namedBy_of_ofUserIdentity h
  refine outputsWithin_iff_hasRoom ?_ total poolScript
  intro address script hpayout
  cases mode with
  | legacySolo address' script' =>
      obtain ⟨rfl, rfl⟩ := Prod.mk.inj (Option.some.inj hpayout)
      obtain ⟨-, -, hscript⟩ := hnamed
      exact hread _ _ hscript
  | solo address' script' =>
      obtain ⟨rfl, rfl⟩ := Prod.mk.inj (Option.some.inj hpayout)
      obtain ⟨payout, rest, -, -, hscript⟩ := hnamed
      exact hread _ _ hscript
  | donate percentage address' script' =>
      obtain ⟨rfl, rfl⟩ := Prod.mk.inj (Option.some.inj hpayout)
      obtain ⟨percent, payout, rest, -, -, -, -, -, hscript⟩ := hnamed
      exact hread _ _ hscript
  | fullDonation => cases hpayout

/-! ### A long witness program -/

/-- The pool is paid to a key hash of segwit version 0. -/
def keyHashScript : Bytes :=
  0x00 :: 0x14 :: List.replicate 20 3

/-- A witness program of version 1. -/
def programScript (program : Bytes) : Bytes :=
  0x51 :: UInt8.ofNat program.length :: program

/-- One address is known, and its program. -/
def readOnly (program : Bytes) (address : Text) : Except String Bytes :=
  if address = "bc1p".toList then .ok (programScript program) else .error "base58 error"

/-- The parser of the failing case reads an address script. -/
theorem readOnly_isAddressScript {program : Bytes} (h : 2 ≤ program.length ∧ program.length ≤ 40)
    (address : Text) (script : Bytes) (hread : readOnly program address = .ok script) :
    IsAddressScript script := by
  unfold readOnly at hread
  split at hread
  · cases hread
    exact .witness 0x51 program (.inr (by decide)) h
  · cases hread

theorem halfDonation (program : Bytes) :
    PayoutMode.ofUserIdentity (readOnly program) "sri/donate/50/bc1p".toList =
      .ok (.donate 50 "bc1p" (programScript program)) := rfl

/-- The program of a taproot address fits beside the pool's output. -/
theorem outputsWithin_iff_taproot :
    OutputsWithin (.donate 50 "bc1p" (programScript (List.replicate 32 7))) 312500000
      keyHashScript := by
  refine (outputsWithin_iff (readOnly_isAddressScript (by decide)) (halfDonation _) _ _).mpr ?_
  exact ⟨⟨by decide, by decide⟩, by decide⟩

/-- The longest program does not: the outputs have 82 bytes, and the constraints allow 74. -/
theorem long_program_exceeds :
    PayoutMode.ofUserIdentity (readOnly (List.replicate 40 7)) "sri/donate/50/bc1p".toList =
        .ok (.donate 50 "bc1p" (programScript (List.replicate 40 7))) ∧
      outputsSize (PayoutMode.coinbaseOutputs
        (.donate 50 "bc1p" (programScript (List.replicate 40 7))) 312500000 keyHashScript) = 82 ∧
      (coinbaseOutputConstraintsMessageWithOffset
        [getTxout keyHashScript]).coinbaseOutputMaxAdditionalSize = 74 ∧
      ¬ OutputsWithin (.donate 50 "bc1p" (programScript (List.replicate 40 7))) 312500000
        keyHashScript := by
  refine ⟨rfl, by decide, by decide, ?_⟩
  intro h
  exact absurd h.1 (by decide)

end GridPoolSv2.Pool
