import GridPoolSv2.Lib.TxWeight
import GridPoolSv2.Payout.Verification

/-!
# Payout.Distribution: the outputs a pool builds and the check of its clients

`coinbase_outputs` is what a pool pays in a payout mode, and `validate_coinbase_outputs` is
what a translator or a job declarator client checks an upstream's coinbase with. A coinbase
may have `OP_RETURN` outputs besides the ones the pool builds, and reaches the client as
bytes.

* `coinbaseOutputs_sats`: the built outputs add up to the total, and the pool's part of a
  partial donation is rounded down.
* `built_accepted_iff`: the client accepts them unless its check cannot tell the two
  outputs of a partial donation apart. That is so when the pool's script is the miner's own,
  and when it is an `OP_RETURN`, whose output the client does not count.
* `agrees_iff` adds the way through the serialized suffix, of which the client reads a
  bounded number of bytes.

That the script of an address is no `OP_RETURN` is a property of the address reader.
-/

namespace GridPoolSv2.Payout

open Consensus (Bytes TxOut)

/-! ### Sums of appended outputs -/

/-- `OP_RETURN` outputs do not count. -/
theorem spendable_append_opReturns (outputs : List TxOut) {opReturns : List TxOut}
    (hop : ∀ o ∈ opReturns, isOpReturn o.scriptPubkey = true) :
    spendable (outputs ++ opReturns) = spendable outputs := by
  have hnone : opReturns.filter (fun o => !isOpReturn o.scriptPubkey) = [] := by
    rw [List.filter_eq_nil_iff]
    intro o ho
    simp [hop o ho]
  rw [spendable, List.filter_append, hnone, List.append_nil, spendable]

/-- The check looks at the spendable outputs only. -/
theorem validateCoinbaseOutputs_congr (mode : PayoutMode) {outputs outputs' : List TxOut}
    (h : spendable outputs = spendable outputs') :
    mode.validateCoinbaseOutputs outputs = mode.validateCoinbaseOutputs outputs' := by
  simp only [spendable] at h
  simp only [PayoutMode.validateCoinbaseOutputs, h]

/-! ### What the pool builds -/

/-- The pool's part of a total. -/
def PayoutMode.poolPart (mode : PayoutMode) (total : Nat) : Nat :=
  match mode with
  | .solo _ _ | .legacySolo _ _ => 0
  | .donate percentage _ _ => total * percentage.toNat / 100
  | .fullDonation => total

/-- The amounts of a partial donation, when the product does not wrap. -/
theorem donate_outputs (percentage : UInt8) (address : String) (script poolScript : Bytes)
    {total : UInt64} (hp : percentage.toNat ≤ 100) (htotal : 100 * total.toNat < 2 ^ 64) :
    ∃ pool miner : UInt64,
      (PayoutMode.donate percentage address script).coinbaseOutputs total poolScript =
        [⟨pool, poolScript⟩, ⟨miner, script⟩] ∧
      pool.toNat = total.toNat * percentage.toNat / 100 ∧
      miner.toNat = total.toNat - total.toNat * percentage.toNat / 100 := by
  have hproduct : total.toNat * percentage.toNat ≤ total.toNat * 100 := Nat.mul_le_mul_left _ hp
  have hpool : (total * percentage.toUInt64 / 100).toNat = total.toNat * percentage.toNat /
    100 := by
    have hdiv : (total * percentage.toUInt64 / 100).toNat =
        (total * percentage.toUInt64).toNat / 100 := rfl
    rw [hdiv, UInt64.toNat_mul, UInt8.toNat_toUInt64, Nat.mod_eq_of_lt (by omega)]
  refine ⟨_, _, rfl, hpool, ?_⟩
  rw [saturatingSub_toNat, hpool]

/-- The built outputs add up to the total. -/
theorem coinbaseOutputs_sats {mode : PayoutMode} {total : UInt64} (hrate : mode.rate ≤ 100)
    (htotal : 100 * total.toNat < 2 ^ 64) (poolScript : Bytes) :
    exactSats (mode.coinbaseOutputs total poolScript) = total.toNat := by
  cases mode with
  | solo a s => simp [PayoutMode.coinbaseOutputs]
  | legacySolo a s => simp [PayoutMode.coinbaseOutputs]
  | donate p a s =>
      obtain ⟨pool, miner, heq, hpool, hminer⟩ := donate_outputs p a s poolScript hrate htotal
      have hproduct : total.toNat * p.toNat ≤ total.toNat * 100 := Nat.mul_le_mul_left _ hrate
      simp [heq, hpool, hminer]
      omega
  | fullDonation => simp [PayoutMode.coinbaseOutputs]

/-! ### What the client accepts -/

/-- The check tells the two outputs of a partial donation apart, or a rounding hides that it does
not. -/
def PayoutMode.Separate (mode : PayoutMode) (poolScript : Bytes) (total : Nat) : Prop :=
  match mode with
  | .donate percentage _ script =>
      (poolScript = script → total * percentage.toNat < 100) ∧
        (isOpReturn poolScript = true →
          (total - mode.poolPart total) * percentage.toNat < 100)
  | _ => True

/-- The two sums of the check, for one output that pays the miner. -/
theorem sats_singleton {script : Bytes} (hscript : isOpReturn script = false) (value : UInt64) :
    totalSats [⟨value, script⟩] = value.toNat ∧
      minerSats script [⟨value, script⟩] = value.toNat := by
  simp [totalSats, minerSats, spendable, hscript]

/-- The same for the outputs of a partial donation. -/
theorem sats_pair {script : Bytes} (hscript : isOpReturn script = false) (poolScript : Bytes)
    (pool miner : UInt64) :
    totalSats [⟨pool, poolScript⟩, ⟨miner, script⟩] =
        (if isOpReturn poolScript then 0 else pool.toNat) + miner.toNat ∧
      minerSats script [⟨pool, poolScript⟩, ⟨miner, script⟩] =
        (if poolScript = script then pool.toNat else 0) + miner.toNat := by
  by_cases heq : poolScript = script
  · subst heq
    simp [totalSats, minerSats, spendable, hscript]
  · cases hop : isOpReturn poolScript with
    | true => simp [totalSats, minerSats, spendable, hscript, hop, heq]
    | false => simp [totalSats, minerSats, spendable, hscript, hop, heq]

/-- The client accepts what the pool builds exactly if it can tell the outputs apart. -/
theorem built_accepted_iff {mode : PayoutMode} (poolScript : Bytes) {total : UInt64}
    (hscript : ∀ address script, mode.minerPayout = some (address, script) →
      isOpReturn script = false)
    (hrate : mode.rate < 100) (hpos : 1 ≤ total.toNat) (htotal : 100 * total.toNat < 2 ^ 64) :
    mode.validateCoinbaseOutputs (mode.coinbaseOutputs total poolScript) = .ok () ↔
      mode.Separate poolScript total.toNat := by
  have hlt : ¬ 2 ^ 64 ∣ total.toNat := fun hdvd => by
    have hle := Nat.le_of_dvd hpos hdvd
    omega
  cases mode with
  | solo a s =>
      obtain ⟨ht, hm⟩ := sats_singleton (hscript a s rfl) total
      rw [validateCoinbaseOutputs_eq_ok_iff rfl]
      simp only [PayoutMode.coinbaseOutputs, ht, hm]
      exact ⟨fun _ => trivial, fun _ => ⟨hlt, rfl⟩⟩
  | legacySolo a s =>
      obtain ⟨ht, hm⟩ := sats_singleton (hscript a s rfl) total
      have hmod : total.toNat % 2 ^ 64 = total.toNat := Nat.mod_eq_of_lt (by omega)
      have hninety : 90 * total.toNat % 2 ^ 64 = 90 * total.toNat := Nat.mod_eq_of_lt (by omega)
      rw [validateCoinbaseOutputs_eq_ok_iff rfl]
      simp only [PayoutMode.coinbaseOutputs, ht, hm]
      refine ⟨fun _ => trivial, fun _ => ⟨hlt, ?_⟩⟩
      show 90 * total.toNat % 2 ^ 64 ≤ 100 * (total.toNat % 2 ^ 64)
      rw [hmod, hninety]
      omega
  | donate p a s =>
      obtain ⟨pool, miner, heq, hpool, hminer⟩ := donate_outputs p a s poolScript hrate.le htotal
      have hs := hscript a s rfl
      obtain ⟨ht, hm⟩ := sats_pair hs poolScript pool miner
      rw [validateCoinbaseOutputs_eq_ok_iff rfl, heq, ht, hm]
      have hp : p.toNat < 100 := hrate
      have hproduct : total.toNat * p.toNat ≤ total.toNat * 99 :=
        Nat.mul_le_mul_left _ (by omega)
      have hle : miner.toNat * p.toNat ≤ total.toNat * p.toNat :=
        Nat.mul_le_mul_right _ (by omega)
      by_cases hsame : poolScript = s
      · -- both outputs go to the miner: the check wants the pool's part to be nothing
        subst hsame
        have hsum : pool.toNat + miner.toNat = total.toNat := by omega
        simp only [hs, if_true, Bool.false_eq_true, if_false, hsum]
        rw [residuesAgree_iff_paysShare (.donate p a poolScript) le_rfl
          ⟨by omega, show total.toNat * p.toNat < 2 ^ 64 by omega⟩]
        simp only [PayoutMode.Separate, PayoutMode.PaysShare, hs, hlt, Bool.false_eq_true,
          false_implies, true_implies, not_false_eq_true, true_and, and_true]
        omega
      · cases hop : isOpReturn poolScript with
        | true =>
            -- the check takes the miner's output for the total and deducts the pool's part again
            simp only [hsame, if_true, if_false, Nat.zero_add]
            rw [residuesAgree_iff_paysShare (.donate p a s) le_rfl
              ⟨by omega, show miner.toNat * p.toNat < 2 ^ 64 by omega⟩]
            simp only [PayoutMode.Separate, PayoutMode.PaysShare, PayoutMode.poolPart, hsame, hop,
              ← hminer, false_implies, true_implies, true_and]
            omega
        | false =>
            -- both outputs count, once each
            have hsum : pool.toNat + miner.toNat = total.toNat := by omega
            simp only [hsame, Bool.false_eq_true, if_false, Nat.zero_add, hsum]
            rw [residuesAgree_iff_paysShare (.donate p a s) (by omega)
              ⟨by omega, show total.toNat * p.toNat < 2 ^ 64 by omega⟩]
            simp only [PayoutMode.Separate, PayoutMode.PaysShare, hsame, hop, hlt, hminer,
              Bool.false_eq_true, false_implies, not_false_eq_true, and_self]
  | fullDonation => simp [PayoutMode.validateCoinbaseOutputs, PayoutMode.minerPayout,
      PayoutMode.Separate]

/-! ### Through the serialized suffix -/

/-- The check of a suffix is the check of its outputs, as far as the reader gets. -/
theorem validateCoinbaseTxSuffix_encodeVec (mode : PayoutMode) {sequence : Bytes}
    {outputs : List TxOut} (hsequence : sequence.length = 4) (hlen : outputs.length < 2 ^ 64)
    (hfits : ∀ o ∈ outputs, o.WellFormed) (after : Bytes) :
    mode.validateCoinbaseTxSuffix (sequence ++ (TxOut.encodeVec outputs ++ after)) =
      if (TxOut.encodeVec outputs).length ≤ maxVecSize then mode.validateCoinbaseOutputs outputs
      else .error .decodeCoinbaseOutputs := by
  have hlong : 4 ≤ (sequence ++ (TxOut.encodeVec outputs ++ after)).length := by
    rw [List.length_append, hsequence]
    exact Nat.le_add_right _ _
  rw [PayoutMode.validateCoinbaseTxSuffix, if_pos hlong, ← hsequence, List.drop_left,
    TxOut.decodeVec_take hlen hfits]
  by_cases hread : (TxOut.encodeVec outputs).length ≤ maxVecSize
  · simp only [hread, if_true]
  · simp only [hread, if_false]

/-- The builder and the check agree on a coinbase that carries `opReturns` besides the built
outputs. -/
structure PayoutMode.Agrees (mode : PayoutMode) (poolScript : Bytes) (total : UInt64)
    (opReturns : List TxOut) : Prop where
  sums : exactSats (mode.coinbaseOutputs total poolScript) = total.toNat
  floor : ∀ percentage address script, mode = .donate percentage address script →
    ∃ pool miner : UInt64,
      mode.coinbaseOutputs total poolScript = [⟨pool, poolScript⟩, ⟨miner, script⟩] ∧
        pool.toNat = total.toNat * percentage.toNat / 100
  accepted : mode.validateCoinbaseOutputs (mode.coinbaseOutputs total poolScript ++ opReturns) =
    .ok ()
  acceptedSuffix : ∀ sequence after : Bytes, sequence.length = 4 →
    mode.validateCoinbaseTxSuffix (sequence ++
      (TxOut.encodeVec (mode.coinbaseOutputs total poolScript ++ opReturns) ++ after)) = .ok ()

/-- A mode that was read from an identity has a percentage below 100, and its miner's script was
read from an address. -/
theorem rate_lt_of_ofUserIdentity {scriptFromAddress : Text → Except String Bytes}
    {identity : Text} {mode : PayoutMode}
    (hmode : PayoutMode.ofUserIdentity scriptFromAddress identity = .ok mode) :
    mode.rate < 100 ∧ ∀ address script, mode.minerPayout = some (address, script) →
      ∃ text, scriptFromAddress text = .ok script := by
  have hnamed := PayoutMode.namedBy_of_ofUserIdentity hmode
  cases mode with
  | solo a s =>
      obtain ⟨payout, _, _, _, hs⟩ := hnamed
      refine ⟨show 1 < 100 by decide, fun address script hminer => ⟨payout, ?_⟩⟩
      rw [← (Prod.mk.inj (Option.some.inj hminer)).2, hs]
  | legacySolo a s =>
      obtain ⟨_, _, hs⟩ := hnamed
      refine ⟨show 90 < 100 by decide, fun address script hminer => ⟨upTo '.' identity, ?_⟩⟩
      rw [← (Prod.mk.inj (Option.some.inj hminer)).2, hs]
  | donate p a s =>
      obtain ⟨_, payout, _, _, _, _, hp, _, hs⟩ := hnamed
      refine ⟨UInt8.lt_iff_toNat_lt.mp hp, fun address script hminer => ⟨payout, ?_⟩⟩
      rw [← (Prod.mk.inj (Option.some.inj hminer)).2, hs]
  | fullDonation => exact ⟨by decide, nofun⟩

/-- For every mode that an identity names, every pool script, every total the products of which stay
below 2^64, and every list of `OP_RETURN` outputs: builder and check agree exactly if the check can
tell the built outputs apart and the decoder reads to the end of them. -/
theorem agrees_iff {scriptFromAddress : Text → Except String Bytes} {identity : Text}
    {mode : PayoutMode} {poolScript : Bytes} {total : UInt64} {opReturns : List TxOut}
    (hread : ∀ address script, scriptFromAddress address = .ok script →
      isOpReturn script = false)
    (hmode : PayoutMode.ofUserIdentity scriptFromAddress identity = .ok mode)
    (hpos : 1 ≤ total.toNat) (htotal : 100 * total.toNat < 2 ^ 64)
    (hop : ∀ o ∈ opReturns, isOpReturn o.scriptPubkey = true)
    (hlen : (mode.coinbaseOutputs total poolScript ++ opReturns).length < 2 ^ 64)
    (hfits : ∀ o ∈ mode.coinbaseOutputs total poolScript ++ opReturns, o.WellFormed) :
    mode.Agrees poolScript total opReturns ↔
      mode.Separate poolScript total.toNat ∧
        (TxOut.encodeVec (mode.coinbaseOutputs total poolScript ++ opReturns)).length ≤
          maxVecSize := by
  obtain ⟨hrate, hminer⟩ := rate_lt_of_ofUserIdentity hmode
  have hscript : ∀ address script, mode.minerPayout = some (address, script) →
      isOpReturn script = false := fun address script h =>
    (hminer address script h).elim fun text htext => hread text script htext
  have hbuilt := built_accepted_iff poolScript hscript hrate hpos htotal
  have hcongr := validateCoinbaseOutputs_congr mode
    (spendable_append_opReturns (mode.coinbaseOutputs total poolScript) hop)
  constructor
  · intro h
    refine ⟨hbuilt.mp (hcongr ▸ h.accepted), ?_⟩
    have hsuffix := h.acceptedSuffix [0, 0, 0, 0] [] rfl
    rw [validateCoinbaseTxSuffix_encodeVec mode rfl hlen hfits] at hsuffix
    by_contra hlong
    rw [if_neg hlong] at hsuffix
    cases hsuffix
  · intro h
    obtain ⟨hseparate, hshort⟩ := h
    have haccepted := hcongr.trans (hbuilt.mpr hseparate)
    refine ⟨coinbaseOutputs_sats hrate.le htotal poolScript, ?_, haccepted, ?_⟩
    · intro p a s hdonate
      subst hdonate
      obtain ⟨pool, miner, heq, hpool, _⟩ := donate_outputs p a s poolScript hrate.le htotal
      exact ⟨pool, miner, heq, hpool⟩
    · intro sequence after hsequence
      rw [validateCoinbaseTxSuffix_encodeVec mode hsequence hlen hfits, if_pos hshort, haccepted]

/-- The witness program an address stands for. -/
def sampleScript : Bytes :=
  [0x00, 0x14, 0x75, 0x1e, 0x76, 0xe8, 0x19, 0x91, 0x96, 0xd4, 0x54,
    0x94, 0x1c, 0x45, 0xd1, 0xb3, 0xa3, 0x23, 0xf1, 0x43, 0x3b, 0xd6]

/-- A reader that knows one address. -/
def oneAddress (address : Text) : Except String Bytes :=
  if address = "bc1qw508d6qejxtdg4y5r3zarvary0c5xw7kv8f3t4".toList then .ok sampleScript
  else .error "invalid address"

/-- A tenth for the pool. -/
def sampleDonation : PayoutMode :=
  .donate 10 "bc1qw508d6qejxtdg4y5r3zarvary0c5xw7kv8f3t4" sampleScript

/-- The donation of 1000 sat, beside a witness commitment. -/
theorem agrees_iff_sample :
    sampleDonation.Agrees [0x51] 1000 [⟨0, [0x6a]⟩] ↔
      sampleDonation.Separate [0x51] 1000 ∧
        (TxOut.encodeVec (sampleDonation.coinbaseOutputs 1000 [0x51] ++
          [⟨0, [0x6a]⟩])).length ≤ maxVecSize := by
  have hread : ∀ address script, oneAddress address = .ok script → isOpReturn script = false := by
    intro address script h
    unfold oneAddress at h
    split at h
    · rw [← Except.ok.inj h]
      rfl
    · cases h
  have hmode : PayoutMode.ofUserIdentity oneAddress
      "sri/donate/10/bc1qw508d6qejxtdg4y5r3zarvary0c5xw7kv8f3t4/rig".toList =
        .ok sampleDonation := by decide
  exact agrees_iff hread hmode (by decide) (by decide) (by decide) (by decide) (by decide)

/-- A pool that pays a donation to the miner's own script: the amounts are right, and the miner's
client rejects them. -/
theorem own_script_rejected :
    PayoutMode.ofUserIdentity oneAddress
        "sri/donate/10/bc1qw508d6qejxtdg4y5r3zarvary0c5xw7kv8f3t4/rig".toList =
        .ok sampleDonation ∧
      exactSats (sampleDonation.coinbaseOutputs 1000 sampleScript) = 1000 ∧
      sampleDonation.validateCoinbaseOutputs (sampleDonation.coinbaseOutputs 1000 sampleScript) =
        .error (.payoutMismatch "bc1qw508d6qejxtdg4y5r3zarvary0c5xw7kv8f3t4" 900 90 1000 1000) := by
  decide

end GridPoolSv2.Payout
