import GridPoolSv2.Payout.Verification
import GridPoolSv2.Pool.GridPool

/-!
# Pool.SlotZero: a block reward is split without loss

The coinbase of a channel's job has a **suffix**, the outputs of the work selection in their
order, and slot zero, which gets what is left of the total. The source adds the suffix up
with `checked_add`, subtracts with `checked_sub`, and then decodes the scripts one by one.

* `suffixValue_eq_ok_iff` and `suffixOutputs_eq_ok_iff`: the two loops over the suffix, in
  terms of the exact sum and of the single outputs.
* `coinbaseOutputs_eq_ok_iff` puts them together: the outputs are the remainder followed by
  the suffix.
* `coinbaseOutputs_split` says when there are outputs at all, and what they pay.
-/

namespace GridPoolSv2.Pool

open Consensus (Bytes TxOut)
open Payout (Text exactSats)

/-! ### The suffix -/

/-- The exact value of the outputs of a selection. -/
def suffixSats (outputs : List GridPoolOutput) : Nat :=
  (outputs.map fun o => o.value.toNat).sum

@[simp] theorem suffixSats_nil : suffixSats [] = 0 := rfl

@[simp] theorem suffixSats_cons (o : GridPoolOutput) (outputs : List GridPoolOutput) :
    suffixSats (o :: outputs) = o.value.toNat + suffixSats outputs := rfl

/-- The output of a coinbase that an output of a selection stands for. -/
structure GridPoolOutput.DecodesTo (o : GridPoolOutput) (out : TxOut) : Prop where
  value : out.value = o.value
  script : hexDecode o.scriptPubKeyHex = .ok out.scriptPubkey

/-- The checked fold, from any sum. -/
theorem foldlM_suffix_eq_ok_iff (outputs : List GridPoolOutput) (acc sum : UInt64) :
    outputs.foldlM (m := Except String) (fun (sum : UInt64) o =>
        if sum.toNat + o.value.toNat < 2 ^ 64 then .ok (sum + o.value)
        else .error "GridPool payout suffix overflow") acc = .ok sum ↔
      acc.toNat + suffixSats outputs = sum.toNat := by
  induction outputs generalizing acc with
  | nil =>
      simp only [List.foldlM_nil, suffixSats_nil, Nat.add_zero, UInt64.toNat_inj]
      exact ⟨fun h => Except.ok.inj h, fun h => congrArg Except.ok h⟩
  | cons o rest ih =>
      rw [List.foldlM_cons]
      by_cases hfits : acc.toNat + o.value.toNat < 2 ^ 64
      · have hadd : (acc + o.value).toNat = acc.toNat + o.value.toNat := by
          rw [UInt64.toNat_add, Nat.mod_eq_of_lt hfits]
        rw [if_pos hfits]
        show List.foldlM _ (acc + o.value) rest = Except.ok sum ↔ _
        rw [ih, hadd, suffixSats_cons, Nat.add_assoc]
      · -- a partial sum that overflows stays above every `u64`
        rw [if_neg hfits]
        have hlt := sum.toNat_lt
        refine ⟨nofun, fun h => ?_⟩
        rw [suffixSats_cons] at h
        omega

theorem suffixValue_eq_ok_iff (outputs : List GridPoolOutput) (sum : UInt64) :
    suffixValue outputs = .ok sum ↔ suffixSats outputs = sum.toNat := by
  rw [suffixValue, foldlM_suffix_eq_ok_iff, UInt64.toNat_zero, Nat.zero_add]

/-- The decoding loop keeps the order, and every script of the suffix decodes. -/
theorem suffixOutputs_eq_ok_iff (outputs : List GridPoolOutput) (outs : List TxOut) :
    suffixOutputs outputs = .ok outs ↔ List.Forall₂ GridPoolOutput.DecodesTo outputs outs := by
  induction outputs generalizing outs with
  | nil =>
      rw [List.forall₂_nil_left_iff, suffixOutputs]
      exact ⟨fun h => (Except.ok.inj h).symm, fun h => h ▸ rfl⟩
  | cons o rest ih =>
      unfold suffixOutputs
      cases hscript : hexDecode o.scriptPubKeyHex with
      | error e =>
          refine ⟨nofun, fun h => ?_⟩
          obtain ⟨out, _, hout, _, _⟩ := List.forall₂_cons_left_iff.mp h
          cases hscript.symm.trans hout.script
      | ok script =>
          cases hrest : suffixOutputs rest with
          | error e =>
              refine ⟨nofun, fun h => ?_⟩
              obtain ⟨_, outs', _, htail, _⟩ := List.forall₂_cons_left_iff.mp h
              cases hrest.symm.trans ((ih outs').mpr htail)
          | ok tail =>
              have htail := (ih tail).mp hrest
              constructor
              · intro h
                obtain rfl := Except.ok.inj h
                exact .cons ⟨rfl, hscript⟩ htail
              · intro h
                obtain ⟨out, outs', hout, houts', rfl⟩ := List.forall₂_cons_left_iff.mp h
                have hsame := hrest.symm.trans ((ih outs').mpr houts')
                have hbytes := hscript.symm.trans hout.script
                rw [Except.ok.inj hsame, Except.ok.inj hbytes, ← hout.value]

/-- Decoding does not change the values. -/
theorem exactSats_of_decodesTo {outputs : List GridPoolOutput} {outs : List TxOut}
    (h : List.Forall₂ GridPoolOutput.DecodesTo outputs outs) :
    exactSats outs = suffixSats outputs := by
  induction h with
  | nil => rfl
  | cons hout _ ih => rw [Payout.exactSats_cons, suffixSats_cons, hout.value, ih]

theorem exists_decodesTo_iff (outputs : List GridPoolOutput) :
    (∃ outs, List.Forall₂ GridPoolOutput.DecodesTo outputs outs) ↔
      ∀ o ∈ outputs, ∃ script, hexDecode o.scriptPubKeyHex = .ok script := by
  induction outputs with
  | nil => exact ⟨nofun, fun _ => ⟨[], .nil⟩⟩
  | cons o rest ih =>
      rw [List.forall_mem_cons, ← ih]
      constructor
      · intro h
        obtain ⟨outs, houts⟩ := h
        obtain ⟨out, outs', hout, hrest, _⟩ := List.forall₂_cons_left_iff.mp houts
        exact ⟨⟨out.scriptPubkey, hout.script⟩, outs', hrest⟩
      · intro h
        obtain ⟨⟨script, hscript⟩, outs, houts⟩ := h
        exact ⟨⟨o.value, script⟩ :: outs, .cons ⟨rfl, hscript⟩ houts⟩

/-! ### The outputs of a job -/

/-- The outputs are the remainder of the total, paid to the address, and the suffix. -/
theorem outputsFor_eq_ok_iff (read : AddressReader) (work : WorkSelection) (address : Text)
    (totalValue : UInt64) (outputs : List TxOut) :
    outputsFor read work address totalValue = .ok outputs ↔
      ∃ value script outs, outputs = ⟨value, script⟩ :: outs ∧
        value.toNat + suffixSats work.coinbaseOutputs = totalValue.toNat ∧
        parseAddress read address work.bitcoinNetwork = .ok script ∧
        List.Forall₂ GridPoolOutput.DecodesTo work.coinbaseOutputs outs := by
  simp only [← suffixOutputs_eq_ok_iff]
  unfold outputsFor
  cases hsuffix : suffixValue work.coinbaseOutputs with
  | error e =>
      refine ⟨nofun, fun h => ?_⟩
      obtain ⟨value, _, _, _, hsum, _, _⟩ := h
      -- the suffix is at most the total, so its sum is a `u64`
      have hlt := totalValue.toNat_lt
      have hexact : suffixSats work.coinbaseOutputs =
          (UInt64.ofNat (suffixSats work.coinbaseOutputs)).toNat := by
        rw [UInt64.toNat_ofNat_of_lt' (by show _ < 2 ^ 64; omega)]
      cases hsuffix.symm.trans ((suffixValue_eq_ok_iff _ _).mpr hexact)
  | ok suffix =>
      have hexact := (suffixValue_eq_ok_iff _ _).mp hsuffix
      dsimp only
      by_cases hless : totalValue < suffix
      · rw [if_pos hless]
        refine ⟨nofun, fun h => ?_⟩
        obtain ⟨_, _, _, _, hsum, _, _⟩ := h
        rw [UInt64.lt_iff_toNat_lt] at hless
        omega
      · have hle : suffix ≤ totalValue := UInt64.not_lt.mp hless
        have hvalue : (totalValue - suffix).toNat = totalValue.toNat - suffix.toNat :=
          UInt64.toNat_sub_of_le _ _ hle
        rw [UInt64.le_iff_toNat_le] at hle
        rw [if_neg hless]
        cases hscript : parseAddress read address work.bitcoinNetwork with
        | error e =>
            refine ⟨nofun, fun h => ?_⟩
            obtain ⟨_, _, _, _, _, hparse, _⟩ := h
            cases hparse
        | ok script =>
            cases houts : suffixOutputs work.coinbaseOutputs with
            | error e =>
                refine ⟨nofun, fun h => ?_⟩
                obtain ⟨_, _, _, _, _, _, hdecode⟩ := h
                cases hdecode
            | ok outs =>
                constructor
                · intro h
                  exact ⟨_, _, _, (Except.ok.inj h).symm, by omega, rfl, rfl⟩
                · intro h
                  obtain ⟨value, script', outs', rfl, hsum, hparse, hdecode⟩ := h
                  have hsame : value = totalValue - suffix := by
                    rw [← UInt64.toNat_inj]
                    omega
                  rw [hsame, Except.ok.inj hparse, Except.ok.inj hdecode]

namespace GridPoolClient

/-- Whom slot zero of a job pays. -/
def SlotZeroPays (g : GridPoolClient) (payout : ChannelPayout) (now : UInt64) (address : Text) :
    Prop :=
  if g.feeActive payout.payoutAddress now then g.config.operatorFeeAddress = some address
  else address = payout.payoutAddress

/-- There is an operator while the fee is active. -/
theorem operatorFeeAddress_of_feeActive {g : GridPoolClient} {payoutAddress : Text} {now : UInt64}
    (h : g.feeActive payoutAddress now = true) :
    ∃ operator, g.config.operatorFeeAddress = some operator := by
  unfold feeActive at h
  split at h
  · cases h
  · rename_i henabled
    rw [Bool.or_eq_true, not_or, Bool.not_eq_true (Option.isNone _), Option.isNone_eq_false_iff]
      at henabled
    exact Option.isSome_iff_exists.mp henabled.2

theorem slotZeroPays_iff (g : GridPoolClient) (payout : ChannelPayout) (now : UInt64)
    (address : Text) :
    g.SlotZeroPays payout now address ↔
      address = g.slotZeroAddress payout (g.feeActive payout.payoutAddress now) := by
  unfold SlotZeroPays slotZeroAddress
  cases hfee : g.feeActive payout.payoutAddress now with
  | true =>
      obtain ⟨operator, hoperator⟩ := operatorFeeAddress_of_feeActive hfee
      simp [hoperator, eq_comm]
  | false => simp

theorem coinbaseOutputs_eq_ok_iff (read : AddressReader) (g : GridPoolClient)
    (payout : ChannelPayout) (totalValue now : UInt64) (outputs : List TxOut) :
    g.coinbaseOutputs read payout totalValue now = .ok outputs ↔
      ∃ address value script outs, g.SlotZeroPays payout now address ∧
        outputs = ⟨value, script⟩ :: outs ∧
        value.toNat + suffixSats g.work.coinbaseOutputs = totalValue.toNat ∧
        parseAddress read address g.work.bitcoinNetwork = .ok script ∧
        List.Forall₂ GridPoolOutput.DecodesTo g.work.coinbaseOutputs outs := by
  simp only [slotZeroPays_iff, exists_and_left, exists_eq_left]
  rw [coinbaseOutputs, outputsFor_eq_ok_iff]

/-- For every selection, channel payout, total and time: there are outputs exactly if the suffix
leaves something of the total, the address of slot zero is read and every script of the suffix
decodes; and then they add up to the total, the suffix follows slot zero unchanged, and slot zero
pays the operator while the fee is active and the channel otherwise. -/
theorem coinbaseOutputs_split (read : AddressReader) (g : GridPoolClient) (payout : ChannelPayout)
    (totalValue now : UInt64) :
    ((∃ outputs, g.coinbaseOutputs read payout totalValue now = .ok outputs) ↔
        (suffixSats g.work.coinbaseOutputs < 2 ^ 64 ∧
          suffixSats g.work.coinbaseOutputs ≤ totalValue.toNat) ∧
        (∃ address script, g.SlotZeroPays payout now address ∧
          parseAddress read address g.work.bitcoinNetwork = .ok script) ∧
        ∀ o ∈ g.work.coinbaseOutputs, ∃ script, hexDecode o.scriptPubKeyHex = .ok script) ∧
      ∀ outputs, g.coinbaseOutputs read payout totalValue now = .ok outputs →
        exactSats outputs = totalValue.toNat ∧
        List.Forall₂ GridPoolOutput.DecodesTo g.work.coinbaseOutputs outputs.tail ∧
        ∃ address script, g.SlotZeroPays payout now address ∧
          parseAddress read address g.work.bitcoinNetwork = .ok script ∧
          outputs.head?.map (·.scriptPubkey) = some script := by
  constructor
  · rw [← exists_decodesTo_iff]
    constructor
    · intro h
      obtain ⟨outputs, houtputs⟩ := h
      obtain ⟨address, value, script, outs, hslot, _, hsum, hparse, hdecode⟩ :=
        (coinbaseOutputs_eq_ok_iff ..).mp houtputs
      have hlt := totalValue.toNat_lt
      exact ⟨⟨by omega, by omega⟩, ⟨address, script, hslot, hparse⟩, outs, hdecode⟩
    · intro h
      obtain ⟨⟨_, hle⟩, ⟨address, script, hslot, hparse⟩, outs, hdecode⟩ := h
      have hlt := totalValue.toNat_lt
      refine ⟨_, (coinbaseOutputs_eq_ok_iff ..).mpr ⟨address,
        UInt64.ofNat (totalValue.toNat - suffixSats g.work.coinbaseOutputs), script, outs, hslot,
        rfl, ?_, hparse, hdecode⟩⟩
      rw [UInt64.toNat_ofNat_of_lt' (by show _ < 2 ^ 64; omega)]
      omega
  · intro outputs houtputs
    obtain ⟨address, value, script, outs, hslot, rfl, hsum, hparse, hdecode⟩ :=
      (coinbaseOutputs_eq_ok_iff ..).mp houtputs
    refine ⟨?_, hdecode, address, script, hslot, hparse, rfl⟩
    rw [Payout.exactSats_cons, exactSats_of_decodesTo hdecode, hsum]

end GridPoolClient

end GridPoolSv2.Pool
