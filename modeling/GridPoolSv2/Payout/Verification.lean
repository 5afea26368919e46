import GridPoolSv2.Payout.PayoutMode

/-!
# Payout.Verification: what an accepted coinbase pays

`validate_coinbase_outputs` adds the amounts of an upstream's outputs up as `u64` and
multiplies the sums by a percentage, and neither step checks for overflow. The outputs are
those of an untrusted coinbase, so that their true total can be anything.

* `totalSats` and `minerSats` are the **exact** sums the check is about, as natural numbers;
  the check sees them modulo 2^64 (`sumSats_toNat`).
* `validateCoinbaseOutputs_eq_ok_iff` says in these terms when the check succeeds.
* `PaysShare` is what the mode promises the miner. While nothing wraps (`Fits`) the check
  compares the amounts themselves (`residuesAgree_iff_paysShare`).
* `accepted_pays_iff` says for which totals success implies the share, by a condition on the
  total alone (`Unwrapped`). Of every other total a short payment passes
  (`exists_short_payment`), and outputs can be found that make it (`payBoth`).

Proof shape: the check is turned into a comparison of residues of two numbers, the total and
what the miner is paid of it; everything about wrap-around is arithmetic on these two, and the
lists come back only to realize a payment.
-/

namespace GridPoolSv2.Payout

open Consensus (Bytes TxOut)

/-! ### Exact sums -/

/-- The sum of output values. -/
def exactSats (outputs : List TxOut) : Nat :=
  (outputs.map fun o => o.value.toNat).sum

@[simp] theorem exactSats_nil : exactSats [] = 0 := rfl

@[simp] theorem exactSats_cons (o : TxOut) (outputs : List TxOut) :
    exactSats (o :: outputs) = o.value.toNat + exactSats outputs := rfl

/-- The outputs that are not `OP_RETURN`. -/
def spendable (outputs : List TxOut) : List TxOut :=
  outputs.filter fun o => !isOpReturn o.scriptPubkey

/-- The total of the spendable outputs. -/
def totalSats (outputs : List TxOut) : Nat :=
  exactSats (spendable outputs)

/-- What the spendable outputs pay to a script. -/
def minerSats (script : Bytes) (outputs : List TxOut) : Nat :=
  exactSats ((spendable outputs).filter fun o => o.scriptPubkey = script)

/-- What the spendable outputs pay to other scripts. -/
def otherSats (script : Bytes) (outputs : List TxOut) : Nat :=
  exactSats ((spendable outputs).filter fun o => !decide (o.scriptPubkey = script))

/-- The `u64` sum is the exact one modulo 2^64. -/
theorem sumSats_toNat (outputs : List TxOut) :
    (sumSats outputs).toNat = exactSats outputs % 2 ^ 64 := by
  induction outputs with
  | nil => rfl
  | cons o rest ih =>
      simp only [sumSats, exactSats, List.map_cons, List.sum_cons] at ih ⊢
      rw [UInt64.toNat_add, ih, Nat.add_mod_mod]

theorem exactSats_filter_add (p : TxOut → Bool) (outputs : List TxOut) :
    exactSats (outputs.filter p) + exactSats (outputs.filter fun o => !p o) = exactSats
      outputs := by
  induction outputs with
  | nil => rfl
  | cons o rest ih =>
      cases hp : p o with
      | true =>
          simp [hp]
          omega
      | false =>
          simp [hp]
          omega

/-- Every spendable amount goes to the script or elsewhere. -/
theorem minerSats_add_otherSats (script : Bytes) (outputs : List TxOut) :
    minerSats script outputs + otherSats script outputs = totalSats outputs :=
  exactSats_filter_add _ _

/-! ### The check in exact terms -/

theorem divCeil100_toNat (x : UInt64) : (divCeil100 x).toNat = (x.toNat + 99) / 100 := by
  have hmod : (x % 100).toNat = x.toNat % 100 := rfl
  have hdiv : (x / 100).toNat = x.toNat / 100 := rfl
  have hx := x.toNat_lt
  unfold divCeil100
  split
  · rename_i h
    have hzero : x.toNat % 100 = 0 := by
      rw [← hmod, h]
      rfl
    rw [hdiv]
    omega
  · rename_i h
    have hpos : x.toNat % 100 ≠ 0 := fun hzero => h (UInt64.toNat_inj.mp hzero)
    rw [UInt64.toNat_add, hdiv]
    show (x.toNat / 100 + 1) % 2 ^ 64 = (x.toNat + 99) / 100
    omega

/-- A difference of the source: `saturating_sub`. -/
theorem saturatingSub_toNat (x y : UInt64) :
    (if y ≤ x then x - y else 0).toNat = x.toNat - y.toNat := by
  split
  · rename_i h
    exact UInt64.toNat_sub_of_le x y h
  · rename_i h
    have hlt : ¬ y.toNat ≤ x.toNat := fun hle => h (UInt64.le_iff_toNat_le.mpr hle)
    show 0 = x.toNat - y.toNat
    omega

/-- The percentage the check multiplies the total with. -/
def PayoutMode.rate : PayoutMode → Nat
  | .solo _ _ => 1
  | .legacySolo _ _ => minLegacySoloPayoutPercentage.toNat
  | .donate percentage _ _ => percentage.toNat
  | .fullDonation => 0

/-- What the mode promises the miner of `total`, in exact arithmetic. The subtraction stops at zero,
which it reaches for percentages above 100 only. -/
def PayoutMode.PaysShare (mode : PayoutMode) (total paid : Nat) : Prop :=
  match mode with
  | .solo _ _ => paid = total
  | .legacySolo _ _ => 90 * total ≤ 100 * paid
  | .donate percentage _ _ => paid = total - total * percentage.toNat / 100
  | .fullDonation => True

/-- What the check compares: the same, modulo 2^64. -/
def PayoutMode.ResiduesAgree (mode : PayoutMode) (total paid : Nat) : Prop :=
  match mode with
  | .solo _ _ => paid % 2 ^ 64 = total % 2 ^ 64
  | .legacySolo _ _ => 90 * total % 2 ^ 64 ≤ 100 * (paid % 2 ^ 64)
  | .donate percentage _ _ =>
      paid % 2 ^ 64 = total % 2 ^ 64 - total * percentage.toNat % 2 ^ 64 / 100
  | .fullDonation => True

/-- A percentage of a wrapped total, as the source computes it. -/
theorem percentage_toNat (outputs : List TxOut) (percentage : UInt8) :
    (sumSats outputs * percentage.toUInt64).toNat =
      exactSats outputs * percentage.toNat % 2 ^ 64 := by
  rw [UInt64.toNat_mul, sumSats_toNat, UInt8.toNat_toUInt64, Nat.mod_mul_mod]

theorem expectedMinerSats_toNat (percentage : UInt8) (address : String) (script : Bytes)
    (outputs : List TxOut) :
    ((PayoutMode.donate percentage address script).expectedMinerSats (sumSats outputs)).toNat =
      exactSats outputs % 2 ^ 64 - exactSats outputs * percentage.toNat % 2 ^ 64 / 100 := by
  have hdiv : (sumSats outputs * percentage.toUInt64 / 100).toNat =
      (sumSats outputs * percentage.toUInt64).toNat / 100 := rfl
  unfold PayoutMode.expectedMinerSats
  dsimp only
  rw [saturatingSub_toNat, hdiv, percentage_toNat, sumSats_toNat]

theorem expectedLegacySoloMinerSats_toNat (outputs : List TxOut) :
    (PayoutMode.expectedLegacySoloMinerSats (sumSats outputs)).toNat =
      (90 * exactSats outputs % 2 ^ 64 + 99) / 100 := by
  rw [PayoutMode.expectedLegacySoloMinerSats, divCeil100_toNat, percentage_toNat, Nat.mul_comm]
  rfl

/-- The comparison that ends the check of solo and donation modes. -/
theorem mismatch_eq_ok_iff {actual expected : UInt64} {e : PayoutValidationError} :
    (if actual ≠ expected then .error e else .ok () : Except PayoutValidationError Unit) = .ok () ↔
      actual = expected := by
  by_cases h : actual = expected <;> simp [h]

/-- The check succeeds when the wrapped total is not zero and the residues agree. -/
theorem validateCoinbaseOutputs_eq_ok_iff {mode : PayoutMode} {address : String} {script : Bytes}
    (hminer : mode.minerPayout = some (address, script)) (outputs : List TxOut) :
    mode.validateCoinbaseOutputs outputs = .ok () ↔
      ¬ 2 ^ 64 ∣ totalSats outputs ∧
        mode.ResiduesAgree (totalSats outputs) (minerSats script outputs) := by
  have hzero : sumSats (spendable outputs) = 0 ↔ 2 ^ 64 ∣ totalSats outputs := by
    rw [← UInt64.toNat_inj, sumSats_toNat, Nat.dvd_iff_mod_eq_zero]
    rfl
  have hpaid : (sumSats ((spendable outputs).filter fun o => o.scriptPubkey = script)).toNat =
      minerSats script outputs % 2 ^ 64 := sumSats_toNat _
  simp only [PayoutMode.validateCoinbaseOutputs, hminer]
  rw [show (outputs.filter fun o => !isOpReturn o.scriptPubkey) = spendable outputs from rfl]
  by_cases htotal : sumSats (spendable outputs) = 0
  · rw [if_pos htotal]
    exact ⟨nofun, fun h => absurd (hzero.mp htotal) h.1⟩
  · rw [if_neg htotal, ← hzero]
    simp only [htotal, not_false_eq_true, true_and]
    cases mode with
    | solo a s =>
        rw [mismatch_eq_ok_iff, PayoutMode.ResiduesAgree, ← hpaid, totalSats, ← sumSats_toNat,
          UInt64.toNat_inj]
        exact Iff.rfl
    | legacySolo a s =>
        have hexpected := expectedLegacySoloMinerSats_toNat (spendable outputs)
        simp only [PayoutMode.ResiduesAgree]
        -- the percentage is rounded up: it is reached when a hundred times the payment reaches it
        split
        · rename_i hless
          rw [UInt64.lt_iff_toNat_lt, hpaid, hexpected] at hless
          simp only [reduceCtorEq, totalSats, false_iff]
          omega
        · rename_i hless
          rw [UInt64.lt_iff_toNat_lt, hpaid, hexpected] at hless
          simp only [totalSats, true_iff]
          omega
    | donate p a s =>
        rw [mismatch_eq_ok_iff, PayoutMode.ResiduesAgree, ← hpaid, totalSats,
          ← expectedMinerSats_toNat p a s, UInt64.toNat_inj]
    | fullDonation => cases hminer

/-! ### When success means that the miner is paid -/

/-- Neither the sum nor the product of the check reaches 2^64. -/
def PayoutMode.Fits (mode : PayoutMode) (total : Nat) : Prop :=
  total < 2 ^ 64 ∧ total * mode.rate < 2 ^ 64

/-- While nothing wraps, the check compares the amounts themselves. -/
theorem residuesAgree_iff_paysShare (mode : PayoutMode) {total paid : Nat} (hpaid : paid ≤ total)
    (hfits : mode.Fits total) : mode.ResiduesAgree total paid ↔ mode.PaysShare total paid := by
  obtain ⟨htotal, hproduct⟩ := hfits
  have hmod : total % 2 ^ 64 = total := Nat.mod_eq_of_lt htotal
  have hmod' : paid % 2 ^ 64 = paid := Nat.mod_eq_of_lt (Nat.lt_of_le_of_lt hpaid htotal)
  cases mode with
  | solo a s => simp only [PayoutMode.ResiduesAgree, PayoutMode.PaysShare, hmod, hmod']
  | legacySolo a s =>
      have hninety : 90 * total % 2 ^ 64 = 90 * total :=
        Nat.mod_eq_of_lt (Nat.mul_comm total 90 ▸ hproduct)
      simp only [PayoutMode.ResiduesAgree, PayoutMode.PaysShare, hninety, hmod']
  | donate p a s =>
      have hpercent : total * p.toNat % 2 ^ 64 = total * p.toNat := Nat.mod_eq_of_lt hproduct
      simp only [PayoutMode.ResiduesAgree, PayoutMode.PaysShare, hmod, hmod', hpercent]
  | fullDonation => exact Iff.rfl

/-- A total of which no short payment passes: neither the sum nor the product the check makes of it
wraps, or it is a multiple of 2^64, which the check takes for an empty coinbase. A donation above
100 percent promises the miner nothing, and a wrapped product may be large enough to say so too. -/
def PayoutMode.Unwrapped (mode : PayoutMode) (total : Nat) : Prop :=
  match mode with
  | .solo _ _ => total < 2 ^ 64 ∨ 2 ^ 64 ∣ total
  | .legacySolo _ _ => 90 * total < 2 ^ 64 ∨ 2 ^ 64 ∣ total
  | .donate percentage _ _ =>
      total < 2 ^ 64 ∧ (total * percentage.toNat < 2 ^ 64 ∨
        total ≤ total * percentage.toNat % 2 ^ 64 / 100) ∨ 2 ^ 64 ∣ total
  | .fullDonation => True

/-- Totals below 2^64 / 100 wrap nothing. -/
theorem unwrapped_of_small {mode : PayoutMode} {total : Nat} (hsmall : 100 * total < 2 ^ 64)
    (hrate : mode.rate ≤ 100) : mode.Unwrapped total := by
  cases mode with
  | solo a s => exact .inl (by omega)
  | legacySolo a s => exact .inl (by omega)
  | donate p a s =>
      have hproduct : total * p.toNat ≤ total * 100 := Nat.mul_le_mul_left total hrate
      exact .inl ⟨by omega, .inl (by omega)⟩
  | fullDonation => exact trivial

theorem unwrapped_of_dvd (mode : PayoutMode) {total : Nat} (h : 2 ^ 64 ∣ total) :
    mode.Unwrapped total := by
  cases mode with
  | solo a s => exact .inr h
  | legacySolo a s => exact .inr h
  | donate p a s => exact .inr h
  | fullDonation => exact trivial

theorem unwrapped_of_minerPayout_eq_none {mode : PayoutMode} (total : Nat)
    (h : mode.minerPayout = none) : mode.Unwrapped total := by
  cases mode with
  | solo a s => cases h
  | legacySolo a s => cases h
  | donate p a s => cases h
  | fullDonation => exact trivial

/-- What the check compares of an unwrapped total are the amounts. -/
theorem paysShare_of_unwrapped {mode : PayoutMode} {total paid : Nat} (hpaid : paid ≤ total)
    (hunwrapped : mode.Unwrapped total) (hsome : ¬ 2 ^ 64 ∣ total)
    (hagree : mode.ResiduesAgree total paid) : mode.PaysShare total paid := by
  cases mode with
  | solo a s =>
      have htotal := hunwrapped.resolve_right hsome
      exact (residuesAgree_iff_paysShare _ hpaid ⟨htotal, (Nat.mul_one total).symm ▸ htotal⟩).mp
        hagree
  | legacySolo a s =>
      have hproduct := hunwrapped.resolve_right hsome
      exact (residuesAgree_iff_paysShare _ hpaid
        ⟨by omega, Nat.mul_comm 90 total ▸ hproduct⟩).mp hagree
  | donate p a s =>
      obtain ⟨htotal, hproduct | hlarge⟩ := hunwrapped.resolve_right hsome
      · exact (residuesAgree_iff_paysShare (.donate p a s) hpaid ⟨htotal, hproduct⟩).mp hagree
      · -- the wrapped product already takes everything, and the exact one is not smaller
        have hle : total * p.toNat % 2 ^ 64 ≤ total * p.toNat := Nat.mod_le _ _
        have hmod : paid % 2 ^ 64 = paid := Nat.mod_eq_of_lt (Nat.lt_of_le_of_lt hpaid htotal)
        rw [PayoutMode.ResiduesAgree, hmod, Nat.mod_eq_of_lt htotal] at hagree
        rw [PayoutMode.PaysShare, hagree]
        omega
  | fullDonation => exact trivial

/-- Of every other total some payment is short and agrees with what the check expects. For a
donation it is the expected residue itself, and where the total wraps, that residue and 2^64 more,
of which one is not the share. -/
theorem exists_short_payment {mode : PayoutMode} {total : Nat} (hwraps : ¬ mode.Unwrapped total) :
    ∃ paid, paid ≤ total ∧ mode.ResiduesAgree total paid ∧ ¬ mode.PaysShare total paid := by
  cases mode with
  | solo a s =>
      simp only [PayoutMode.Unwrapped, PayoutMode.ResiduesAgree, PayoutMode.PaysShare] at hwraps ⊢
      exact ⟨total % 2 ^ 64, Nat.mod_le _ _, Nat.mod_mod _ _, by omega⟩
  | legacySolo a s =>
      simp only [PayoutMode.Unwrapped, PayoutMode.ResiduesAgree, PayoutMode.PaysShare] at hwraps ⊢
      have hresidue : 90 * total % 2 ^ 64 < 2 ^ 64 := Nat.mod_lt _ (by decide)
      have hexact := Nat.div_add_mod (90 * total) (2 ^ 64)
      generalize 90 * total % 2 ^ 64 = residue at *
      refine ⟨(residue + 99) / 100, by omega, ?_, by omega⟩
      rw [Nat.mod_eq_of_lt (by omega)]
      omega
  | donate p a s =>
      simp only [PayoutMode.Unwrapped, PayoutMode.ResiduesAgree, PayoutMode.PaysShare] at hwraps ⊢
      have hresidue : total % 2 ^ 64 < 2 ^ 64 := Nat.mod_lt _ (by decide)
      have hle : total % 2 ^ 64 - total * p.toNat % 2 ^ 64 / 100 ≤ total % 2 ^ 64 := Nat.sub_le _ _
      by_cases hexpected : total % 2 ^ 64 - total * p.toNat % 2 ^ 64 / 100 =
          total - total * p.toNat / 100
      · by_cases htotal : total < 2 ^ 64
        · -- the sum fits, so that it is the product that wraps, by more than the division hides
          have hproduct := Nat.div_add_mod (total * p.toNat) (2 ^ 64)
          have hsum : total % 2 ^ 64 = total := Nat.mod_eq_of_lt htotal
          omega
        · refine ⟨total % 2 ^ 64 - total * p.toNat % 2 ^ 64 / 100 + 2 ^ 64, by omega, ?_, by omega⟩
          rw [Nat.add_mod_right, Nat.mod_eq_of_lt (by omega)]
      · refine ⟨total % 2 ^ 64 - total * p.toNat % 2 ^ 64 / 100, by omega, ?_, hexpected⟩
        rw [Nat.mod_eq_of_lt (by omega)]
  | fullDonation => exact absurd trivial hwraps

/-! ### Outputs for every payment

A list of outputs can pay any amount to a script, in outputs of at most 2^64 - 1 sat, so that what
the check decides about numbers it decides about coinbases. -/

/-- Outputs that pay an amount to a script. -/
def payTo (script : Bytes) (amount : Nat) : List TxOut :=
  List.replicate (amount / (2 ^ 64 - 1)) ⟨UInt64.ofNat (2 ^ 64 - 1), script⟩ ++
    [⟨UInt64.ofNat (amount % (2 ^ 64 - 1)), script⟩]

theorem exactSats_append (outputs rest : List TxOut) :
    exactSats (outputs ++ rest) = exactSats outputs + exactSats rest := by
  simp only [exactSats, List.map_append, List.sum_append]

/-- Outputs to one script have the amount in all. -/
theorem exactSats_payTo (script : Bytes) (amount : Nat) :
    exactSats (payTo script amount) = amount := by
  have hrest : amount % (2 ^ 64 - 1) < 2 ^ 64 := by omega
  have hmax : (UInt64.ofNat (2 ^ 64 - 1)).toNat = 2 ^ 64 - 1 := rfl
  rw [payTo, exactSats_append, exactSats_cons, exactSats_nil, UInt64.toNat_ofNat_of_lt' hrest]
  simp only [exactSats, List.map_replicate, List.sum_replicate_nat, hmax]
  have hdiv := Nat.div_add_mod' amount (2 ^ 64 - 1)
  omega

theorem scriptPubkey_of_mem_payTo {script : Bytes} {amount : Nat} {o : TxOut}
    (h : o ∈ payTo script amount) : o.scriptPubkey = script := by
  rcases List.mem_append.mp h with h | h
  · rw [List.eq_of_mem_replicate h]
  · rw [List.mem_singleton.mp h]

/-- Outputs that pay one amount to a script and another one to a script of their own. -/
def payBoth (script : Bytes) (paid other : Nat) : List TxOut :=
  payTo script paid ++ payTo (0x51 :: script) other

theorem spendable_payBoth {script : Bytes} (hscript : isOpReturn script = false)
    (paid other : Nat) : spendable (payBoth script paid other) = payBoth script paid other := by
  refine List.filter_eq_self.mpr fun o ho => ?_
  rcases List.mem_append.mp ho with h | h
  · rw [scriptPubkey_of_mem_payTo h, hscript]
    rfl
  · rw [scriptPubkey_of_mem_payTo h]
    rfl

theorem totalSats_payBoth {script : Bytes} (hscript : isOpReturn script = false)
    (paid other : Nat) : totalSats (payBoth script paid other) = paid + other := by
  rw [totalSats, spendable_payBoth hscript, payBoth, exactSats_append, exactSats_payTo,
    exactSats_payTo]

theorem minerSats_payBoth {script : Bytes} (hscript : isOpReturn script = false)
    (paid other : Nat) : minerSats script (payBoth script paid other) = paid := by
  have hown : (payTo script paid).filter (fun o => decide (o.scriptPubkey = script)) =
      payTo script paid :=
    List.filter_eq_self.mpr fun o ho => decide_eq_true (scriptPubkey_of_mem_payTo ho)
  have hother : (payTo (0x51 :: script) other).filter
      (fun o => decide (o.scriptPubkey = script)) = [] := by
    refine List.filter_eq_nil_iff.mpr fun o ho => ?_
    rw [scriptPubkey_of_mem_payTo ho]
    simp
  rw [minerSats, spendable_payBoth hscript, payBoth, List.filter_append, hown, hother,
    List.append_nil, exactSats_payTo]

/-! ### The totals of which acceptance means payment -/

/-- Every coinbase of a total that passes the check pays the miner's share of it. -/
def PayoutMode.AcceptedPays (mode : PayoutMode) (total : Nat) : Prop :=
  ∀ outputs address script, totalSats outputs = total →
    mode.minerPayout = some (address, script) → mode.validateCoinbaseOutputs outputs = .ok () →
      mode.PaysShare total (minerSats script outputs)

/-- For every mode and every total: that the check of a coinbase of that total succeeds implies that
the exact amounts pay the miner's share, exactly if the total is unwrapped. The converse is about
scripts that can be paid: of an `OP_RETURN` script, which no address has, the check reads
nothing. -/
theorem accepted_pays_iff (mode : PayoutMode) (total : Nat) :
    (mode.Unwrapped total → mode.AcceptedPays total) ∧
      ((∀ address script, mode.minerPayout = some (address, script) → isOpReturn script = false) →
        mode.AcceptedPays total → mode.Unwrapped total) := by
  constructor
  · intro hunwrapped outputs address script htotal hminer hok
    have hsum := minerSats_add_otherSats script outputs
    obtain ⟨hsome, hagree⟩ := (validateCoinbaseOutputs_eq_ok_iff hminer outputs).mp hok
    rw [htotal] at hsum hsome hagree
    exact paysShare_of_unwrapped (Nat.le.intro hsum) hunwrapped hsome hagree
  · intro hspendable hpays
    by_contra hwraps
    obtain ⟨paid, hpaid, hagree, hshort⟩ := exists_short_payment hwraps
    cases hminer : mode.minerPayout with
    | none => exact hwraps (unwrapped_of_minerPayout_eq_none total hminer)
    | some payout =>
        obtain ⟨address, script⟩ := payout
        have hscript := hspendable address script hminer
        have htotal := totalSats_payBoth hscript paid (total - paid)
        have hminerSats := minerSats_payBoth hscript paid (total - paid)
        rw [Nat.add_sub_cancel' hpaid] at htotal
        have hok := (validateCoinbaseOutputs_eq_ok_iff hminer
          (payBoth script paid (total - paid))).mpr (by
            rw [htotal, hminerSats]
            exact ⟨fun hdvd => hwraps (unwrapped_of_dvd mode hdvd), hagree⟩)
        exact hshort (hminerSats ▸ hpays _ address script htotal hminer hok)

/-- Every solo coinbase of 2^64 - 1 sat that passes pays the miner, and one of 1000 sat more than
2^64 passes that does not. -/
theorem solo_accepted_pays :
    (PayoutMode.solo "miner" [0x51]).AcceptedPays (2 ^ 64 - 1) ∧
      ¬ (PayoutMode.solo "miner" [0x51]).AcceptedPays (2 ^ 64 + 1000) := by
  constructor
  · exact (accepted_pays_iff _ _).1 (.inl (by decide))
  · intro hpays
    have hspendable : ∀ address script,
        (PayoutMode.solo "miner" [0x51]).minerPayout = some (address, script) →
          isOpReturn script = false := by
      intro address script hminer
      obtain ⟨-, rfl⟩ := Prod.mk.inj (Option.some.inj hminer)
      decide
    rcases (accepted_pays_iff _ _).2 hspendable hpays with h | h
    · exact absurd h (by decide)
    · exact absurd h (by decide)

/-- Two outputs of 2^63 sat to another script add up to nothing. -/
theorem wrapped_outputs_accepted :
    let outputs : List TxOut := [⟨1000, [0x51]⟩, ⟨9223372036854775808, [0x52]⟩,
      ⟨9223372036854775808, [0x52]⟩]
    (PayoutMode.solo "miner" [0x51]).validateCoinbaseOutputs outputs = .ok () ∧
      totalSats outputs = 2 ^ 64 + 1000 ∧ minerSats [0x51] outputs = 1000 ∧
      ¬ (PayoutMode.solo "miner" [0x51]).PaysShare (totalSats outputs)
        (minerSats [0x51] outputs) := by
  have htotal : totalSats [⟨1000, [0x51]⟩, ⟨9223372036854775808, [0x52]⟩,
      ⟨9223372036854775808, [0x52]⟩] = 2 ^ 64 + 1000 := by decide
  have hpaid : minerSats [0x51] [⟨1000, [0x51]⟩, ⟨9223372036854775808, [0x52]⟩,
      ⟨9223372036854775808, [0x52]⟩] = 1000 := by decide
  refine ⟨by decide, htotal, hpaid, ?_⟩
  rw [htotal, hpaid]
  simp [PayoutMode.PaysShare]

end GridPoolSv2.Payout
