import GridPoolSv2.Pool.GridPool
import Mathlib.Data.Nat.Periodic
import Mathlib.Data.Rat.Defs
import Mathlib.Algebra.Order.Ring.Unbundled.Rat
import Mathlib.Order.Interval.Finset.Nat

/-!
# Pool.FeeWindow: the share of time the operator is paid

Slot zero pays the operator in one window of every fee cycle (`fee_active`). Where the window
lies in the cycle follows from a digest of the adapter token and the payout address, so that
the windows of different addresses are spread over the cycle.

* `cyclicWindow` is the test of the source in natural numbers, and `card_cyclicWindow` the
  counting argument: over any full period it holds exactly as often as the window is long.
* `feeActiveWith` is `fee_active` for any digest function. While `now + cycle` stays below
  2^64 it is the window test (`feeActiveWith_eq`).
* `feeActive_fair` says for every configuration that `validate_config` accepts that each
  payout address pays the fee in exactly the configured part of a cycle, from any second on.

The percentage is an `f64`: a rational, an infinity or not a number. The rounding that makes
a number of seconds of it is a parameter.
-/

namespace GridPoolSv2.Pool

open Consensus (Bytes)
open Payout (Text)

/-! ### Windows of a cycle

A window is an interval of the numbers modulo the cycle. That every period has the same count is a
fact about periodic predicates. -/

/-- A second lies in the window of `length` seconds that begins at `offset` in every cycle. -/
def cyclicWindow (cycle offset length now : Nat) : Prop :=
  (now + cycle - offset) % cycle < length

instance (cycle offset length now : Nat) : Decidable (cyclicWindow cycle offset length now) :=
  inferInstanceAs (Decidable (_ < _))

section Windows

variable {cycle offset length : Nat}

theorem cyclicWindow_periodic (length : Nat) (hoffset : offset < cycle) :
    Function.Periodic (cyclicWindow cycle offset length) cycle := by
  intro now
  have hmove : now + cycle + cycle - offset = now + cycle - offset + cycle := by omega
  simp only [cyclicWindow, hmove, Nat.add_mod_right]

/-- From the beginning of the window on, its first `length` seconds are the ones inside. -/
theorem cyclicWindow_offset_add (offset : Nat) (hlength : length ≤ cycle) {i : Nat}
    (hi : i < cycle) :
    cyclicWindow cycle offset length (offset + i) ↔ i < length := by
  have hmove : offset + i + cycle - offset = i + cycle := by omega
  rw [cyclicWindow, hmove, Nat.add_mod_right, Nat.mod_eq_of_lt hi]

/-- Any `cycle` consecutive seconds have `length` seconds in the window. -/
theorem card_cyclicWindow (hoffset : offset < cycle) (hlength : length ≤ cycle) (start : Nat) :
    ((Finset.Ico start (start + cycle)).filter (cyclicWindow cycle offset length)).card =
      length := by
  have hperiodic := cyclicWindow_periodic length hoffset
  -- over a full period the start does not matter, and at the offset the window comes first
  rw [Nat.filter_Ico_card_eq_of_periodic start cycle _ hperiodic,
    ← Nat.filter_Ico_card_eq_of_periodic offset cycle _ hperiodic]
  have hfirst : (Finset.Ico offset (offset + cycle)).filter (cyclicWindow cycle offset length) =
      Finset.Ico offset (offset + length) := by
    ext now
    rw [Finset.mem_filter, Finset.mem_Ico, Finset.mem_Ico]
    constructor
    · intro h
      obtain ⟨⟨hfrom, hto⟩, hin⟩ := h
      have hinside := (cyclicWindow_offset_add offset hlength
        (i := now - offset) (by omega)).mp (by rwa [Nat.add_sub_cancel' hfrom])
      exact ⟨hfrom, by omega⟩
    · intro h
      have hinside := (cyclicWindow_offset_add offset hlength
        (i := now - offset) (by omega)).mpr (by omega)
      rw [Nat.add_sub_cancel' h.1] at hinside
      exact ⟨⟨h.1, by omega⟩, hinside⟩
  rw [hfirst, Nat.card_Ico, Nat.add_sub_cancel_left]

/-- The window is one block of consecutive residues. -/
theorem cyclicWindow_iff_exists (hoffset : offset < cycle) (hlength : length ≤ cycle) (now : Nat) :
    cyclicWindow cycle offset length now ↔
      ∃ i < length, now % cycle = (offset + i) % cycle := by
  constructor
  · intro h
    refine ⟨(now + cycle - offset) % cycle, h, ?_⟩
    rw [Nat.add_mod_mod, Nat.add_sub_cancel' (by omega), Nat.add_mod_right]
  · intro h
    obtain ⟨i, hi, hnow⟩ := h
    have hmod := (cyclicWindow_periodic length hoffset).map_mod_nat
    rw [← hmod now, hnow, hmod]
    exact (cyclicWindow_offset_add offset hlength (by omega)).mpr hi

end Windows

/-! ### The window of the source

The source computes in `u64` with wrapping and clamps the length of the window. Both fall away for
the configurations that are accepted. -/

/-- The operator is configured and has a fee. -/
def GridPoolConfig.feeEnabled (config : GridPoolConfig) : Prop :=
  config.operatorFee = true ∧ ∃ operator, config.operatorFeeAddress = some operator

/-- The length of the fee window, clamped to the cycle. -/
def GridPoolConfig.clampedDuration (config : GridPoolConfig) : UInt64 :=
  min (max config.feeDuration 1) (max config.feeCycleSeconds 1)

/-- Where the fee window of an address begins in a cycle. -/
def feeOffset (digest : Bytes → Bytes) (token : Bytes) (payoutAddress : Text) (cycle : UInt64) :
    UInt64 :=
  beWord (digest (token ++ utf8 payoutAddress)) % cycle

/-- `GridPoolClient::fee_active`, for any digest function. -/
def feeActiveWith (digest : Bytes → Bytes) (config : GridPoolConfig) (token : Bytes)
    (payoutAddress : Text) (unixSeconds : UInt64) : Bool :=
  if !config.operatorFee || config.operatorFeeAddress.isNone then false
  else
    let cycle := max config.feeCycleSeconds 1
    let offset := feeOffset digest token payoutAddress cycle
    (unixSeconds + cycle - offset) % cycle < config.clampedDuration

/-- The client's function, with its digest as a parameter. -/
theorem GridPoolClient.feeActive_eq_feeActiveWith (g : GridPoolClient) (payoutAddress : Text)
    (unixSeconds : UInt64) :
    g.feeActive payoutAddress unixSeconds =
      feeActiveWith Sha256.digest g.config g.token payoutAddress unixSeconds := rfl

theorem feeOffset_lt (digest : Bytes → Bytes) (token : Bytes) (payoutAddress : Text)
    {cycle : UInt64} (hcycle : 0 < cycle.toNat) :
    (feeOffset digest token payoutAddress cycle).toNat < cycle.toNat := by
  rw [feeOffset, UInt64.toNat_mod]
  exact Nat.mod_lt _ hcycle

/-- The larger of two machine integers is the larger number. -/
theorem toNat_max (x y : UInt64) : (max x y).toNat = max x.toNat y.toNat := by
  show (if x ≤ y then y else x).toNat = max x.toNat y.toNat
  split
  · rename_i h
    rw [UInt64.le_iff_toNat_le] at h
    omega
  · rename_i h
    rw [UInt64.le_iff_toNat_le] at h
    omega

theorem toNat_min (x y : UInt64) : (min x y).toNat = min x.toNat y.toNat := by
  show (if x ≤ y then x else y).toNat = min x.toNat y.toNat
  split
  · rename_i h
    rw [UInt64.le_iff_toNat_le] at h
    omega
  · rename_i h
    rw [UInt64.le_iff_toNat_le] at h
    omega

/-- A cycle that is not empty is not clamped. -/
theorem max_one_of_pos {cycle : UInt64} (hcycle : 0 < cycle.toNat) : max cycle 1 = cycle := by
  rw [← UInt64.toNat_inj, toNat_max]
  exact max_eq_left hcycle

/-- The window is at least a second and at most the cycle. -/
theorem clampedDuration_toNat {config : GridPoolConfig}
    (hcycle : 0 < config.feeCycleSeconds.toNat) :
    config.clampedDuration.toNat =
      min (max config.feeDuration.toNat 1) config.feeCycleSeconds.toNat := by
  rw [GridPoolConfig.clampedDuration, max_one_of_pos hcycle, toNat_min, toNat_max]
  rfl

/-- While the addition does not wrap, the source tests the window. -/
theorem feeActiveWith_eq {config : GridPoolConfig} (henabled : config.feeEnabled)
    (hcycle : 0 < config.feeCycleSeconds.toNat) (digest : Bytes → Bytes) (token : Bytes)
    (payoutAddress : Text) {now : UInt64}
    (hnow : now.toNat + config.feeCycleSeconds.toNat < 2 ^ 64) :
    feeActiveWith digest config token payoutAddress now = true ↔
      cyclicWindow config.feeCycleSeconds.toNat
        (feeOffset digest token payoutAddress config.feeCycleSeconds).toNat
        config.clampedDuration.toNat now.toNat := by
  obtain ⟨hfee, operator, hoperator⟩ := henabled
  have hoffset := feeOffset_lt digest token payoutAddress hcycle
  have hadd : (now + config.feeCycleSeconds).toNat =
      now.toNat + config.feeCycleSeconds.toNat := by
    rw [UInt64.toNat_add, Nat.mod_eq_of_lt hnow]
  have hle : feeOffset digest token payoutAddress config.feeCycleSeconds ≤
      now + config.feeCycleSeconds := by
    rw [UInt64.le_iff_toNat_le, hadd]
    omega
  simp only [feeActiveWith, hfee, hoperator, Option.isNone_some, Bool.not_true, Bool.or_self,
    Bool.false_eq_true, if_false, max_one_of_pos hcycle, decide_eq_true_eq]
  rw [UInt64.lt_iff_toNat_lt, UInt64.toNat_mod, UInt64.toNat_sub_of_le _ _ hle, hadd, cyclicWindow]

/-! ### The configuration

`validate_config` accepts a percentage and a cycle. The length of the window is computed from them
in floating point. -/

/-- An `f64`. -/
inductive Float64 where
  | finite (value : ℚ)
  | infinite (negative : Bool)
  | nan
  deriving DecidableEq

/-- `x <= y` for a finite `y`: not a number compares with nothing. -/
def Float64.le (x : Float64) (y : ℚ) : Bool :=
  match x with
  | .finite value => value ≤ y
  | .infinite negative => negative
  | .nan => false

/-- `x >= y` for a finite `y`. -/
def Float64.ge (x : Float64) (y : ℚ) : Bool :=
  match x with
  | .finite value => y ≤ value
  | .infinite negative => !negative
  | .nan => false

/-- `x > y` for a finite `y`. -/
def Float64.gt (x : Float64) (y : ℚ) : Bool :=
  match x with
  | .finite value => y < value
  | .infinite negative => !negative
  | .nan => false

/-- `GridPoolConfig` as it is read, with the fields `validate_config` and `fee_active` look at. -/
structure GridPoolSettings where
  fallbackPayoutAddress : Text
  operatorFeeAddress : Option Text
  operatorFeePercent : Float64
  refreshSeconds : UInt64
  telemetryFlushSeconds : UInt64
  feeCycleSeconds : UInt64
  deriving DecidableEq

/-- `validate_config`. -/
def validateConfig (s : GridPoolSettings) : Except String Unit :=
  if !(s.operatorFeePercent.ge 0 && s.operatorFeePercent.le 100) then
    .error "GridPool operator_fee_percent must be between 0 and 100"
  else if s.operatorFeePercent.gt 0 && s.operatorFeeAddress.isNone then
    .error "GridPool operator_fee_address is required when the operator fee is enabled"
  else if s.refreshSeconds = 0 ∨ s.telemetryFlushSeconds = 0 ∨ s.feeCycleSeconds = 0 then
    .error "GridPool intervals must be positive"
  else .ok ()

/-- The configuration the client works with, given how a part of the cycle is rounded to seconds. -/
def GridPoolSettings.config (s : GridPoolSettings) (round : UInt64 → Float64 → UInt64) :
    GridPoolConfig where
  fallbackPayoutAddress := s.fallbackPayoutAddress
  operatorFeeAddress := s.operatorFeeAddress
  operatorFee := !s.operatorFeePercent.le 0
  feeDuration := round s.feeCycleSeconds s.operatorFeePercent
  feeCycleSeconds := s.feeCycleSeconds

/-- An accepted configuration with a fee has an operator and a cycle. -/
theorem feeEnabled_of_validateConfig {s : GridPoolSettings} (hvalid : validateConfig s = .ok ())
    (hfee : s.operatorFeePercent.gt 0 = true) (round : UInt64 → Float64 → UInt64) :
    (s.config round).feeEnabled ∧ 0 < (s.config round).feeCycleSeconds.toNat := by
  unfold validateConfig at hvalid
  split at hvalid
  · cases hvalid
  · rename_i hrange
    split at hvalid
    · cases hvalid
    · rename_i haddress
      split at hvalid
      · cases hvalid
      · rename_i hintervals
        have hpositive : s.operatorFeePercent.le 0 = false := by
          cases hpercent : s.operatorFeePercent with
          | finite value =>
              simp only [hpercent, Float64.gt, decide_eq_true_eq] at hfee
              simpa [Float64.le] using hfee
          | infinite negative => simpa [hpercent, Float64.gt, Float64.le] using hfee
          | nan => rfl
        have hsome : ∃ operator, s.operatorFeeAddress = some operator := by
          rw [hfee, Bool.true_and, Bool.not_eq_true, Option.isNone_eq_false_iff] at haddress
          exact Option.isSome_iff_exists.mp haddress
        have hcycle : s.feeCycleSeconds.toNat ≠ 0 := fun hzero =>
          hintervals (.inr (.inr (UInt64.toNat_inj.mp hzero)))
        refine ⟨⟨?_, hsome⟩, Nat.pos_of_ne_zero hcycle⟩
        show (!s.operatorFeePercent.le 0) = true
        rw [hpositive, Bool.not_false]

/-- For every accepted configuration with a fee, whatever the digest and the rounding are, for every
token, payout address and start: of the seconds of one cycle from the start exactly as many are
active as the window is long, and they are the block of residues that begins at the offset. -/
theorem feeActive_fair (digest : Bytes → Bytes) (round : UInt64 → Float64 → UInt64)
    {s : GridPoolSettings} (hvalid : validateConfig s = .ok ())
    (hfee : s.operatorFeePercent.gt 0 = true) (token : Bytes) (payoutAddress : Text)
    {start : UInt64} (hstart : start.toNat + 2 * s.feeCycleSeconds.toNat < 2 ^ 64) :
    ((Finset.Ico start.toNat (start.toNat + s.feeCycleSeconds.toNat)).filter fun now =>
        feeActiveWith digest (s.config round) token payoutAddress (UInt64.ofNat now)).card =
      min (max (round s.feeCycleSeconds s.operatorFeePercent).toNat 1) s.feeCycleSeconds.toNat ∧
    ∀ now ∈ Finset.Ico start.toNat (start.toNat + s.feeCycleSeconds.toNat),
      (feeActiveWith digest (s.config round) token payoutAddress (UInt64.ofNat now) = true ↔
        ∃ i < min (max (round s.feeCycleSeconds s.operatorFeePercent).toNat 1)
            s.feeCycleSeconds.toNat,
          now % s.feeCycleSeconds.toNat =
            ((feeOffset digest token payoutAddress s.feeCycleSeconds).toNat + i) %
              s.feeCycleSeconds.toNat) := by
  obtain ⟨henabled, hcycle⟩ := feeEnabled_of_validateConfig hvalid hfee round
  have hduration : (s.config round).clampedDuration.toNat =
      min (max (round s.feeCycleSeconds s.operatorFeePercent).toNat 1) s.feeCycleSeconds.toNat :=
    clampedDuration_toNat hcycle
  have hoffset := feeOffset_lt digest token payoutAddress hcycle
  have hlength : (s.config round).clampedDuration.toNat ≤ s.feeCycleSeconds.toNat :=
    hduration ▸ min_le_right _ _
  have hactive : ∀ now ∈ Finset.Ico start.toNat (start.toNat + s.feeCycleSeconds.toNat),
      (feeActiveWith digest (s.config round) token payoutAddress (UInt64.ofNat now) = true ↔
        cyclicWindow s.feeCycleSeconds.toNat
          (feeOffset digest token payoutAddress s.feeCycleSeconds).toNat
          (s.config round).clampedDuration.toNat now) := by
    intro now hnow
    -- neither the second nor its sum with the cycle wraps
    have hto := (Finset.mem_Ico.mp hnow).2
    have hexact : (UInt64.ofNat now).toNat = now :=
      UInt64.toNat_ofNat_of_lt' (by show now < 2 ^ 64; omega)
    rw [feeActiveWith_eq henabled hcycle digest token payoutAddress
      (by rw [hexact]; show now + s.feeCycleSeconds.toNat < 2 ^ 64; omega), hexact]
    exact Iff.rfl
  rw [← hduration]
  refine ⟨?_, fun now hnow => ?_⟩
  · rw [Finset.filter_congr hactive]
    exact card_cyclicWindow hoffset hlength start.toNat
  · rw [hactive now hnow]
    exact cyclicWindow_iff_exists hoffset hlength now

/-- Two percent of 1500 seconds. -/
def sampleSettings : GridPoolSettings where
  fallbackPayoutAddress := "bc1qrwsx8fs0l6z7ugp5cvzy6lhss7jlyru3kg9s8y".toList
  operatorFeeAddress := some "bc1qce93hy5rhg02s6aeu7mfdvxg76x66pqqtrvzs3".toList
  operatorFeePercent := .finite 2
  refreshSeconds := 10
  telemetryFlushSeconds := 5
  feeCycleSeconds := 1500

theorem feeActive_fair_sample :
    ((Finset.Ico 700 2200).filter fun now =>
        feeActiveWith Sha256.digest (sampleSettings.config fun _ _ => 30) [0x30, 0x31]
          sampleSettings.fallbackPayoutAddress (UInt64.ofNat now)).card = 30 := by
  have hstart : (700 : UInt64).toNat + 2 * sampleSettings.feeCycleSeconds.toNat < 2 ^ 64 := by
    decide
  exact (feeActive_fair Sha256.digest (fun _ _ => 30) (by decide) (by decide) [0x30, 0x31]
    sampleSettings.fallbackPayoutAddress hstart).1

end GridPoolSv2.Pool
