import GridPoolSv2.JobDeclarator.MempoolMirror
import GridPoolSv2.Pool.TemplateLoop

/-!
# JobDeclarator.Bip34Height: the height a coinbase begins with

The pool writes the height of a template with `Builder::push_int` (`from_gbt`), and so does a node;
the node side of the job declarator reads it back (`decode_bip34_height_from_coinbase_script_sig`).
What is written has three forms: an opcode up to 16, and a push of the script number, which has a
zero byte at its end where the highest bit would be taken for a sign.

* A script number has at most `n + 1` bytes exactly below `128 * 256 ^ n`
  (`length_writeScriptint_le_iff`), so the heights that fit into four bytes are those below
  `2 ^ 31`.
* The reader does not look at what follows the push (`decodeBip34Height_pushInt`).
* `sameHeight_iff` is what the decision about stale tips makes of it: two coinbases compare like the
  heights they begin with.
-/

namespace GridPoolSv2.JobDeclarator

open Consensus (Bytes Transaction leNat)
open Pool (writeScriptint pushInt)

/-! ### Script numbers -/

/-- The bytes of a script number without a sign are the number, little-endian. -/
theorem leNat_writeScriptint {fuel abs : Nat} (h : abs < 256 ^ fuel) :
    leNat (writeScriptint false fuel abs) = abs := by
  induction fuel generalizing abs with
  | zero =>
      have hzero : abs = 0 := by simpa using h
      rw [hzero]
      rfl
  | succ fuel ih =>
      rw [writeScriptint]
      split
      · have hrest : abs / 256 < 256 ^ fuel := by
          rw [Nat.pow_succ] at h
          omega
        rw [leNat, ih hrest, UInt8.toNat_ofNat']
        omega
      · rename_i hbyte
        split
        · show (UInt8.ofNat abs).toNat + 256 * 0 = abs
          rw [UInt8.toNat_ofNat']
          omega
        · show (UInt8.ofNat (abs + 0)).toNat + 256 * 0 = abs
          rw [UInt8.toNat_ofNat']
          omega

theorem length_writeScriptint_pos (negative : Bool) (fuel abs : Nat) :
    0 < (writeScriptint negative (fuel + 1) abs).length := by
  rw [writeScriptint]
  split
  · exact Nat.succ_pos _
  · split
    · exact Nat.succ_pos _
    · exact Nat.succ_pos _

/-- The sign bit halves the range of the last byte. -/
theorem length_writeScriptint_le_iff (negative : Bool) {fuel abs : Nat} (n : Nat)
    (h : abs < 256 ^ fuel) :
    (writeScriptint negative fuel abs).length ≤ n + 1 ↔ abs < 128 * 256 ^ n := by
  induction fuel generalizing abs n with
  | zero =>
      have hzero : abs = 0 := by simpa using h
      have hpow : 0 < 256 ^ n := Nat.pow_pos (by decide)
      simp [writeScriptint, hzero, hpow]
  | succ fuel ih =>
      have hrest : abs / 256 < 256 ^ fuel := by
        rw [Nat.pow_succ] at h
        omega
      rw [writeScriptint]
      cases n with
      | zero =>
          split
          · -- a number of more than one byte
            rename_i hlong
            cases fuel with
            | zero =>
                rw [Nat.zero_add, Nat.pow_one] at h
                omega
            | succ fuel =>
                have hpos := length_writeScriptint_pos negative fuel (abs / 256)
                rw [List.length_cons, Nat.pow_zero]
                omega
          · split
            · simp only [List.length_cons, List.length_nil, Nat.pow_zero]
              omega
            · simp only [List.length_cons, List.length_nil, Nat.pow_zero]
              omega
      | succ n =>
          split
          · rw [List.length_cons, Nat.add_le_add_iff_right, ih n hrest, Nat.pow_succ]
            omega
          · have hpow : 0 < 256 ^ n := Nat.pow_pos (by decide)
            rw [Nat.pow_succ]
            split
            · simp only [List.length_cons, List.length_nil]
              omega
            · simp only [List.length_cons, List.length_nil]
              omega

/-! ### The push of a height -/

/-- The heights without an opcode are pushed as script numbers. -/
theorem pushInt_of_large {h : Nat} (hlarge : 16 < h) :
    pushInt h = UInt8.ofNat (writeScriptint false 8 h).length :: writeScriptint false 8 h := by
  have hsmall : ¬ ((h : Int) = -1 ∨ 1 ≤ (h : Int) ∧ (h : Int) ≤ 16) := by omega
  have hzero : ¬ (h : Int) = 0 := by omega
  have hsign : decide ((h : Int) < 0) = false := decide_eq_false (by omega)
  rw [pushInt, if_neg hsmall, if_neg hzero, hsign, Int.natAbs_natCast]

/-- A height with an opcode of its own. -/
theorem pushInt_of_small {h : Nat} (hpos : 0 < h) (hsmall : h ≤ 16) :
    pushInt h = [UInt8.ofNat (h + 0x50)] := by
  have hopcode : (h : Int) = -1 ∨ 1 ≤ (h : Int) ∧ (h : Int) ≤ 16 := by omega
  rw [pushInt, if_pos hopcode]
  rfl

/-- A push of less than `0x51` bytes is read as the number it holds, if it has at most four. -/
theorem decodeBip34Height_push {bytes : Bytes} (hpos : 0 < bytes.length)
    (hpush : bytes.length < 0x51) (trailing : Bytes) :
    decodeBip34Height (UInt8.ofNat bytes.length :: bytes ++ trailing) =
      if bytes.length ≤ 4 then some (leNat bytes) else none := by
  have hlen : (UInt8.ofNat bytes.length).toNat = bytes.length := by
    rw [UInt8.toNat_ofNat']
    omega
  have hzero : UInt8.ofNat bytes.length ≠ 0 := by
    intro heq
    rw [heq] at hlen
    exact absurd hlen.symm (Nat.ne_of_gt hpos)
  have hopcode : ¬ (0x51 ≤ UInt8.ofNat bytes.length ∧ UInt8.ofNat bytes.length ≤ 0x60) := by
    rw [UInt8.le_iff_toNat_le, hlen]
    show ¬ (81 ≤ bytes.length ∧ _)
    omega
  rw [List.cons_append, decodeBip34Height, if_neg hzero, if_neg hopcode, hlen, List.length_append,
    List.take_left]
  by_cases hshort : bytes.length ≤ 4
  · rw [if_pos hshort, if_neg (by omega)]
  · rw [if_neg hshort, if_pos (by omega)]

/-- A height with an opcode is read off the opcode. -/
theorem decodeBip34Height_opcode {h : Nat} (hpos : 0 < h) (hsmall : h ≤ 16) (trailing : Bytes) :
    decodeBip34Height (UInt8.ofNat (h + 0x50) :: trailing) = some h := by
  have hopcode : (UInt8.ofNat (h + 0x50)).toNat = h + 0x50 := by
    rw [UInt8.toNat_ofNat']
    omega
  have hzero : UInt8.ofNat (h + 0x50) ≠ 0 := by
    intro heq
    rw [heq] at hopcode
    cases hopcode
  have hrange : 0x51 ≤ UInt8.ofNat (h + 0x50) ∧ UInt8.ofNat (h + 0x50) ≤ 0x60 := by
    rw [UInt8.le_iff_toNat_le, UInt8.le_iff_toNat_le, hopcode]
    show 81 ≤ h + 80 ∧ h + 80 ≤ 96
    omega
  have hle : (0x50 : UInt8) ≤ UInt8.ofNat (h + 0x50) := by
    rw [UInt8.le_iff_toNat_le, hopcode]
    exact Nat.le_add_left _ _
  rw [decodeBip34Height, if_neg hzero, if_pos hrange, UInt8.toNat_sub_of_le _ _ hle, hopcode]
  rfl

/-- What is read of a height that was pushed as an `i64`: from `2 ^ 31` on the push is too long. -/
theorem decodeBip34Height_pushInt {h : Nat} (hlt : h < 2 ^ 63) (trailing : Bytes) :
    decodeBip34Height (pushInt h ++ trailing) = if h < 2 ^ 31 then some h else none := by
  rcases Nat.lt_or_ge 16 h with hlarge | hsmall
  · have hfuel : h < 256 ^ 8 := by omega
    have hshort : (writeScriptint false 8 h).length ≤ 4 ↔ h < 2 ^ 31 :=
      length_writeScriptint_le_iff false 3 hfuel
    have hlong : (writeScriptint false 8 h).length ≤ 8 :=
      (length_writeScriptint_le_iff false 7 hfuel).mpr hlt
    have hpush : (writeScriptint false 8 h).length < 0x51 := by omega
    rw [pushInt_of_large hlarge, decodeBip34Height_push (length_writeScriptint_pos false 7 h) hpush,
      leNat_writeScriptint hfuel, if_congr hshort rfl rfl]
  · rw [if_pos (by omega)]
    rcases Nat.eq_zero_or_pos h with rfl | hpos
    · rfl
    · rw [pushInt_of_small hpos hsmall]
      exact decodeBip34Height_opcode hpos hsmall trailing

/-- For every height below `2 ^ 31`, whatever follows the push: the reader finds the height that was
pushed. -/
theorem pushed_height_decoded {h : Nat} (hlt : h < 2 ^ 31) (trailing : Bytes) :
    decodeBip34Height (pushInt h ++ trailing) = some h := by
  rw [decodeBip34Height_pushInt (by omega), if_pos hlt]

theorem pushed_height_decoded_last :
    decodeBip34Height (pushInt (2 ^ 31 - 1 : Nat) ++ [0x51]) = some (2 ^ 31 - 1) :=
  pushed_height_decoded (by decide) [0x51]

/-! ### The heights of coinbases -/

/-- The script signature of the first input begins with the push of the height. -/
def BeginsWithHeight (coinbase : Transaction) (h : Nat) : Prop :=
  ∃ input trailing, coinbase.input.head? = some input ∧ input.scriptSig = pushInt h ++ trailing

/-- The lock time is not looked at. -/
theorem bip34Height_of_begins {coinbase : Transaction} {h : Nat} (hlt : h < 2 ^ 31)
    (hbegins : BeginsWithHeight coinbase h) : bip34Height coinbase = h := by
  obtain ⟨input, trailing, hinput, hscript⟩ := hbegins
  rw [bip34Height, hinput, Option.bind_some, hscript, decodeBip34Height_pushInt (by omega),
    if_pos hlt, Option.getD_some]

/-- A declared coinbase and that of the latest template compare like their heights. -/
theorem sameHeight_iff {hash : Bytes → Bytes} {m : MempoolMirror} {t : Template}
    {d : DeclareMiningJob} {tx : Transaction} {declared latest : Nat}
    (hdeclared : getCoinbaseTx d = .ok tx) (htx : BeginsWithHeight tx declared)
    (ht : BeginsWithHeight t.coinbase latest) (hlt : declared < 2 ^ 31) (hlt' : latest < 2 ^ 31) :
    declaredHeight d = (m.update hash t).bip34Height ↔ declared = latest := by
  have hmirror : (m.update hash t).bip34Height = latest := bip34Height_of_begins hlt' ht
  rw [hmirror, declaredHeight, hdeclared]
  dsimp only
  rw [bip34Height_of_begins hlt htx]

end GridPoolSv2.JobDeclarator
