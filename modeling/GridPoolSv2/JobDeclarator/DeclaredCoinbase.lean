import GridPoolSv2.JobDeclarator.JobValidation
import GridPoolSv2.Lib.TxWeight

/-!
# JobDeclarator.DeclaredCoinbase: rebuilding the coinbase of a declaration

`DeclaredCustomJob::get_coinbase_tx` step by step, with what `getCoinbaseTx` leaves out: why
it panics, and how many bytes it asks for. The client chooses all the bytes it works on.

* The prefix is sliced at byte 43, the declared length of the script signature minus the
  bytes of it in the prefix is the length of the zero extranonce, and that many zeros are
  allocated. None of the three is checked.
* The bytes are decoded from the front, whatever is left over. A prefix that is already a
  whole transaction is accepted as it is, and the zeros and the suffix have no part in it.

`Consistent` is what a message has to satisfy for none of this to happen
(`rebuilds_iff_consistent`). How large an allocation a message justifies is a parameter.

Left out: the reader of `consensus_decode` stops after 4,000,000 bytes. The two halves of a message
are at most 65,535 bytes each, so that only the zeros make a coinbase that long; the source answers
it with the decoding error then.
-/

namespace GridPoolSv2.JobDeclarator

open Consensus

/-! ### The function

The same steps as `getCoinbaseTx`, but a trap says which step panicked, and the run counts the bytes
that were asked for. -/

/-- How `get_coinbase_tx` ends without a transaction. -/
inductive CoinbaseTrap where
  /-- `&prefix[43..]` is out of range. -/
  | sliceOutOfRange
  /-- A subtraction underflows; where it wraps instead, `vec!` panics on the result. -/
  | underflow
  /-- `vec!` is asked for more than `isize::MAX` bytes. -/
  | capacityOverflow
  /-- `Err(())`. -/
  | decodeError
  deriving Repr, DecidableEq

/-- A run of `get_coinbase_tx`: the bytes `vec![0; n]` asks for, and how it ends. -/
structure CoinbaseRun where
  allocated : Nat := 0
  result : Except CoinbaseTrap Transaction
  deriving DecidableEq

/-- `DeclaredCustomJob::get_coinbase_tx`. -/
def rebuildCoinbase (d : DeclareMiningJob) : CoinbaseRun :=
  let pre := d.coinbaseTxPrefix
  if pre.length < coinbasePrefixLen then { result := .error .sliceOutOfRange }
  else
    match decodeVarInt (pre.drop coinbasePrefixLen) with
    | none => { result := .error .decodeError }
    | some (scriptSigSize, _) =>
        let scriptSigOffset := coinbasePrefixLen + (encodeVarInt scriptSigSize).length
        if pre.length < scriptSigOffset then { result := .error .underflow }
        else
          let scriptSigBytesInPrefix := pre.length - scriptSigOffset
          if scriptSigSize < scriptSigBytesInPrefix then { result := .error .underflow }
          else
            let fullExtranonceSize := scriptSigSize - scriptSigBytesInPrefix
            if 2 ^ 63 ≤ fullExtranonceSize then
              { allocated := fullExtranonceSize, result := .error .capacityOverflow }
            else
              { allocated := fullExtranonceSize
                result :=
                  match Transaction.decode
                      (pre ++ List.replicate fullExtranonceSize 0 ++ d.coinbaseTxSuffix) with
                  | none => .error .decodeError
                  | some (tx, _) => .ok tx }

/-- What the engine makes of the way a run ends. -/
def CoinbaseTrap.fault : CoinbaseTrap → CoinbaseFault
  | .decodeError => .invalid
  | _ => .panic

/-- The run with a declared length: `part` is what the prefix has of the script signature. -/
theorem rebuildCoinbase_of_size {d : DeclareMiningJob} {size : Nat} {part : Bytes}
    (hlong : coinbasePrefixLen ≤ d.coinbaseTxPrefix.length)
    (hsize : decodeVarInt (d.coinbaseTxPrefix.drop coinbasePrefixLen) = some (size, part)) :
    rebuildCoinbase d =
      if size < part.length then { result := .error .underflow }
      else if 2 ^ 63 ≤ size - part.length then
        { allocated := size - part.length, result := .error .capacityOverflow }
      else
        { allocated := size - part.length
          result :=
            match Transaction.decode (d.coinbaseTxPrefix ++ List.replicate (size - part.length) 0 ++
                d.coinbaseTxSuffix) with
            | none => .error .decodeError
            | some (tx, _) => .ok tx } := by
  -- the length is in its shortest form, so that `VarInt::size` is the number of bytes read
  have hlen := congrArg List.length (decodeVarInt_canonical hsize)
  rw [List.length_drop, List.length_append] at hlen
  have hpart : d.coinbaseTxPrefix.length - (coinbasePrefixLen + (encodeVarInt size).length) =
      part.length := by omega
  unfold rebuildCoinbase
  dsimp only
  rw [if_neg (by omega), hsize]
  dsimp only
  rw [if_neg (by omega), hpart]

/-- The engine's function is the run without its allocation. -/
theorem getCoinbaseTx_eq (d : DeclareMiningJob) :
    getCoinbaseTx d = (rebuildCoinbase d).result.mapError CoinbaseTrap.fault := by
  by_cases hshort : d.coinbaseTxPrefix.length < coinbasePrefixLen
  · rw [getCoinbaseTx, rebuildCoinbase]
    dsimp only
    rw [if_pos hshort, if_pos hshort]
    rfl
  · cases hsize : decodeVarInt (d.coinbaseTxPrefix.drop coinbasePrefixLen) with
    | none =>
        rw [getCoinbaseTx, rebuildCoinbase]
        dsimp only
        rw [if_neg hshort, if_neg hshort, hsize]
        rfl
    | some found =>
        obtain ⟨size, part⟩ := found
        have hlen := congrArg List.length (decodeVarInt_canonical hsize)
        rw [List.length_drop, List.length_append] at hlen
        have hpart : d.coinbaseTxPrefix.length - (coinbasePrefixLen + (encodeVarInt size).length) =
            part.length := by omega
        rw [rebuildCoinbase_of_size (Nat.le_of_not_lt hshort) hsize, getCoinbaseTx]
        dsimp only
        rw [if_neg hshort, hsize]
        dsimp only
        rw [hpart]
        by_cases hunder : size < part.length
        · rw [if_pos (.inl hunder), if_pos hunder]
          rfl
        · by_cases hlarge : 2 ^ 63 ≤ size - part.length
          · rw [if_pos (.inr hlarge), if_neg hunder, if_pos hlarge]
            rfl
          · rw [if_neg (not_or.mpr ⟨hunder, hlarge⟩), if_neg hunder, if_neg hlarge]
            cases hdec : Transaction.decode (d.coinbaseTxPrefix ++
                List.replicate (size - part.length) 0 ++ d.coinbaseTxSuffix) with
            | none => rfl
            | some decoded => rfl

/-! ### The messages that are rebuilt as declared

`Rebuilds` is the property of one run, and `Consistent` a condition on the message. The first four
lemmas read the condition off a run. -/

/-- A message is rebuilt safely: the run ends with `Ok` or `Err`, asks for no more than `limit`
bytes, and an `Ok` transaction is the prefix, zeros up to the declared length of the script
signature and the beginning of the suffix. -/
structure Rebuilds (limit : Nat) (d : DeclareMiningJob) : Prop where
  returns : ∀ trap, (rebuildCoinbase d).result = .error trap → trap = .decodeError
  allocated : (rebuildCoinbase d).allocated ≤ limit
  serialized : ∀ tx, (rebuildCoinbase d).result = .ok tx →
    ∃ size part n tail,
      decodeVarInt (d.coinbaseTxPrefix.drop coinbasePrefixLen) = some (size, part) ∧
      part.length + n = size ∧ tail <+: d.coinbaseTxSuffix ∧
      tx.encode = d.coinbaseTxPrefix ++ List.replicate n 0 ++ tail

/-- The prefix reaches byte 43, the length declared there covers what follows it in the prefix and
asks for at most `limit` zeros, and prefix and zeros are not a transaction with bytes to spare. -/
structure Consistent (limit : Nat) (d : DeclareMiningJob) : Prop where
  long : coinbasePrefixLen ≤ d.coinbaseTxPrefix.length
  declared : ∀ size part,
    decodeVarInt (d.coinbaseTxPrefix.drop coinbasePrefixLen) = some (size, part) →
      part.length ≤ size ∧ size - part.length ≤ limit ∧ size - part.length < 2 ^ 63 ∧
        ∀ tx left, Transaction.decode
          (d.coinbaseTxPrefix ++ List.replicate (size - part.length) 0) = some (tx, left) →
            left = []

section Declared

variable {limit : Nat} {d : DeclareMiningJob} {size : Nat} {part : Bytes}

/-- A transaction that takes up the prefix and the zeros ends in the suffix. -/
theorem serialized_of_decode {n : Nat} {tx : Transaction} {rest : Bytes}
    (h : Transaction.decode (d.coinbaseTxPrefix ++ List.replicate n 0 ++ d.coinbaseTxSuffix) =
      some (tx, rest))
    (hwhole : ∀ tx left, Transaction.decode (d.coinbaseTxPrefix ++ List.replicate n 0) =
      some (tx, left) → left = []) :
    ∃ tail, tail <+: d.coinbaseTxSuffix ∧
      tx.encode = d.coinbaseTxPrefix ++ List.replicate n 0 ++ tail := by
  by_cases hlen : d.coinbaseTxSuffix.length ≤ rest.length
  · obtain ⟨left, hrest, hdec⟩ := Transaction.decode_of_append h hlen
    obtain rfl := hwhole _ _ hdec
    refine ⟨[], List.nil_prefix, ?_⟩
    have hbs := Transaction.decode_canonical hdec
    rw [List.append_nil] at hbs ⊢
    exact hbs.symm
  · -- what is left over is a part of the suffix
    have hbs := Transaction.decode_canonical h
    have hsuffix : rest <:+ d.coinbaseTxSuffix := by
      have hwhole : d.coinbaseTxSuffix <:+ tx.encode ++ rest := by
        rw [← hbs]
        exact List.suffix_append _ _
      exact List.suffix_of_suffix_length_le (List.suffix_append _ _) hwhole (by omega)
    obtain ⟨tail, htail⟩ := hsuffix
    refine ⟨tail, ⟨rest, htail⟩, ?_⟩
    rw [← htail, ← List.append_assoc] at hbs
    exact (List.append_cancel_right hbs).symm

theorem Consistent.rebuilds (h : Consistent limit d) : Rebuilds limit d := by
  cases hsize : decodeVarInt (d.coinbaseTxPrefix.drop coinbasePrefixLen) with
  | none =>
      have hrun : rebuildCoinbase d = { result := .error .decodeError } := by
        unfold rebuildCoinbase
        dsimp only
        rw [if_neg (Nat.not_lt.mpr h.long), hsize]
      refine ⟨?_, ?_, ?_⟩
      · intro trap htrap
        rw [hrun] at htrap
        cases htrap
        rfl
      · rw [hrun]
        exact Nat.zero_le _
      · intro tx htx
        rw [hrun] at htx
        cases htx
  | some found =>
      obtain ⟨size, part⟩ := found
      obtain ⟨hcovers, hlimit, hsmall, hwhole⟩ := h.declared size part hsize
      have hrun := rebuildCoinbase_of_size h.long hsize
      rw [if_neg (by omega), if_neg (by omega)] at hrun
      cases hdec : Transaction.decode (d.coinbaseTxPrefix ++
          List.replicate (size - part.length) 0 ++ d.coinbaseTxSuffix) with
      | none =>
          rw [hdec] at hrun
          refine ⟨?_, ?_, ?_⟩
          · intro trap htrap
            rw [hrun] at htrap
            cases htrap
            rfl
          · rw [hrun]
            exact hlimit
          · intro tx htx
            rw [hrun] at htx
            cases htx
      | some decoded =>
          obtain ⟨tx, rest⟩ := decoded
          rw [hdec] at hrun
          refine ⟨?_, ?_, ?_⟩
          · intro trap htrap
            rw [hrun] at htrap
            cases htrap
          · rw [hrun]
            exact hlimit
          · intro tx' htx'
            rw [hrun] at htx'
            obtain rfl := Except.ok.inj htx'
            obtain ⟨tail, htail, henc⟩ := serialized_of_decode hdec hwhole
            exact ⟨size, part, size - part.length, tail, hsize, by omega, htail, henc⟩

theorem Rebuilds.long (h : Rebuilds limit d) : coinbasePrefixLen ≤ d.coinbaseTxPrefix.length := by
  by_contra hshort
  have hrun : (rebuildCoinbase d).result = .error .sliceOutOfRange := by
    unfold rebuildCoinbase
    dsimp only
    rw [if_pos (Nat.lt_of_not_le hshort)]
  cases h.returns _ hrun

/-- The declared length covers what is in the prefix, and the rest may be allocated. -/
theorem Rebuilds.declared (h : Rebuilds limit d)
    (hsize : decodeVarInt (d.coinbaseTxPrefix.drop coinbasePrefixLen) = some (size, part)) :
    part.length ≤ size ∧ size - part.length ≤ limit ∧ size - part.length < 2 ^ 63 := by
  have hrun := rebuildCoinbase_of_size h.long hsize
  by_cases hunder : size < part.length
  · rw [if_pos hunder] at hrun
    cases h.returns _ (by rw [hrun])
  · rw [if_neg hunder] at hrun
    by_cases hlarge : 2 ^ 63 ≤ size - part.length
    · rw [if_pos hlarge] at hrun
      cases h.returns _ (by rw [hrun])
    · rw [if_neg hlarge] at hrun
      have hlimit := h.allocated
      rw [hrun] at hlimit
      exact ⟨Nat.le_of_not_lt hunder, hlimit, Nat.lt_of_not_le hlarge⟩

/-- The decoded transaction is the prefix, the zeros and the beginning of the suffix. -/
theorem Rebuilds.whole (h : Rebuilds limit d)
    (hsize : decodeVarInt (d.coinbaseTxPrefix.drop coinbasePrefixLen) = some (size, part))
    {tx : Transaction} {left : Bytes}
    (hdec : Transaction.decode (d.coinbaseTxPrefix ++ List.replicate (size - part.length) 0) =
      some (tx, left)) : left = [] := by
  obtain ⟨hcovers, hlimit, hsmall⟩ := h.declared hsize
  have hrun := rebuildCoinbase_of_size h.long hsize
  rw [if_neg (by omega), if_neg (by omega),
    Transaction.decode_append hdec d.coinbaseTxSuffix] at hrun
  obtain ⟨size', part', n, tail, hsize', hn, -, henc⟩ := h.serialized tx (by rw [hrun])
  obtain ⟨rfl, rfl⟩ := Prod.mk.inj (Option.some.inj (hsize'.symm.trans hsize))
  obtain rfl : n = size' - part'.length := by omega
  -- the transaction is as long as prefix and zeros, and is read from them
  have hbs := congrArg List.length (Transaction.decode_canonical hdec)
  rw [henc] at hbs
  simp only [List.length_append] at hbs
  exact List.eq_nil_of_length_eq_zero (by omega)

end Declared

/-- A declared coinbase is rebuilt safely **exactly** when the message is consistent, whatever limit
its allocation is held to. -/
theorem rebuilds_iff_consistent (limit : Nat) (d : DeclareMiningJob) :
    Rebuilds limit d ↔ Consistent limit d := by
  refine ⟨?_, Consistent.rebuilds⟩
  intro h
  refine ⟨h.long, ?_⟩
  intro size part hsize
  obtain ⟨hcovers, hlimit, hsmall⟩ := h.declared hsize
  exact ⟨hcovers, hlimit, hsmall, fun tx left hdec => h.whole hsize hdec⟩

/-- A declaration of the given coinbase halves. -/
def coinbaseDeclaration (pre suffix : Bytes) : DeclareMiningJob where
  requestId := 1
  miningJobToken := leBytes 8 0
  version := 0x20000000
  coinbaseTxPrefix := pre
  coinbaseTxSuffix := suffix
  wtxidList := []

/-- 43 bytes in the place of a coinbase with witness flag up to its script signature. -/
def coinbaseStart : Bytes :=
  [2, 0, 0, 0, 0, 1, 1] ++ List.replicate 32 0 ++ List.replicate 4 0xff

/-- A whole transaction without witness whose byte 43, in its sequence, reads as length 100. -/
def wholeTransaction : Bytes :=
  [2, 0, 0, 0, 1] ++ List.replicate 36 0 ++ [0, 0xff, 100, 0xff, 0xff, 0, 0, 0, 0, 0]

/-- An empty prefix, a length that is too small, a length that is too large, and a prefix that is a
transaction already. -/
theorem unchecked_coinbase_halves :
    (rebuildCoinbase (coinbaseDeclaration [] [])).result = .error .sliceOutOfRange ∧
      (rebuildCoinbase (coinbaseDeclaration (coinbaseStart ++ [0, 7]) [])).result =
        .error .underflow ∧
      (rebuildCoinbase (coinbaseDeclaration
        (coinbaseStart ++ [0xff, 0, 0, 0, 0, 0, 0, 0, 0x80]) [])).result =
          .error .capacityOverflow ∧
      (rebuildCoinbase (coinbaseDeclaration
        (coinbaseStart ++ [0xff, 0, 0, 0, 0, 0, 0, 0, 0x80]) [])).allocated = 2 ^ 63 ∧
      (∃ tx, (rebuildCoinbase (coinbaseDeclaration wholeTransaction [])).result = .ok tx ∧
        tx.encode = wholeTransaction ∧
        (rebuildCoinbase (coinbaseDeclaration wholeTransaction [])).allocated = 93) ∧
      ¬Rebuilds (2 ^ 64) (coinbaseDeclaration [] []) := by
  refine ⟨by decide, by decide, by decide, by decide, ?_, ?_⟩
  · exact ⟨⟨2, [⟨List.replicate 36 0, [], 0xffff64ff, []⟩], [], 0⟩, by decide +kernel,
      by decide +kernel, by decide +kernel⟩
  · intro h
    cases h.returns .sliceOutOfRange (by decide)

end GridPoolSv2.JobDeclarator
