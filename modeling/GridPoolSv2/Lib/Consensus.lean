import Mathlib.Algebra.GroupWithZero.Nat
import Mathlib.Data.List.Basic
import Mathlib.Tactic.Common

/-!
# Lib.Consensus: the transaction wire format

Decoders for the consensus encoding of transactions, over byte lists. A decoder takes
the value it is named after off the front of its input and returns the **remaining
bytes**, so that what two decoders make of one byte string can be compared by where
each of them stops.

* integers are little-endian; a `VarInt` must be in its shortest form;
* a vector is a `VarInt` count and its elements back to back;
* a transaction whose first input vector is empty carries the witness flag: input
  vector, output vector and one witness for each input follow.

`Transaction.decode` splits at the end of the input vector (`decodeInputs`): the rest of
the parse, and with it the outputs, depends only on the bytes left there
(`Transaction.decode_outputs`).

The encoders are on the right of every equation: what is shown of a decoder is what it makes of
an encoding with anything behind it. Nothing is said of how it fails.
-/

namespace Consensus

abbrev Bytes := List UInt8

/-- A decoder for a value at the front of a byte string. -/
abbrev Decoder (α : Type) := Bytes → Option (α × Bytes)

/-- `n` little-endian bytes of a number. -/
def leBytes : Nat → Nat → Bytes
  | 0, _ => []
  | n + 1, x => UInt8.ofNat x :: leBytes n (x / 256)

@[simp] theorem leBytes_length (n x : Nat) : (leBytes n x).length = n := by
  induction n generalizing x with
  | zero => rfl
  | succ n ih => simp [leBytes, ih]

/-- The number a little-endian byte string stands for. -/
def leNat : Bytes → Nat
  | [] => 0
  | b :: bs => b.toNat + 256 * leNat bs

/-- Take exactly `n` bytes. -/
def takeBytes (n : Nat) : Decoder Bytes := fun bs =>
  if n ≤ bs.length then some (bs.take n, bs.drop n) else none

/-- A little-endian integer of `n` bytes. -/
def decodeLe (n : Nat) : Decoder Nat := fun bs =>
  (takeBytes n bs).map fun (x, rest) => (leNat x, rest)

/-- A fixed-width integer that must be at least `least`: the longer forms of a `VarInt`. -/
def decodeLeFrom (n least : Nat) : Decoder Nat := fun bs =>
  match decodeLe n bs with
  | some (x, rest) => if least ≤ x then some (x, rest) else none
  | none => none

/-- A `VarInt` in its shortest form. -/
def decodeVarInt : Decoder Nat
  | [] => none
  | b :: rest =>
      if b < 0xFD then some (b.toNat, rest)
      else if b = 0xFD then decodeLeFrom 2 0xFD rest
      else if b = 0xFE then decodeLeFrom 4 0x10000 rest
      else decodeLeFrom 8 0x100000000 rest

/-- The shortest `VarInt` of a number. -/
def encodeVarInt (x : Nat) : Bytes :=
  if x < 0xFD then [UInt8.ofNat x]
  else if x < 0x10000 then 0xFD :: leBytes 2 x
  else if x < 0x100000000 then 0xFE :: leBytes 4 x
  else 0xFF :: leBytes 8 x

/-- A byte vector: its length, then the bytes. -/
def decodeVarBytes : Decoder Bytes := fun bs =>
  match decodeVarInt bs with
  | some (n, rest) => takeBytes n rest
  | none => none

/-- `n` values in a row. -/
def decodeMany {α : Type} (d : Decoder α) : Nat → Decoder (List α)
  | 0, bs => some ([], bs)
  | n + 1, bs =>
      match d bs with
      | none => none
      | some (x, rest) =>
          match decodeMany d n rest with
          | none => none
          | some (xs, rest) => some (x :: xs, rest)

/-- A vector: its count, then the elements. -/
def decodeVec {α : Type} (d : Decoder α) : Decoder (List α) := fun bs =>
  match decodeVarInt bs with
  | some (n, rest) => decodeMany d n rest
  | none => none

/-! ### Transactions -/

/-- A transaction output. -/
structure TxOut where
  value : UInt64
  scriptPubkey : Bytes
  deriving Repr, DecidableEq

/-- A transaction input. The witness is filled in by the decoder of the whole transaction. -/
structure TxIn where
  previousOutput : Bytes
  scriptSig : Bytes
  sequence : Nat
  witness : List Bytes := []
  deriving Repr, DecidableEq

structure Transaction where
  version : Nat
  input : List TxIn
  output : List TxOut
  lockTime : Nat
  deriving Repr, DecidableEq

def TxOut.decode : Decoder TxOut := fun bs =>
  match decodeLe 8 bs with
  | none => none
  | some (value, rest) =>
      match decodeVarBytes rest with
      | none => none
      | some (script, rest) => some (⟨UInt64.ofNat value, script⟩, rest)

/-- The bytes of an output. -/
def TxOut.encode (o : TxOut) : Bytes :=
  leBytes 8 o.value.toNat ++ encodeVarInt o.scriptPubkey.length ++ o.scriptPubkey

/-- The serialized size of an output. -/
def TxOut.size (o : TxOut) : Nat :=
  8 + (encodeVarInt o.scriptPubkey.length).length + o.scriptPubkey.length

/-- Legacy signature operations of a script, the first `fuel` opcodes of it. Pushed data is skipped,
and the count ends where a push runs over the end of the script. -/
def countSigops : Nat → Bytes → Nat
  | 0, _ => 0
  | _, [] => 0
  | fuel + 1, op :: rest =>
      let skip (n : Nat) (rest : Bytes) : Nat :=
        if n ≤ rest.length then countSigops fuel (rest.drop n) else 0
      let skipCounted (width : Nat) : Nat :=
        if width ≤ rest.length then skip (leNat (rest.take width)) (rest.drop width) else 0
      if op ≤ 0x4b then skip op.toNat rest
      else if op = 0x4c then skipCounted 1
      else if op = 0x4d then skipCounted 2
      else if op = 0x4e then skipCounted 4
      else if op = 0xac ∨ op = 0xad then 1 + countSigops fuel rest
      else if op = 0xae ∨ op = 0xaf then 20 + countSigops fuel rest
      else countSigops fuel rest

/-- `Script::count_sigops_legacy`. -/
def countSigopsLegacy (script : Bytes) : Nat :=
  countSigops script.length script

/-- The bytes of an output vector. -/
def TxOut.encodeVec (outs : List TxOut) : Bytes :=
  encodeVarInt outs.length ++ outs.flatMap TxOut.encode

def TxIn.decode : Decoder TxIn := fun bs =>
  match takeBytes 36 bs with
  | none => none
  | some (outpoint, rest) =>
      match decodeVarBytes rest with
      | none => none
      | some (script, rest) =>
          match decodeLe 4 rest with
          | none => none
          | some (sequence, rest) =>
              some ({ previousOutput := outpoint, scriptSig := script, sequence }, rest)

/-- The bytes of an input, without its witness. -/
def TxIn.encode (i : TxIn) : Bytes :=
  i.previousOutput ++ encodeVarInt i.scriptSig.length ++ i.scriptSig ++ leBytes 4 i.sequence

/-- The bytes of a transaction without witness data: what its id is the hash of. -/
def Transaction.encodeBase (tx : Transaction) : Bytes :=
  leBytes 4 tx.version ++ encodeVarInt tx.input.length ++ tx.input.flatMap TxIn.encode ++
    TxOut.encodeVec tx.output ++ leBytes 4 tx.lockTime

/-- The version and the input vector. The flag says whether witness data follows the outputs. -/
def decodeInputs : Decoder (Nat × List TxIn × Bool) := fun bs =>
  match decodeLe 4 bs with
  | none => none
  | some (version, rest) =>
      match decodeVec TxIn.decode rest with
      | none => none
      | some (input, rest) =>
          if input = [] then
            match rest with
            | 1 :: rest =>
                match decodeVec TxIn.decode rest with
                | none => none
                | some (input, rest) => some ((version, input, true), rest)
            | _ => none
          else some ((version, input, false), rest)

/-- One witness for each input. -/
def decodeWitnesses : List TxIn → Decoder (List TxIn)
  | [], bs => some ([], bs)
  | i :: is, bs =>
      match decodeVec decodeVarBytes bs with
      | none => none
      | some (witness, rest) =>
          match decodeWitnesses is rest with
          | none => none
          | some (is, rest) => some ({ i with witness := witness } :: is, rest)

/-- The witnesses of a flagged transaction, of which at least one must be present. -/
def decodeWitnessesIf (flagged : Bool) (input : List TxIn) : Decoder (List TxIn) := fun bs =>
  if flagged then
    match decodeWitnesses input bs with
    | none => none
    | some (input, rest) =>
        if input ≠ [] ∧ input.all (·.witness.isEmpty) then none else some (input, rest)
  else some (input, bs)

/-- `consensus_decode` of a transaction; what is left of the input is returned. -/
def Transaction.decode : Decoder Transaction := fun bs =>
  match decodeInputs bs with
  | none => none
  | some ((version, input, flagged), rest) =>
      match decodeVec TxOut.decode rest with
      | none => none
      | some (output, rest) =>
          match decodeWitnessesIf flagged input rest with
          | none => none
          | some (input, rest) =>
              match decodeLe 4 rest with
              | none => none
              | some (lockTime, rest) => some (⟨version, input, output, lockTime⟩, rest)

/-- `deserialize`: the transaction must take up all the bytes. -/
def Transaction.deserialize (bs : Bytes) : Option Transaction :=
  match Transaction.decode bs with
  | some (tx, []) => some tx
  | _ => none

theorem Transaction.decode_of_deserialize {bs : Bytes} {tx : Transaction}
    (h : Transaction.deserialize bs = some tx) : Transaction.decode bs = some (tx, []) := by
  unfold Transaction.deserialize at h
  split at h
  · rename_i tx' hdec
    rw [hdec, Option.some.inj h]
  · cases h

/-- Where the input vector of a transaction ends: the bytes its output vector is decoded from. -/
def inputsRest (bs : Bytes) : Option Bytes :=
  (decodeInputs bs).map (·.2)

/-- The outputs of a decoded transaction are those of the output vector that starts where its input
vector ends. -/
theorem Transaction.decode_outputs {bs rest : Bytes} {tx : Transaction}
    (h : Transaction.decode bs = some (tx, rest)) :
    ∃ outs rest', inputsRest bs = some outs ∧ decodeVec TxOut.decode outs = some (tx.output,
      rest') := by
  unfold Transaction.decode at h
  split at h
  · cases h
  · rename_i version input flagged outs hinputs
    split at h
    · cases h
    · rename_i output rest1 houts
      split at h
      · cases h
      · split at h
        · cases h
        · obtain ⟨rfl, rfl⟩ := Prod.mk.inj (Option.some.inj h)
          exact ⟨outs, rest1, by rw [inputsRest, hinputs]; rfl, houts⟩

/-! ### Decoding across a concatenation -/

theorem takeBytes_append {n : Nat} {xs : Bytes} (h : xs.length = n) (ys : Bytes) :
    takeBytes n (xs ++ ys) = some (xs, ys) := by
  subst h
  simp [takeBytes]

theorem decodeLe_append {n : Nat} {xs : Bytes} (h : xs.length = n) (ys : Bytes) :
    decodeLe n (xs ++ ys) = some (leNat xs, ys) := by
  rw [decodeLe, takeBytes_append h]
  rfl

theorem leNat_leBytes {n x : Nat} (h : x < 256 ^ n) : leNat (leBytes n x) = x := by
  induction n generalizing x with
  | zero => simp at h; simp [leBytes, leNat, h]
  | succ n ih =>
      have hdiv : x / 256 < 256 ^ n := by
        rw [Nat.div_lt_iff_lt_mul (by decide)]
        rwa [Nat.pow_succ] at h
      rw [leBytes, leNat, ih hdiv, UInt8.toNat_ofNat']
      omega

theorem decodeLeFrom_append {n least x : Nat} (hle : least ≤ x) (hlt : x < 256 ^ n) (ys : Bytes) :
    decodeLeFrom n least (leBytes n x ++ ys) = some (x, ys) := by
  rw [decodeLeFrom, decodeLe_append (leBytes_length n x), leNat_leBytes hlt]
  simp [hle]

theorem decodeVarInt_short {b : UInt8} (h : b < 0xFD) (rest : Bytes) :
    decodeVarInt (b :: rest) = some (b.toNat, rest) := by
  simp [decodeVarInt, h]

theorem decodeVarInt_two (rest : Bytes) :
    decodeVarInt (0xFD :: rest) = decodeLeFrom 2 0xFD rest := by
  simp [decodeVarInt]

theorem decodeVarInt_four (rest : Bytes) :
    decodeVarInt (0xFE :: rest) = decodeLeFrom 4 0x10000 rest := by
  simp [decodeVarInt]

theorem decodeVarInt_eight (rest : Bytes) :
    decodeVarInt (0xFF :: rest) = decodeLeFrom 8 0x100000000 rest := by
  simp [decodeVarInt]

/-- A `VarInt` decodes to what was encoded, whatever follows it. -/
theorem decodeVarInt_append {x : Nat} (h : x < 2 ^ 64) (ys : Bytes) :
    decodeVarInt (encodeVarInt x ++ ys) = some (x, ys) := by
  unfold encodeVarInt
  split
  · rename_i hx
    have hmod : x % 2 ^ 8 = x := Nat.mod_eq_of_lt (by omega)
    have hb : UInt8.ofNat x < 0xFD := by
      rw [UInt8.lt_iff_toNat_lt, UInt8.toNat_ofNat', hmod]
      exact hx
    rw [List.singleton_append, decodeVarInt_short hb, UInt8.toNat_ofNat', hmod]
  · rename_i hx
    split
    · rename_i hx2
      rw [List.cons_append, decodeVarInt_two]
      exact decodeLeFrom_append (Nat.le_of_not_lt hx) hx2 ys
    · rename_i hx2
      split
      · rename_i hx4
        rw [List.cons_append, decodeVarInt_four]
        exact decodeLeFrom_append (Nat.le_of_not_lt hx2) hx4 ys
      · rename_i hx4
        rw [List.cons_append, decodeVarInt_eight]
        exact decodeLeFrom_append (Nat.le_of_not_lt hx4) h ys

/-- The start of a one-input transaction: version, input count, outpoint and the length the script
signature is declared to have. -/
def oneInputStart (version outpoint : Bytes) (scriptLen : Nat) : Bytes :=
  version ++ 1 :: outpoint ++ encodeVarInt scriptLen

/-- The input vector of a one-input transaction ends four bytes, the sequence, after its script. -/
theorem inputsRest_oneInput {version outpoint : Bytes} {scriptLen : Nat} {body : Bytes}
    (hv : version.length = 4) (ho : outpoint.length = 36) (hs : scriptLen < 2 ^ 64)
    (hbody : scriptLen + 4 ≤ body.length) :
    inputsRest (oneInputStart version outpoint scriptLen ++ body) =
      some (body.drop (scriptLen + 4)) := by
  have hscript : takeBytes scriptLen body = some (body.take scriptLen, body.drop scriptLen) := by
    simp [takeBytes, (by omega : scriptLen ≤ body.length)]
  have hseq : takeBytes 4 (body.drop scriptLen) =
      some ((body.drop scriptLen).take 4, body.drop (scriptLen + 4)) := by
    rw [takeBytes, if_pos (by rw [List.length_drop]; omega), List.drop_drop]
  have hin : ∃ i, TxIn.decode (outpoint ++ (encodeVarInt scriptLen ++ body)) =
      some (i, body.drop (scriptLen + 4)) := by
    simp only [TxIn.decode, takeBytes_append ho, decodeVarBytes, decodeVarInt_append hs, hscript,
      decodeLe, hseq, Option.map_some]
    exact ⟨_, rfl⟩
  obtain ⟨i, hi⟩ := hin
  have hvec : decodeVec TxIn.decode (1 :: (outpoint ++ (encodeVarInt scriptLen ++ body))) =
      some ([i], body.drop (scriptLen + 4)) := by
    rw [decodeVec, decodeVarInt_short (by decide)]
    show decodeMany TxIn.decode 1 _ = _
    simp only [decodeMany, hi]
  have happ : oneInputStart version outpoint scriptLen ++ body =
      version ++ (1 :: (outpoint ++ (encodeVarInt scriptLen ++ body))) := by
    simp [oneInputStart]
  rw [inputsRest, decodeInputs, happ, decodeLe_append hv]
  simp only [hvec]
  rfl

/-! ### Script signatures of a flagged transaction -/

/-- Filling in the witnesses leaves the script signatures alone. -/
theorem decodeWitnesses_scriptSig {is is' : List TxIn} {bs rest : Bytes}
    (h : decodeWitnesses is bs = some (is', rest)) :
    is'.map (·.scriptSig) = is.map (·.scriptSig) := by
  induction is generalizing is' bs rest with
  | nil =>
      obtain ⟨rfl, rfl⟩ := Prod.mk.inj (Option.some.inj h)
      rfl
  | cons i is ih =>
      simp only [decodeWitnesses] at h
      split at h
      · cases h
      · split at h
        · cases h
        · rename_i hrest
          obtain ⟨rfl, rfl⟩ := Prod.mk.inj (Option.some.inj h)
          rw [List.map_cons, List.map_cons, ih hrest]

theorem decodeWitnessesIf_scriptSig {flagged : Bool} {is is' : List TxIn} {bs rest : Bytes}
    (h : decodeWitnessesIf flagged is bs = some (is', rest)) :
    is'.map (·.scriptSig) = is.map (·.scriptSig) := by
  unfold decodeWitnessesIf at h
  split at h
  · split at h
    · cases h
    · rename_i hdec
      split at h
      · cases h
      · obtain ⟨rfl, rfl⟩ := Prod.mk.inj (Option.some.inj h)
        exact decodeWitnesses_scriptSig hdec
  · obtain ⟨rfl, rfl⟩ := Prod.mk.inj (Option.some.inj h)
    rfl

/-- The script signatures of a decoded transaction are those of its input vector. -/
theorem Transaction.decode_scriptSigs {bs rest : Bytes} {tx : Transaction}
    (h : Transaction.decode bs = some (tx, rest)) :
    ∃ version input flagged outs, decodeInputs bs = some ((version, input, flagged), outs) ∧
      tx.input.map (·.scriptSig) = input.map (·.scriptSig) := by
  unfold Transaction.decode at h
  split at h
  · cases h
  · rename_i version input flagged outs hinputs
    split at h
    · cases h
    · split at h
      · cases h
      · rename_i hwit
        split at h
        · cases h
        · obtain ⟨rfl, rfl⟩ := Prod.mk.inj (Option.some.inj h)
          exact ⟨version, input, flagged, outs, hinputs, decodeWitnessesIf_scriptSig hwit⟩

theorem TxIn.decode_scriptSig {outpoint script bs rest : Bytes} {i : TxIn}
    (ho : outpoint.length = 36) (hs : script.length < 2 ^ 64)
    (h : TxIn.decode (outpoint ++ (encodeVarInt script.length ++ (script ++ bs))) =
      some (i, rest)) :
    i.scriptSig = script := by
  simp only [TxIn.decode, takeBytes_append ho, decodeVarBytes, decodeVarInt_append hs,
    takeBytes_append rfl] at h
  split at h
  · cases h
  · obtain ⟨rfl, _⟩ := Prod.mk.inj (Option.some.inj h)
    rfl

/-- The start of a one-input transaction with witness flag: version, empty input vector, flag, input
count, outpoint and the length of the script signature. -/
def flaggedStart (version outpoint : Bytes) (scriptLen : Nat) : Bytes :=
  version ++ ([0, 1, 1] ++ (outpoint ++ encodeVarInt scriptLen))

theorem flaggedStart_length (version outpoint : Bytes) (scriptLen : Nat) :
    (flaggedStart version outpoint scriptLen).length =
      version.length + outpoint.length + 3 + (encodeVarInt scriptLen).length := by
  simp only [flaggedStart, List.length_append, List.length_cons, List.length_nil]
  omega

/-- The script signature of a one-input transaction with witness flag. -/
theorem Transaction.decode_flagged {version outpoint script bs rest : Bytes} {tx : Transaction}
    (hv : version.length = 4) (ho : outpoint.length = 36) (hs : script.length < 2 ^ 64)
    (h : Transaction.decode (flaggedStart version outpoint script.length ++ (script ++ bs)) =
      some (tx, rest)) : tx.input.map (·.scriptSig) = [script] := by
  obtain ⟨v, input, flagged, outs, hinputs, hsigs⟩ := Transaction.decode_scriptSigs h
  have happ : flaggedStart version outpoint script.length ++ (script ++ bs) =
      version ++ (0 :: 1 :: 1 :: (outpoint ++ (encodeVarInt script.length ++ (script ++ bs)))) := by
    simp [flaggedStart]
  have hempty : decodeVec TxIn.decode
      (0 :: 1 :: 1 :: (outpoint ++ (encodeVarInt script.length ++ (script ++ bs)))) =
      some ([], 1 :: 1 :: (outpoint ++ (encodeVarInt script.length ++ (script ++ bs)))) := by
    rw [decodeVec, decodeVarInt_short (by decide)]
    rfl
  rw [happ, decodeInputs, decodeLe_append hv] at hinputs
  simp only [hempty, if_true] at hinputs
  split at hinputs
  · cases hinputs
  · rename_i hone
    obtain ⟨hfields, _⟩ := Prod.mk.inj (Option.some.inj hinputs)
    obtain ⟨_, rfl, _⟩ := Prod.mk.inj hfields |>.imp_right Prod.mk.inj
    rw [hsigs]
    rw [decodeVec, decodeVarInt_short (by decide)] at hone
    change decodeMany TxIn.decode 1 _ = _ at hone
    simp only [decodeMany] at hone
    split at hone
    · cases hone
    · rename_i i _ hi
      obtain ⟨rfl, _⟩ := Prod.mk.inj (Option.some.inj hone)
      rw [List.map_cons, List.map_nil, TxIn.decode_scriptSig ho hs hi]

end Consensus
