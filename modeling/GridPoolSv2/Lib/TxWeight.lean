import GridPoolSv2.Lib.Consensus

/-!
# Lib.TxWeight: serialized transactions and their weight

`Transaction.encode` is the wire form of a transaction, with the witness flag where it is
needed, and `Transaction.weight` counts every byte outside the witness four times.

* `Canonical d enc`: what decoder `d` accepts is the encoding of what it returns, so that
  sizes can be read off decoded values. Each decoder of `Lib.Consensus` is canonical.
* `Reads d enc x`: decoder `d` gives `x` back from its encoding, whatever follows.
  `Transaction.reads` says so for every transaction whose fields fit their wire form.
* What a decoder returns fits its wire form (`Transaction.decode_wellFormed`), hence where a
  transaction ends does not depend on the bytes after it (`Transaction.decode_append`).

Proof shape: a transaction is decoded in three parts (inputs, outputs, witnesses), and every lemma
comes once for each part. Canonicity goes from the decoder to the encoding and needs no assumption,
since the decoders refuse a length that is not written in its shortest form
(`decodeVarInt_canonical`). Reading back goes the other way and needs `WellFormed`. The witness flag
is the delicate point: a transaction without inputs is written with the flag, because a decoder
would take its input count of zero for one.
-/

namespace Consensus

/-- A byte string with its length in front. -/
def encodeVarBytes (bs : Bytes) : Bytes :=
  encodeVarInt bs.length ++ bs

/-- A vector of encoded values. -/
def encodeVec {α : Type} (enc : α → Bytes) (xs : List α) : Bytes :=
  encodeVarInt xs.length ++ xs.flatMap enc

/-- The bytes of the witness of an input. -/
def TxIn.encodeWitness (i : TxIn) : Bytes :=
  encodeVec encodeVarBytes i.witness

/-- Whether the witness flag is written: some input has a witness, or there is no input. -/
def Transaction.flagged (tx : Transaction) : Bool :=
  tx.input.isEmpty || !tx.input.all (·.witness.isEmpty)

/-- The bytes of a transaction with its witnesses. -/
def Transaction.encode (tx : Transaction) : Bytes :=
  leBytes 4 tx.version ++ ((if tx.flagged then [0, 1] else []) ++
    (encodeVec TxIn.encode tx.input ++ (encodeVec TxOut.encode tx.output ++
      ((if tx.flagged then tx.input.flatMap TxIn.encodeWitness else []) ++ leBytes 4 tx.lockTime))))

/-- `Transaction::weight`. -/
def Transaction.weight (tx : Transaction) : Nat :=
  3 * tx.encodeBase.length + tx.encode.length

theorem Transaction.encode_length (tx : Transaction) :
    tx.encode.length = tx.encodeBase.length +
      if tx.flagged then 2 + (tx.input.flatMap TxIn.encodeWitness).length else 0 := by
  unfold Transaction.encode Transaction.encodeBase encodeVec TxOut.encodeVec
  split <;> simp only [List.length_append, List.length_cons, List.length_nil] <;> omega

theorem Transaction.weight_le (tx : Transaction) : tx.weight ≤ 4 * tx.encode.length := by
  have h := tx.encode_length
  unfold Transaction.weight
  omega

theorem Transaction.weight_pos (tx : Transaction) : 0 < tx.weight := by
  have h : 4 ≤ tx.encodeBase.length := by
    unfold Transaction.encodeBase
    simp only [List.length_append, leBytes_length]
    omega
  unfold Transaction.weight
  omega

/-! ### Canonical decoders -/

/-- What the decoder accepts is the encoding of what it returns. -/
def Canonical {α : Type} (d : Decoder α) (enc : α → Bytes) : Prop :=
  ∀ {bs : Bytes} {x : α} {rest : Bytes}, d bs = some (x, rest) → bs = enc x ++ rest

theorem leNat_lt (xs : Bytes) : leNat xs < 256 ^ xs.length := by
  induction xs with
  | nil => exact Nat.one_pos
  | cons b xs ih =>
      have hb := b.toNat_lt
      rw [leNat, List.length_cons, Nat.pow_succ]
      omega

theorem leBytes_leNat (xs : Bytes) : leBytes xs.length (leNat xs) = xs := by
  induction xs with
  | nil => rfl
  | cons b xs ih =>
      have hb := b.toNat_lt
      have hdiv : (b.toNat + 256 * leNat xs) / 256 = leNat xs := by omega
      have hbyte : UInt8.ofNat (b.toNat + 256 * leNat xs) = b := by
        apply UInt8.toNat_inj.mp
        rw [UInt8.toNat_ofNat']
        omega
      rw [List.length_cons, leBytes, leNat, hdiv, ih, hbyte]

theorem takeBytes_eq_some {n : Nat} {bs x rest : Bytes} (h : takeBytes n bs = some (x, rest)) :
    x.length = n ∧ bs = x ++ rest := by
  unfold takeBytes at h
  split at h
  · rename_i hle
    obtain ⟨rfl, rfl⟩ := Prod.mk.inj (Option.some.inj h)
    exact ⟨List.length_take_of_le hle, (List.take_append_drop n bs).symm⟩
  · cases h

theorem decodeLe_eq_some {n x : Nat} {bs rest : Bytes} (h : decodeLe n bs = some (x, rest)) :
    x < 256 ^ n ∧ bs = leBytes n x ++ rest := by
  obtain ⟨⟨xs, rest'⟩, htake, heq⟩ := Option.map_eq_some_iff.mp h
  obtain ⟨rfl, rfl⟩ := Prod.mk.inj heq
  obtain ⟨rfl, rfl⟩ := takeBytes_eq_some htake
  exact ⟨leNat_lt xs, by rw [leBytes_leNat]⟩

theorem decodeLeFrom_eq_some {n least x : Nat} {bs rest : Bytes}
    (h : decodeLeFrom n least bs = some (x, rest)) :
    least ≤ x ∧ x < 256 ^ n ∧ bs = leBytes n x ++ rest := by
  unfold decodeLeFrom at h
  split at h
  · rename_i hdec
    split at h
    · rename_i hle
      obtain ⟨rfl, rfl⟩ := Prod.mk.inj (Option.some.inj h)
      exact ⟨hle, decodeLe_eq_some hdec⟩
    · cases h
  · cases h

/-- Only the shortest form of a `VarInt` is accepted. -/
theorem decodeVarInt_canonical : Canonical decodeVarInt encodeVarInt := by
  intro bs x rest h
  unfold decodeVarInt at h
  split at h
  · cases h
  · rename_i b tail
    split at h
    · rename_i hb
      obtain ⟨rfl, rfl⟩ := Prod.mk.inj (Option.some.inj h)
      have hlt : b.toNat < 0xFD := by simpa [UInt8.lt_iff_toNat_lt] using hb
      rw [encodeVarInt, if_pos hlt, UInt8.ofNat_toNat, List.singleton_append]
    · split at h
      · rename_i hb
        obtain ⟨hle, hlt, rfl⟩ := decodeLeFrom_eq_some h
        rw [encodeVarInt, if_neg (by omega), if_pos (show x < 0x10000 from hlt), hb,
          List.cons_append]
      · split at h
        · rename_i hb
          obtain ⟨hle, hlt, rfl⟩ := decodeLeFrom_eq_some h
          rw [encodeVarInt, if_neg (by omega), if_neg (by omega),
            if_pos (show x < 0x100000000 from hlt), hb, List.cons_append]
        · rename_i h1 h2 h3
          obtain ⟨hle, hlt, rfl⟩ := decodeLeFrom_eq_some h
          have hb : b = 0xFF := by
            have := b.toNat_lt
            simp only [← UInt8.toNat_inj, UInt8.lt_iff_toNat_lt] at h1 h2 h3 ⊢
            simp at h1 h2 h3 ⊢
            omega
          rw [encodeVarInt, if_neg (by omega), if_neg (by omega), if_neg (by omega), hb,
            List.cons_append]

theorem decodeVarBytes_canonical : Canonical decodeVarBytes encodeVarBytes := by
  intro bs x rest h
  unfold decodeVarBytes at h
  split at h
  · rename_i hn
    obtain ⟨rfl, rfl⟩ := takeBytes_eq_some h
    rw [decodeVarInt_canonical hn, encodeVarBytes, List.append_assoc]
  · cases h

/-- Decoding many values of one kind; the count is the number of values. -/
theorem decodeMany_eq_some {α : Type} {d : Decoder α} {enc : α → Bytes} {P : α → Prop}
    (hd : ∀ {bs x rest}, d bs = some (x, rest) → bs = enc x ++ rest ∧ P x) {n : Nat}
    {bs rest : Bytes} {xs : List α} (h : decodeMany d n bs = some (xs, rest)) :
    xs.length = n ∧ bs = xs.flatMap enc ++ rest ∧ ∀ x ∈ xs, P x := by
  induction n generalizing bs xs with
  | zero =>
      obtain ⟨rfl, rfl⟩ := Prod.mk.inj (Option.some.inj h)
      exact ⟨rfl, rfl, nofun⟩
  | succ n ih =>
      simp only [decodeMany] at h
      split at h
      · cases h
      · rename_i x tail hx
        split at h
        · cases h
        · rename_i hmany
          obtain ⟨rfl, rfl⟩ := Prod.mk.inj (Option.some.inj h)
          obtain ⟨hlen, htail, hall⟩ := ih hmany
          obtain ⟨hbs, hP⟩ := hd hx
          refine ⟨by rw [List.length_cons, hlen], ?_, List.forall_mem_cons.mpr ⟨hP, hall⟩⟩
          rw [hbs, htail, List.flatMap_cons, List.append_assoc]

theorem decodeVec_eq_some {α : Type} {d : Decoder α} {enc : α → Bytes} {P : α → Prop}
    (hd : ∀ {bs x rest}, d bs = some (x, rest) → bs = enc x ++ rest ∧ P x) {bs rest : Bytes}
    {xs : List α} (h : decodeVec d bs = some (xs, rest)) :
    bs = encodeVec enc xs ++ rest ∧ ∀ x ∈ xs, P x := by
  unfold decodeVec at h
  split at h
  · rename_i hn
    obtain ⟨rfl, rfl, hall⟩ := decodeMany_eq_some hd h
    exact ⟨by rw [decodeVarInt_canonical hn, encodeVec, List.append_assoc], hall⟩
  · cases h

theorem Canonical.vec {α : Type} {d : Decoder α} {enc : α → Bytes} (hd : Canonical d enc) :
    Canonical (decodeVec d) (encodeVec enc) := by
  intro bs xs rest h
  exact (decodeVec_eq_some (P := fun _ => True) (fun h => ⟨hd h, trivial⟩) h).1

theorem TxOut.decode_canonical : Canonical TxOut.decode TxOut.encode := by
  intro bs o rest h
  unfold TxOut.decode at h
  split at h
  · cases h
  · rename_i value tail hvalue
    split at h
    · cases h
    · rename_i script tail' hscript
      obtain ⟨rfl, rfl⟩ := Prod.mk.inj (Option.some.inj h)
      obtain ⟨hlt, rfl⟩ := decodeLe_eq_some hvalue
      have htoNat : (UInt64.ofNat value).toNat = value := by
        rw [UInt64.toNat_ofNat']
        exact Nat.mod_eq_of_lt hlt
      rw [decodeVarBytes_canonical hscript, TxOut.encode, htoNat, encodeVarBytes]
      simp only [List.append_assoc]

/-- A decoded input has no witness yet. -/
theorem TxIn.decode_eq_some {bs rest : Bytes} {i : TxIn} (h : TxIn.decode bs = some (i, rest)) :
    bs = i.encode ++ rest ∧ i.witness = [] := by
  unfold TxIn.decode at h
  split at h
  · cases h
  · rename_i houtpoint
    split at h
    · cases h
    · rename_i hscript
      split at h
      · cases h
      · rename_i hseq
        obtain ⟨rfl, rfl⟩ := Prod.mk.inj (Option.some.inj h)
        refine ⟨?_, rfl⟩
        rw [(takeBytes_eq_some houtpoint).2, decodeVarBytes_canonical hscript,
          (decodeLe_eq_some hseq).2, TxIn.encode, encodeVarBytes]
        simp only [List.append_assoc]

theorem decodeWitnesses_eq_some {is is' : List TxIn} {bs rest : Bytes}
    (h : decodeWitnesses is bs = some (is', rest)) :
    bs = is'.flatMap TxIn.encodeWitness ++ rest ∧ is'.length = is.length ∧
      is'.flatMap TxIn.encode = is.flatMap TxIn.encode := by
  induction is generalizing is' bs with
  | nil =>
      obtain ⟨rfl, rfl⟩ := Prod.mk.inj (Option.some.inj h)
      exact ⟨rfl, rfl, rfl⟩
  | cons i is ih =>
      simp only [decodeWitnesses] at h
      split at h
      · cases h
      · rename_i witness tail hwit
        split at h
        · cases h
        · rename_i hrest
          obtain ⟨rfl, rfl⟩ := Prod.mk.inj (Option.some.inj h)
          obtain ⟨htail, hlen, henc⟩ := ih hrest
          refine ⟨?_, by rw [List.length_cons, List.length_cons, hlen], ?_⟩
          · rw [decodeVarBytes_canonical.vec hwit, htail, List.flatMap_cons, List.append_assoc]
            rfl
          · rw [List.flatMap_cons, List.flatMap_cons, henc]
            rfl

/-- The two ways an input vector is written. -/
theorem decodeInputs_eq_some {bs rest : Bytes} {version : Nat} {input : List TxIn} {flagged : Bool}
    (h : decodeInputs bs = some ((version, input, flagged), rest)) :
    bs = leBytes 4 version ++ ((if flagged then [0, 1] else []) ++
        (encodeVec TxIn.encode input ++ rest)) ∧
      (flagged = false → input ≠ [] ∧ ∀ i ∈ input, i.witness = []) := by
  unfold decodeInputs at h
  split at h
  · cases h
  · rename_i v tail hversion
    split at h
    · cases h
    · rename_i first tail' hfirst
      obtain ⟨htail, hwitness⟩ := decodeVec_eq_some TxIn.decode_eq_some hfirst
      split at h
      · -- an empty vector stands for the flag
        rename_i hempty
        subst hempty
        split at h
        · rename_i tail''
          split at h
          · cases h
          · rename_i hsecond
            cases h
            refine ⟨?_, nofun⟩
            rw [(decodeLe_eq_some hversion).2, htail,
              (decodeVec_eq_some TxIn.decode_eq_some hsecond).1]
            rfl
        · cases h
      · rename_i hne
        cases h
        refine ⟨?_, fun _ => ⟨hne, hwitness⟩⟩
        rw [(decodeLe_eq_some hversion).2, htail]
        rfl

/-- After the outputs: the witnesses, exactly when the flag is set. -/
theorem decodeWitnessesIf_eq_some {flagged : Bool} {is is' : List TxIn} {bs rest : Bytes}
    (hplain : flagged = false → is ≠ [] ∧ ∀ i ∈ is, i.witness = [])
    (h : decodeWitnessesIf flagged is bs = some (is', rest)) :
    (is'.isEmpty || !is'.all (·.witness.isEmpty)) = flagged ∧
      bs = (if flagged then is'.flatMap TxIn.encodeWitness else []) ++ rest ∧
      encodeVec TxIn.encode is' = encodeVec TxIn.encode is := by
  cases flagged with
  | false =>
      obtain ⟨rfl, rfl⟩ := Prod.mk.inj (Option.some.inj h)
      obtain ⟨hne, hwitness⟩ := hplain rfl
      refine ⟨?_, rfl, rfl⟩
      simp only [Bool.or_eq_false_iff, List.isEmpty_eq_false_iff, Bool.not_eq_false',
        List.all_eq_true, List.isEmpty_iff]
      exact ⟨hne, hwitness⟩
  | true =>
      simp only [decodeWitnessesIf, if_true] at h
      split at h
      · cases h
      · rename_i hdec
        split at h
        · cases h
        · rename_i hsome
          obtain ⟨rfl, rfl⟩ := Prod.mk.inj (Option.some.inj h)
          obtain ⟨hbs, hlen, henc⟩ := decodeWitnesses_eq_some hdec
          refine ⟨?_, by simpa using hbs, by rw [encodeVec, encodeVec, hlen, henc]⟩
          simp only [not_and, Bool.not_eq_true] at hsome
          simp only [Bool.or_eq_true, List.isEmpty_iff, Bool.not_eq_true']
          exact or_iff_not_imp_left.mpr hsome

theorem Transaction.decode_canonical : Canonical Transaction.decode Transaction.encode := by
  intro bs tx rest h
  unfold Transaction.decode at h
  split at h
  · cases h
  · rename_i hinputs
    obtain ⟨hbs, hplain⟩ := decodeInputs_eq_some hinputs
    split at h
    · cases h
    · rename_i houts
      split at h
      · cases h
      · rename_i hwit
        split at h
        · cases h
        · rename_i hlock
          obtain ⟨rfl, rfl⟩ := Prod.mk.inj (Option.some.inj h)
          obtain ⟨hflag, htail, henc⟩ := decodeWitnessesIf_eq_some hplain hwit
          rw [hbs, TxOut.decode_canonical.vec houts, htail, (decodeLe_eq_some hlock).2]
          unfold Transaction.encode Transaction.flagged
          rw [hflag, henc]
          simp only [List.append_assoc]

/-- A deserialized transaction is as long as the bytes it was read from. -/
theorem Transaction.encode_of_deserialize {bs : Bytes} {tx : Transaction}
    (h : Transaction.deserialize bs = some tx) : tx.encode = bs := by
  have hbs := Transaction.decode_canonical (Transaction.decode_of_deserialize h)
  rw [hbs, List.append_nil]

/-! ### Reading encodings back -/

/-- The decoder gives `y` from the encoding of `x`, whatever follows. -/
def Reads {α β : Type} (d : Decoder β) (enc : α → Bytes) (x : α) (y : β) : Prop :=
  ∀ rest, d (enc x ++ rest) = some (y, rest)

theorem reads_leBytes {n x : Nat} (h : x < 256 ^ n) : Reads (decodeLe n) (leBytes n) x x := by
  intro rest
  rw [decodeLe_append (leBytes_length n x), leNat_leBytes h]

theorem reads_varBytes {bs : Bytes} (h : bs.length < 2 ^ 64) :
    Reads decodeVarBytes encodeVarBytes bs bs := by
  intro rest
  rw [encodeVarBytes, List.append_assoc, decodeVarBytes, decodeVarInt_append h]
  exact takeBytes_append rfl rest

theorem reads_many {α β : Type} {d : Decoder β} {enc : α → Bytes} {f : α → β} {xs : List α}
    (h : ∀ x ∈ xs, Reads d enc x (f x)) (rest : Bytes) :
    decodeMany d xs.length (xs.flatMap enc ++ rest) = some (xs.map f, rest) := by
  induction xs with
  | nil => rfl
  | cons x xs ih =>
      obtain ⟨hx, hxs⟩ := List.forall_mem_cons.mp h
      rw [List.length_cons, List.flatMap_cons, List.append_assoc, decodeMany, hx]
      simp only [ih hxs, List.map_cons]

theorem reads_vec {α β : Type} {d : Decoder β} {enc : α → Bytes} {f : α → β} {xs : List α}
    (hlen : xs.length < 2 ^ 64) (h : ∀ x ∈ xs, Reads d enc x (f x)) :
    Reads (decodeVec d) (encodeVec enc) xs (xs.map f) := by
  intro rest
  rw [encodeVec, List.append_assoc, decodeVec, decodeVarInt_append hlen]
  exact reads_many h rest

/-- The fields of an output fit their wire form. -/
def TxOut.WellFormed (o : TxOut) : Prop :=
  o.scriptPubkey.length < 2 ^ 64

instance (o : TxOut) : Decidable o.WellFormed :=
  inferInstanceAs (Decidable (o.scriptPubkey.length < 2 ^ 64))

structure TxIn.WellFormed (i : TxIn) : Prop where
  previousOutput : i.previousOutput.length = 36
  scriptSig : i.scriptSig.length < 2 ^ 64
  sequence : i.sequence < 2 ^ 32
  witness : i.witness.length < 2 ^ 64 ∧ ∀ x ∈ i.witness, x.length < 2 ^ 64

structure Transaction.WellFormed (tx : Transaction) : Prop where
  version : tx.version < 2 ^ 32
  input : tx.input.length < 2 ^ 64 ∧ ∀ i ∈ tx.input, i.WellFormed
  output : tx.output.length < 2 ^ 64 ∧ ∀ o ∈ tx.output, o.WellFormed
  lockTime : tx.lockTime < 2 ^ 32

theorem TxOut.reads {o : TxOut} (h : o.WellFormed) : Reads TxOut.decode TxOut.encode o o := by
  intro rest
  have hscript := reads_varBytes h rest
  rw [encodeVarBytes] at hscript
  rw [TxOut.encode, List.append_assoc, List.append_assoc, TxOut.decode,
    reads_leBytes (n := 8) o.value.toNat_lt, ← List.append_assoc]
  simp only [hscript, UInt64.ofNat_toNat]

/-- A `VarInt` has at most eight bytes. -/
theorem decodeVarInt_lt {bs rest : Bytes} {x : Nat} (h : decodeVarInt bs = some (x, rest)) :
    x < 2 ^ 64 := by
  unfold decodeVarInt at h
  split at h
  · cases h
  · rename_i b tail
    split at h
    · obtain ⟨rfl, rfl⟩ := Prod.mk.inj (Option.some.inj h)
      exact Nat.lt_trans b.toNat_lt (by decide)
    · split at h
      · exact Nat.lt_trans (decodeLeFrom_eq_some h).2.1 (by decide)
      · split at h
        · exact Nat.lt_trans (decodeLeFrom_eq_some h).2.1 (by decide)
        · exact (decodeLeFrom_eq_some h).2.1

theorem decodeVarBytes_lt {bs x rest : Bytes} (h : decodeVarBytes bs = some (x, rest)) :
    x.length < 2 ^ 64 := by
  unfold decodeVarBytes at h
  split at h
  · rename_i hn
    rw [(takeBytes_eq_some h).1]
    exact decodeVarInt_lt hn
  · cases h

/-- A decoded vector has a count of at most eight bytes. -/
theorem decodeVec_wellFormed {α : Type} {d : Decoder α} {enc : α → Bytes} {P : α → Prop}
    (hd : ∀ {bs x rest}, d bs = some (x, rest) → bs = enc x ++ rest ∧ P x) {bs rest : Bytes}
    {xs : List α} (h : decodeVec d bs = some (xs, rest)) :
    xs.length < 2 ^ 64 ∧ ∀ x ∈ xs, P x := by
  refine ⟨?_, (decodeVec_eq_some hd h).2⟩
  unfold decodeVec at h
  split at h
  · rename_i hn
    rw [(decodeMany_eq_some hd h).1]
    exact decodeVarInt_lt hn
  · cases h

theorem TxOut.decode_wellFormed {bs rest : Bytes} {o : TxOut}
    (h : TxOut.decode bs = some (o, rest)) : o.WellFormed := by
  unfold TxOut.decode at h
  split at h
  · cases h
  · split at h
    · cases h
    · rename_i script tail hscript
      obtain ⟨rfl, rfl⟩ := Prod.mk.inj (Option.some.inj h)
      exact decodeVarBytes_lt hscript

/-- Decoded output vectors fit their wire form. -/
theorem TxOut.decodeVec_wellFormed {bs rest : Bytes} {outs : List TxOut}
    (h : decodeVec TxOut.decode bs = some (outs, rest)) :
    outs.length < 2 ^ 64 ∧ ∀ o ∈ outs, o.WellFormed :=
  Consensus.decodeVec_wellFormed
    (fun hx => ⟨TxOut.decode_canonical hx, TxOut.decode_wellFormed hx⟩) h

theorem TxIn.decode_wellFormed {bs rest : Bytes} {i : TxIn}
    (h : TxIn.decode bs = some (i, rest)) : i.WellFormed := by
  unfold TxIn.decode at h
  split at h
  · cases h
  · rename_i houtpoint
    split at h
    · cases h
    · rename_i hscript
      split at h
      · cases h
      · rename_i hseq
        obtain ⟨rfl, rfl⟩ := Prod.mk.inj (Option.some.inj h)
        exact ⟨(takeBytes_eq_some houtpoint).1, decodeVarBytes_lt hscript,
          (decodeLe_eq_some hseq).1, Nat.two_pow_pos 64, nofun⟩

theorem TxIn.decodeVec_wellFormed {bs rest : Bytes} {is : List TxIn}
    (h : decodeVec TxIn.decode bs = some (is, rest)) :
    is.length < 2 ^ 64 ∧ ∀ i ∈ is, i.WellFormed :=
  Consensus.decodeVec_wellFormed
    (fun hx => ⟨(TxIn.decode_eq_some hx).1, TxIn.decode_wellFormed hx⟩) h

theorem decodeWitnesses_wellFormed {is is' : List TxIn} {bs rest : Bytes}
    (his : ∀ i ∈ is, i.WellFormed) (h : decodeWitnesses is bs = some (is', rest)) :
    is'.length = is.length ∧ ∀ i ∈ is', i.WellFormed := by
  induction is generalizing is' bs with
  | nil =>
      obtain ⟨rfl, rfl⟩ := Prod.mk.inj (Option.some.inj h)
      exact ⟨rfl, nofun⟩
  | cons i is ih =>
      obtain ⟨hi, his⟩ := List.forall_mem_cons.mp his
      simp only [decodeWitnesses] at h
      split at h
      · cases h
      · rename_i hwit
        split at h
        · cases h
        · rename_i hrest
          obtain ⟨rfl, rfl⟩ := Prod.mk.inj (Option.some.inj h)
          obtain ⟨hlen, hall⟩ := ih his hrest
          have hwitness := Consensus.decodeVec_wellFormed
            (fun hx => ⟨decodeVarBytes_canonical hx, decodeVarBytes_lt hx⟩) hwit
          refine ⟨by rw [List.length_cons, List.length_cons, hlen],
            List.forall_mem_cons.mpr ⟨?_, hall⟩⟩
          exact ⟨hi.previousOutput, hi.scriptSig, hi.sequence, hwitness⟩

theorem decodeInputs_wellFormed {bs rest : Bytes} {version : Nat} {input : List TxIn}
    {flagged : Bool} (h : decodeInputs bs = some ((version, input, flagged), rest)) :
    version < 2 ^ 32 ∧ input.length < 2 ^ 64 ∧ ∀ i ∈ input, i.WellFormed := by
  unfold decodeInputs at h
  split at h
  · cases h
  · rename_i hversion
    have hlt := (decodeLe_eq_some hversion).1
    split at h
    · cases h
    · rename_i hfirst
      split at h
      · split at h
        · split at h
          · cases h
          · rename_i hsecond
            cases h
            exact ⟨hlt, TxIn.decodeVec_wellFormed hsecond⟩
        · cases h
      · cases h
        exact ⟨hlt, TxIn.decodeVec_wellFormed hfirst⟩

theorem decodeWitnessesIf_wellFormed {flagged : Bool} {is is' : List TxIn} {bs rest : Bytes}
    (his : ∀ i ∈ is, i.WellFormed) (h : decodeWitnessesIf flagged is bs = some (is', rest)) :
    is'.length = is.length ∧ ∀ i ∈ is', i.WellFormed := by
  unfold decodeWitnessesIf at h
  split at h
  · split at h
    · cases h
    · rename_i hdec
      split at h
      · cases h
      · obtain ⟨rfl, rfl⟩ := Prod.mk.inj (Option.some.inj h)
        exact decodeWitnesses_wellFormed his hdec
  · obtain ⟨rfl, rfl⟩ := Prod.mk.inj (Option.some.inj h)
    exact ⟨rfl, his⟩

/-- A decoded transaction fits its wire form. -/
theorem Transaction.decode_wellFormed {bs rest : Bytes} {tx : Transaction}
    (h : Transaction.decode bs = some (tx, rest)) : tx.WellFormed := by
  unfold Transaction.decode at h
  split at h
  · cases h
  · rename_i hinputs
    obtain ⟨hversion, hlen, hall⟩ := decodeInputs_wellFormed hinputs
    split at h
    · cases h
    · rename_i houts
      split at h
      · cases h
      · rename_i hwit
        obtain ⟨hlen', hall'⟩ := decodeWitnessesIf_wellFormed hall hwit
        split at h
        · cases h
        · rename_i hlock
          obtain ⟨rfl, rfl⟩ := Prod.mk.inj (Option.some.inj h)
          exact ⟨hversion, ⟨lt_of_eq_of_lt hlen' hlen, hall'⟩, TxOut.decodeVec_wellFormed houts,
            (decodeLe_eq_some hlock).1⟩

theorem TxOut.reads_encodeVec {outs : List TxOut} (hlen : outs.length < 2 ^ 64)
    (h : ∀ o ∈ outs, o.WellFormed) : Reads (decodeVec TxOut.decode) TxOut.encodeVec outs outs := by
  intro rest
  have hreads := reads_vec (f := id) hlen (fun o ho => TxOut.reads (h o ho)) rest
  simpa [Consensus.encodeVec, TxOut.encodeVec] using hreads

/-- An output vector is read back from its encoding. -/
theorem TxOut.decodeVec_encodeVec {outs : List TxOut} (hlen : outs.length < 2 ^ 64)
    (h : ∀ o ∈ outs, o.WellFormed) :
    decodeVec TxOut.decode (TxOut.encodeVec outs) = some (outs, []) := by
  simpa using TxOut.reads_encodeVec hlen h []

/-- Where a decoded output vector ends does not depend on what follows it. -/
theorem TxOut.decodeVec_append {bs rest : Bytes} {outs : List TxOut}
    (h : decodeVec TxOut.decode bs = some (outs, rest)) (more : Bytes) :
    decodeVec TxOut.decode (bs ++ more) = some (outs, rest ++ more) := by
  have hbs : bs = TxOut.encodeVec outs ++ rest := TxOut.decode_canonical.vec h
  obtain ⟨hlen, hall⟩ := TxOut.decodeVec_wellFormed h
  rw [hbs, List.append_assoc]
  exact TxOut.reads_encodeVec hlen hall (rest ++ more)

/-- A reader that ends inside an output vector does not give the vector. -/
theorem TxOut.decodeVec_take {outs : List TxOut} (hlen : outs.length < 2 ^ 64)
    (h : ∀ o ∈ outs, o.WellFormed) (more : Bytes) (n : Nat) :
    decodeVec TxOut.decode ((TxOut.encodeVec outs ++ more).take n) =
      if (TxOut.encodeVec outs).length ≤ n then
        some (outs, more.take (n - (TxOut.encodeVec outs).length))
      else none := by
  split
  · rename_i hle
    rw [List.take_append, List.take_of_length_le hle]
    exact TxOut.reads_encodeVec hlen h _
  · rename_i hlt
    cases hdec : decodeVec TxOut.decode ((TxOut.encodeVec outs ++ more).take n) with
    | none => rfl
    | some r =>
        -- the bytes after the reader's end would all be left over
        have hwhole := TxOut.decodeVec_append hdec ((TxOut.encodeVec outs ++ more).drop n)
        rw [List.take_append_drop, TxOut.reads_encodeVec hlen h more] at hwhole
        have hrest := congrArg List.length (Prod.mk.inj (Option.some.inj hwhole)).2
        simp only [List.length_append, List.length_drop] at hrest
        omega

/-- An input is read back without its witness. -/
def TxIn.stripped (i : TxIn) : TxIn :=
  { i with witness := [] }

theorem TxIn.reads {i : TxIn} (h : i.WellFormed) : Reads TxIn.decode TxIn.encode i i.stripped := by
  intro rest
  have hscript := reads_varBytes h.scriptSig (leBytes 4 i.sequence ++ rest)
  have hseq := reads_leBytes (n := 4) h.sequence rest
  rw [encodeVarBytes, List.append_assoc] at hscript
  simp only [TxIn.encode, List.append_assoc, TxIn.decode, takeBytes_append h.previousOutput,
    hscript, hseq]
  rfl

theorem TxIn.reads_witness {i : TxIn} (h : i.WellFormed) :
    Reads (decodeVec decodeVarBytes) TxIn.encodeWitness i i.witness := by
  intro rest
  have hwit := reads_vec h.witness.1 (fun x hx => reads_varBytes (h.witness.2 x hx)) rest
  rwa [List.map_id''] at hwit
  exact fun _ => rfl

theorem reads_witnesses {is : List TxIn} (h : ∀ i ∈ is, i.WellFormed) (rest : Bytes) :
    decodeWitnesses (is.map TxIn.stripped) (is.flatMap TxIn.encodeWitness ++ rest) =
      some (is, rest) := by
  induction is with
  | nil => rfl
  | cons i is ih =>
      obtain ⟨hi, his⟩ := List.forall_mem_cons.mp h
      rw [List.map_cons, List.flatMap_cons, List.append_assoc, decodeWitnesses,
        TxIn.reads_witness hi]
      simp only [ih his]
      rfl

theorem map_stripped {is : List TxIn} (h : ∀ i ∈ is, i.witness = []) :
    is.map TxIn.stripped = is := by
  rw [List.map_congr_left (g := id), List.map_id]
  intro i hi
  rw [TxIn.stripped, ← h i hi]
  rfl

/-- The version and inputs of a well-formed transaction. -/
theorem Transaction.reads_inputs {tx : Transaction} (h : tx.WellFormed) (rest : Bytes) :
    decodeInputs (leBytes 4 tx.version ++ ((if tx.flagged then [0, 1] else []) ++
        (encodeVec TxIn.encode tx.input ++ rest))) =
      some ((tx.version, tx.input.map TxIn.stripped, tx.flagged), rest) := by
  have hinput := reads_vec h.input.1 (fun i hi => TxIn.reads (h.input.2 i hi)) rest
  rw [decodeInputs, reads_leBytes (n := 4) h.version]
  by_cases hflag : tx.flagged
  · have hempty : ∀ bs, decodeVec TxIn.decode (0 :: bs) = some ([], bs) := by
      intro bs
      rw [decodeVec, decodeVarInt_short (by decide)]
      rfl
    simp only [hflag, if_true, List.cons_append, List.nil_append, hempty, hinput]
  · have hne : tx.input.map TxIn.stripped ≠ [] := by
      intro hnil
      rw [List.map_eq_nil_iff] at hnil
      simp [Transaction.flagged, hnil] at hflag
    simp only [hflag, Bool.false_eq_true, if_false, List.nil_append, hinput, hne]

theorem Transaction.reads_witnessesIf {tx : Transaction} (h : tx.WellFormed) (rest : Bytes) :
    decodeWitnessesIf tx.flagged (tx.input.map TxIn.stripped)
        ((if tx.flagged then tx.input.flatMap TxIn.encodeWitness else []) ++ rest) =
      some (tx.input, rest) := by
  by_cases hflag : tx.flagged
  · have hsome : ¬(tx.input ≠ [] ∧ tx.input.all (·.witness.isEmpty)) := by
      rintro ⟨hne, hall⟩
      simp [Transaction.flagged, hne, hall] at hflag
    simp only [decodeWitnessesIf, hflag, if_true, reads_witnesses h.input.2, hsome, if_false]
  · have hwitness : ∀ i ∈ tx.input, i.witness = [] := by
      simp only [Transaction.flagged, Bool.or_eq_true, Bool.not_eq_true', not_or,
        Bool.not_eq_false, List.all_eq_true, List.isEmpty_iff] at hflag
      exact hflag.2
    simp only [decodeWitnessesIf, hflag, Bool.false_eq_true, if_false, List.nil_append,
      map_stripped hwitness]

theorem Transaction.reads {tx : Transaction} (h : tx.WellFormed) :
    Reads Transaction.decode Transaction.encode tx tx := by
  intro rest
  have houts := reads_vec h.output.1 (fun o ho => TxOut.reads (h.output.2 o ho))
    ((if tx.flagged then tx.input.flatMap TxIn.encodeWitness else []) ++
      (leBytes 4 tx.lockTime ++ rest))
  rw [List.map_id''] at houts
  · simp only [Transaction.encode, List.append_assoc, Transaction.decode,
      Transaction.reads_inputs h, houts, Transaction.reads_witnessesIf h,
      reads_leBytes (n := 4) h.lockTime rest]
  · exact fun _ => rfl

/-- Where a decoded transaction ends does not depend on what follows it. -/
theorem Transaction.decode_append {bs rest : Bytes} {tx : Transaction}
    (h : Transaction.decode bs = some (tx, rest)) (more : Bytes) :
    Transaction.decode (bs ++ more) = some (tx, rest ++ more) := by
  rw [Transaction.decode_canonical h, List.append_assoc]
  exact Transaction.reads (Transaction.decode_wellFormed h) (rest ++ more)

/-- A transaction that leaves more than the last bytes is complete without them. -/
theorem Transaction.decode_of_append {bs more rest : Bytes} {tx : Transaction}
    (h : Transaction.decode (bs ++ more) = some (tx, rest)) (hlen : more.length ≤ rest.length) :
    ∃ left, rest = left ++ more ∧ Transaction.decode bs = some (tx, left) := by
  have hbs := Transaction.decode_canonical h
  have htotal := congrArg List.length hbs
  simp only [List.length_append] at htotal
  obtain ⟨left, hleft⟩ : ∃ left, bs = tx.encode ++ left := by
    refine ⟨bs.drop tx.encode.length, ?_⟩
    have htake := congrArg (List.take tx.encode.length) hbs
    rw [List.take_append_of_le_length (by omega), List.take_left' rfl] at htake
    rw [← htake, List.length_take, Nat.min_eq_left (by omega), List.take_append_drop]
  refine ⟨left, ?_, ?_⟩
  · rw [hleft, List.append_assoc] at hbs
    exact (List.append_cancel_left hbs).symm
  · rw [hleft]
    exact Transaction.reads (Transaction.decode_wellFormed h) left

theorem Transaction.deserialize_encode {tx : Transaction} (h : tx.WellFormed) :
    Transaction.deserialize tx.encode = some tx := by
  have hdec := Transaction.reads h []
  rw [List.append_nil] at hdec
  rw [Transaction.deserialize, hdec]

end Consensus
