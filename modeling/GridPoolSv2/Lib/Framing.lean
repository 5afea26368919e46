import Mathlib.Data.List.Infix

/-!
# Lib.Framing: frames cut out of a byte stream

A **decoder** says how many bytes it wants next (`writableLen`) and turns exactly that many into
a frame, an error, or the wish for more (`nextFrame`). `plain` is the reader that has the whole
stream in its hand and calls the decoder `n` times.

A reader of a socket never has the whole stream. `Follows` says how far it has come: the plain
reader of all that arrived, whatever arrives later, gives the results so far and goes on as the
plain reader from the reader's own decoder and undecoded bytes. `Follows.decode` is the step of
one decoder call, `Follows.plain` and `Follows.complete` are what it says about the results.

`InStep` is the rule for an encoder and a decoder that understand each other; the frames a
decoder finds in any part of the encoder's stream are then the first of those encoded
(`InStep.plain_prefix`).
-/

namespace Framing

variable {B D F E S : Type*}

/-- The answer of a decoder call. -/
inductive Next (F E : Type*) where
  | frame (f : F)
  | missing
  | error (e : E)
  deriving Repr, DecidableEq

/-- What the answer says to the caller of the reader, if anything. -/
def Next.result : Next F E → List (Except E F)
  | .frame f => [.ok f]
  | .missing => []
  | .error e => [.error e]

structure Decoder (B D F E : Type*) where
  writableLen : D → Nat
  nextFrame : D → List B → Next F E × D

/-- The results of `n` decoder calls, each on the bytes the decoder asks for. -/
def plain (dec : Decoder B D F E) : Nat → D → List B → List (Except E F)
  | 0, _, _ => []
  | n + 1, d, bs =>
      if bs.length < dec.writableLen d then []
      else
        let r := dec.nextFrame d (bs.take (dec.writableLen d))
        r.1.result ++ plain dec n r.2 (bs.drop (dec.writableLen d))

variable {dec : Decoder B D F E}

@[simp] theorem plain_zero (d : D) (bs : List B) : plain dec 0 d bs = [] := rfl

theorem plain_chunk {d : D} {chunk : List B} (h : chunk.length = dec.writableLen d) (n : Nat)
    (rest : List B) :
    plain dec (n + 1) d (chunk ++ rest) =
      (dec.nextFrame d chunk).1.result ++ plain dec n (dec.nextFrame d chunk).2 rest := by
  have hlen : ¬ (chunk ++ rest).length < chunk.length := by simp
  simp only [plain, ← h, hlen, if_false, List.take_left, List.drop_left]

/-- Nothing is decoded while the decoder waits for bytes. -/
theorem plain_short {d : D} {bs : List B} (h : bs.length < dec.writableLen d) (n : Nat) :
    plain dec n d bs = [] := by
  cases n with
  | zero => rfl
  | succ n => simp [plain, h]

theorem plain_prefix_add (n m : Nat) (d : D) (bs : List B) :
    plain dec n d bs <+: plain dec (n + m) d bs := by
  induction n generalizing d bs with
  | zero => exact List.nil_prefix
  | succ n ih =>
      rw [Nat.succ_add]
      by_cases h : bs.length < dec.writableLen d
      · simp [plain_short h]
      · simp only [plain, h, if_false]
        exact (List.prefix_append_right_inj _).mpr (ih _ _)

/-- Later bytes take nothing back. -/
theorem plain_prefix_append (n : Nat) (d : D) (bs extra : List B) :
    plain dec n d bs <+: plain dec n d (bs ++ extra) := by
  induction n generalizing d bs with
  | zero => exact List.nil_prefix
  | succ n ih =>
      by_cases h : bs.length < dec.writableLen d
      · rw [plain_short h]
        exact List.nil_prefix
      · have hle : dec.writableLen d ≤ bs.length := Nat.le_of_not_lt h
        have happ : ¬ (bs ++ extra).length < dec.writableLen d := by
          rw [List.length_append]
          omega
        simp only [plain, h, happ, if_false, List.take_append_of_le_length hle,
          List.drop_append_of_le_length hle]
        exact (List.prefix_append_right_inj _).mpr (ih _ _)

/-! ### A reader on the way -/

/-- A reader that got the results `rs` out of the bytes `bs` and has the bytes `rest` of them
left for its decoder `d`. -/
def Follows (dec : Decoder B D F E) (d₀ : D) (bs : List B) (rs : List (Except E F)) (d : D)
    (rest : List B) : Prop :=
  ∃ n, ∀ m extra, plain dec (n + m) d₀ (bs ++ extra) = rs ++ plain dec m d (rest ++ extra)

theorem Follows.start (d₀ : D) : Follows dec d₀ [] [] d₀ [] :=
  ⟨0, fun m extra => by simp⟩

theorem Follows.arrive {d₀ d : D} {bs rest : List B} {rs : List (Except E F)}
    (h : Follows dec d₀ bs rs d rest) (extra : List B) :
    Follows dec d₀ (bs ++ extra) rs d (rest ++ extra) := by
  obtain ⟨n, hn⟩ := h
  refine ⟨n, fun m more => ?_⟩
  rw [List.append_assoc, List.append_assoc, hn]

theorem Follows.decode {d₀ d : D} {bs chunk rest : List B} {rs : List (Except E F)}
    (h : Follows dec d₀ bs rs d (chunk ++ rest)) (hlen : chunk.length = dec.writableLen d) :
    Follows dec d₀ bs (rs ++ (dec.nextFrame d chunk).1.result) (dec.nextFrame d chunk).2 rest := by
  obtain ⟨n, hn⟩ := h
  refine ⟨n + 1, fun m extra => ?_⟩
  calc plain dec (n + 1 + m) d₀ (bs ++ extra)
      = plain dec (n + (m + 1)) d₀ (bs ++ extra) := by rw [Nat.add_assoc, Nat.add_comm 1 m]
    _ = rs ++ plain dec (m + 1) d (chunk ++ (rest ++ extra)) := by
        rw [hn, List.append_assoc chunk]
    _ = _ := by rw [plain_chunk hlen, List.append_assoc]

/-- The results are those of the plain reader. -/
theorem Follows.plain {d₀ d : D} {bs rest : List B} {rs : List (Except E F)}
    (h : Follows dec d₀ bs rs d rest) : ∃ n, plain dec n d₀ bs = rs := by
  obtain ⟨n, hn⟩ := h
  exact ⟨n, by simpa using hn 0 []⟩

/-- A reader whose decoder waits for bytes has all the results there are. -/
theorem Follows.complete {d₀ d : D} {bs rest : List B} {rs : List (Except E F)}
    (h : Follows dec d₀ bs rs d rest) (hshort : rest.length < dec.writableLen d) (m : Nat) :
    Framing.plain dec m d₀ bs <+: rs := by
  obtain ⟨n, hn⟩ := h
  have hall : Framing.plain dec (n + m) d₀ bs = rs := by
    simpa [plain_short hshort] using hn m []
  rw [← hall, Nat.add_comm]
  exact plain_prefix_add m n d₀ bs

/-! ### An encoder and its decoder -/

/-- The stream of a list of frames. -/
def wire (encode : S → F → List B × S) : S → List F → List B
  | _, [] => []
  | s, f :: fs => (encode s f).1 ++ wire encode (encode s f).2 fs

/-- The encoder after a list of frames. -/
def encoded (encode : S → F → List B × S) (s : S) (fs : List F) : S :=
  fs.foldl (fun s f => (encode s f).2) s

variable {encode : S → F → List B × S}

theorem wire_concat (s : S) (fs : List F) (f : F) :
    wire encode s (fs ++ [f]) = wire encode s fs ++ (encode (encoded encode s fs) f).1 := by
  induction fs generalizing s with
  | nil => simp [wire, encoded]
  | cons g fs ih =>
      show (encode s g).1 ++ wire encode (encode s g).2 (fs ++ [f]) = _
      rw [ih, ← List.append_assoc]
      rfl

theorem encoded_concat (s : S) (fs : List F) (f : F) :
    encoded encode s (fs ++ [f]) = (encode (encoded encode s fs) f).2 := by
  simp [encoded, List.foldl_append]

/-- `R` relates an encoder to a decoder that is in step with it: the decoder waits for bytes, and
makes a frame's encoding into the frame, in one or more calls. -/
structure InStep (dec : Decoder B D F E) (encode : S → F → List B × S) (R : S → D → Prop) :
    Prop where
  waits : ∀ s d, R s d → 0 < dec.writableLen d
  decodes : ∀ s d f, R s d → ∃ n d', R (encode s f).2 d' ∧
    ∀ m rest, plain dec (n + m) d ((encode s f).1 ++ rest) = .ok f :: plain dec m d' rest

theorem InStep.plain_wire {R : S → D → Prop} (h : InStep dec encode R) {s : S} {d : D}
    (hR : R s d) (fs : List F) :
    ∃ n d', R (encoded encode s fs) d' ∧ ∀ m rest,
      plain dec (n + m) d (wire encode s fs ++ rest) = fs.map .ok ++ plain dec m d' rest := by
  induction fs generalizing s d with
  | nil => exact ⟨0, d, hR, fun m rest => by simp [wire]⟩
  | cons f fs ih =>
      obtain ⟨n₁, d₁, hR₁, h₁⟩ := h.decodes s d f hR
      obtain ⟨n₂, d₂, hR₂, h₂⟩ := ih hR₁
      refine ⟨n₁ + n₂, d₂, hR₂, fun m rest => ?_⟩
      simp only [wire, List.append_assoc, Nat.add_assoc, h₁, h₂, List.map_cons, List.cons_append]

/-- A complete stream gives the frames and no more. -/
theorem InStep.plain_complete {R : S → D → Prop} (h : InStep dec encode R) {s : S} {d : D}
    (hR : R s d) (fs : List F) : ∃ n, ∀ m, plain dec (n + m) d (wire encode s fs) = fs.map .ok := by
  obtain ⟨n, d', hR', hn⟩ := h.plain_wire hR fs
  refine ⟨n, fun m => ?_⟩
  have hwaits : ([] : List B).length < dec.writableLen d' := h.waits _ _ hR'
  simpa [plain_short hwaits] using hn m []

/-- Any part of the stream from its start gives the first of the frames. -/
theorem InStep.plain_prefix {R : S → D → Prop} (h : InStep dec encode R) {s : S} {d : D}
    (hR : R s d) {fs : List F} {bs : List B} (hbs : bs <+: wire encode s fs) (m : Nat) :
    plain dec m d bs <+: fs.map .ok := by
  obtain ⟨extra, hextra⟩ := hbs
  obtain ⟨n, hn⟩ := h.plain_complete hR fs
  rw [← hn m, ← hextra, Nat.add_comm]
  exact (plain_prefix_append m d bs extra).trans (plain_prefix_add m n d _)

end Framing
