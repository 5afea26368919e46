import GridPoolSv2.Lib.Consensus
import GridPoolSv2.Lib.Framing
import GridPoolSv2.Lib.Runs

/-!
# StratumApps.NoiseStream: frames over a socket

The model of the read half in `stratum-apps/src/network_helpers/noise_stream.rs`, and of the
reader and writer tasks that every application spawns over a stream (`io_task.rs`).

* The codec and its Noise state are a `Framing.Decoder` and an encoder; what the socket holds is
  a list of bytes, of which a read gets any number (`k`, nothing when the socket is not ready).
* A call of `read_frame` goes from one `.await` to the next in one step (`ReadCall`), so it may be
  dropped between any two of them, and a call of `try_read_frame` may follow.
* `arrived` is a **ghost** field: all the bytes the socket ever got.

The comments of the source say that a dropped `read_frame` may leave a partly read frame behind.
It does, and the next call takes it up: `results_plain` compares the results of any run with
those of a reader that has the whole stream in its hand.

Proof shape: `Tracks` is an instance of `Framing.Follows`, with the buffer of the reader as the
undecoded bytes. A call is followed from one await to the next. What a dropped call has read
stays in the buffer, so that dropping it is no case of its own.
-/

namespace GridPoolSv2.StratumApps

open Consensus (Bytes)
open Framing (Decoder Next Follows)
open Runs (exec)

/-- The receiving side of the `TcpStream`. -/
structure Socket where
  inbox : Bytes := []
  /-- The peer has shut down its side. -/
  hungUp : Bool := false
  /-- Every read fails. -/
  broken : Bool := false
  deriving Repr, DecidableEq

structure NoiseTcpReadHalf (D : Type*) where
  reader : Socket := {}
  decoder : D
  currentFrameBuf : Bytes := []
  bytesRead : Nat := 0

/-- Where a call of `read_frame` waits. -/
inductive ReadCall where
  /-- No call is under way. -/
  | idle
  /-- At the read of the socket. -/
  | reading
  /-- At `yield_now`, after `MissingBytes`. -/
  | yielded
  deriving Repr, DecidableEq

inductive Error (E : Type*) where
  | socketClosed
  | codecError (e : E)
  deriving Repr, DecidableEq

/-- What a read of the socket gives. -/
inductive ReadAnswer where
  | got (n : Nat)
  | wouldBlock
  | failed
  deriving Repr, DecidableEq

/-- What a step of a call of `read_frame` gives. -/
inductive Poll (F E : Type*) where
  | pending
  | ready (r : Except (Error E) F)

variable {D F E S : Type*} (dec : Decoder UInt8 D F E)

namespace NoiseTcpReadHalf

/-- `writable_len`, and the buffer made to fit. -/
def prepare (h : NoiseTcpReadHalf D) : NoiseTcpReadHalf D :=
  let expected := dec.writableLen h.decoder
  if h.currentFrameBuf.length = expected then h
  else
    { h with
      currentFrameBuf := h.currentFrameBuf.take expected ++
        List.replicate (expected - h.currentFrameBuf.length) 0
      bytesRead := 0 }

/-- A read into `current_frame_buf[bytes_read..]`; an empty slice and the end of the stream both
read nothing. -/
def read (k : Nat) (h : NoiseTcpReadHalf D) : ReadAnswer × NoiseTcpReadHalf D :=
  let room := h.currentFrameBuf.length - h.bytesRead
  if h.reader.broken then (.failed, h)
  else if room = 0 ∨ h.reader.inbox = [] ∧ h.reader.hungUp then (.got 0, h)
  else if k = 0 ∨ h.reader.inbox = [] then (.wouldBlock, h)
  else
    let n := min k (min h.reader.inbox.length room)
    (.got n,
      { h with
        currentFrameBuf := h.currentFrameBuf.take h.bytesRead ++ h.reader.inbox.take n ++
          h.currentFrameBuf.drop (h.bytesRead + n)
        reader := { h.reader with inbox := h.reader.inbox.drop n } })

/-- The whole buffer goes to the decoder. -/
def nextFrame (h : NoiseTcpReadHalf D) : Next F E × NoiseTcpReadHalf D :=
  let r := dec.nextFrame h.decoder h.currentFrameBuf
  (r.1, { h with decoder := r.2, bytesRead := 0 })

/-- What `read_frame` does with a full buffer. -/
def finish (h : NoiseTcpReadHalf D) : Poll F E × ReadCall × NoiseTcpReadHalf D :=
  let r := h.nextFrame dec
  match r.1 with
  | .frame f => (.ready (.ok f), .idle, r.2)
  | .missing => (.pending, .yielded, r.2)
  | .error e => (.ready (.error (.codecError e)), .idle, r.2)

/-- The loop of `read_frame` from its head. -/
def enter (h : NoiseTcpReadHalf D) : Poll F E × ReadCall × NoiseTcpReadHalf D :=
  let h := h.prepare dec
  if h.bytesRead < dec.writableLen h.decoder then (.pending, .reading, h) else h.finish dec

/-- A call of `read_frame` from where it waits to where it waits next. -/
def readFrame (k : Nat) (call : ReadCall) (h : NoiseTcpReadHalf D) :
    Poll F E × ReadCall × NoiseTcpReadHalf D :=
  match call with
  | .idle | .yielded => h.enter dec
  | .reading =>
      let r := h.read k
      match r.1 with
      | .failed => (.ready (.error .socketClosed), .idle, r.2)
      | .wouldBlock => (.pending, .reading, r.2)
      | .got n =>
          if n = 0 then (.ready (.error .socketClosed), .idle, r.2)
          else
            let h := { r.2 with bytesRead := r.2.bytesRead + n }
            if h.bytesRead < dec.writableLen h.decoder then (.pending, .reading, h)
            else h.finish dec

def tryReadFrame (k : Nat) (h : NoiseTcpReadHalf D) :
    Except (Error E) (Option F) × NoiseTcpReadHalf D :=
  let h := h.prepare dec
  let r := h.read k
  match r.1 with
  | .failed => (.error .socketClosed, r.2)
  | .wouldBlock => (.ok none, r.2)
  | .got n =>
      if n = 0 then (.error .socketClosed, r.2)
      else
        let h := { r.2 with bytesRead := r.2.bytesRead + n }
        if h.bytesRead < dec.writableLen h.decoder then (.ok none, h)
        else
          let r := h.nextFrame dec
          match r.1 with
          | .frame f => (.ok (some f), r.2)
          | .missing => (.ok none, r.2)
          | .error e => (.error (.codecError e), r.2)

end NoiseTcpReadHalf

/-- What the decoder said, if the call gave it to its caller. -/
def Poll.result : Poll F E → List (Except E F)
  | .ready (.ok f) => [.ok f]
  | .ready (.error (.codecError e)) => [.error e]
  | .ready (.error .socketClosed) | .pending => []

def tryResult : Except (Error E) (Option F) → List (Except E F)
  | .ok (some f) => [.ok f]
  | .error (.codecError e) => [.error e]
  | .ok none | .error .socketClosed => []

/-- A read half with its calls. -/
structure Conn (D F E : Type*) where
  half : NoiseTcpReadHalf D
  call : ReadCall := .idle
  results : List (Except E F) := []
  arrived : Bytes := []

inductive ReadEvent where
  | arrive (bs : Bytes)
  | hangUp
  | fail
  /-- `read_frame` is called, or polled; the socket has `k` bytes for it. -/
  | readFrame (k : Nat)
  /-- The future of `read_frame` is dropped. -/
  | cancel
  | tryReadFrame (k : Nat)
  deriving Repr, DecidableEq

def NoiseTcpReadHalf.updReader (f : Socket → Socket) (h : NoiseTcpReadHalf D) :
    NoiseTcpReadHalf D :=
  { h with reader := f h.reader }

namespace Conn

def new (d₀ : D) : Conn D F E := { half := { decoder := d₀ } }

def step (c : Conn D F E) : ReadEvent → Conn D F E
  | .arrive bs =>
      { c with
        half := c.half.updReader fun r => { r with inbox := r.inbox ++ bs }
        arrived := c.arrived ++ bs }
  | .hangUp => { c with half := c.half.updReader fun r => { r with hungUp := true } }
  | .fail => { c with half := c.half.updReader fun r => { r with broken := true } }
  | .readFrame k =>
      let r := c.half.readFrame dec k c.call
      { c with half := r.2.2, call := r.2.1, results := c.results ++ r.1.result }
  | .cancel => { c with call := .idle }
  | .tryReadFrame k =>
      -- a call holds the half until it ends or is dropped
      if c.call = .idle then
        let r := c.half.tryReadFrame dec k
        { c with half := r.2, results := c.results ++ tryResult r.1 }
      else c

/-- There is nothing to read, and the decoder waits for more. -/
def Starved (c : Conn D F E) : Prop :=
  c.half.reader.inbox = [] ∧ 0 < dec.writableLen c.half.decoder

instance (c : Conn D F E) : Decidable (c.Starved dec) := inferInstanceAs (Decidable (_ ∧ _))

end Conn

/-! ### What a read half keeps -/

namespace NoiseTcpReadHalf

variable {dec} {d₀ : D} {bs : Bytes} {rs : List (Except E F)} {h : NoiseTcpReadHalf D}

/-- The bytes the decoder has not seen. -/
def undecoded (h : NoiseTcpReadHalf D) : Bytes :=
  h.currentFrameBuf.take h.bytesRead ++ h.reader.inbox

/-- The half has come so far in `bs`, and what it has of a frame is in a buffer that fits. -/
structure Tracks (dec : Decoder UInt8 D F E) (d₀ : D) (bs : Bytes) (rs : List (Except E F))
    (h : NoiseTcpReadHalf D) : Prop where
  fits : 0 < h.bytesRead → h.currentFrameBuf.length = dec.writableLen h.decoder ∧
    h.bytesRead < h.currentFrameBuf.length
  follows : Follows dec d₀ bs rs h.decoder h.undecoded

/-- The buffer is as long as the decoder wants it. -/
def Ready (dec : Decoder UInt8 D F E) (h : NoiseTcpReadHalf D) : Prop :=
  h.currentFrameBuf.length = dec.writableLen h.decoder

/-- The half may wait at the socket: the buffer fits and has room. -/
def Waits (dec : Decoder UInt8 D F E) (h : NoiseTcpReadHalf D) : Prop :=
  Ready dec h ∧ h.bytesRead < dec.writableLen h.decoder

/-- With the socket empty, the bytes of the buffer do not fill it. -/
theorem Tracks.undecoded_length (ht : Tracks dec d₀ bs rs h) (hin : h.reader.inbox = [])
    (hpos : 0 < dec.writableLen h.decoder) : h.undecoded.length < dec.writableLen h.decoder := by
  rw [undecoded, hin, List.append_nil, List.length_take]
  by_cases h0 : 0 < h.bytesRead
  · obtain ⟨hlen, hlt⟩ := ht.fits h0
    omega
  · omega

/-- A buffer for the next part of a frame. -/
theorem Tracks.prepare (ht : Tracks dec d₀ bs rs h) :
    Tracks dec d₀ bs rs (h.prepare dec) ∧ Ready dec (h.prepare dec) := by
  unfold NoiseTcpReadHalf.prepare
  dsimp only
  split
  case isTrue hlen => exact ⟨ht, hlen⟩
  case isFalse hlen =>
    -- a buffer that does not fit holds nothing
    have h0 : h.bytesRead = 0 := by
      by_contra hne
      exact hlen (ht.fits (Nat.pos_of_ne_zero hne)).1
    have hf := ht.follows
    rw [undecoded, h0, List.take_zero, List.nil_append] at hf
    refine ⟨⟨fun hpos => absurd hpos (by simp), ?_⟩, ?_⟩
    · simpa [undecoded] using hf
    · show (_ ++ _ : Bytes).length = dec.writableLen h.decoder
      rw [List.length_append, List.length_take, List.length_replicate]
      omega

/-- A read that gets something moves it from the socket to the buffer. -/
theorem read_cases (k : Nat) (h : NoiseTcpReadHalf D) :
    ((h.read k).2 = h ∧ ∀ n, (h.read k).1 = .got n → n = 0) ∨
    ∃ chunk rest, h.reader.inbox = chunk ++ rest ∧ 0 < chunk.length ∧
      h.bytesRead + chunk.length ≤ h.currentFrameBuf.length ∧
      h.read k = (.got chunk.length,
        { h with
          currentFrameBuf := h.currentFrameBuf.take h.bytesRead ++ chunk ++
            h.currentFrameBuf.drop (h.bytesRead + chunk.length)
          reader := { h.reader with inbox := rest } }) := by
  unfold read
  dsimp only
  split_ifs with hbroken hnone hblock
  · exact .inl ⟨rfl, by simp⟩
  · exact .inl ⟨rfl, fun n hn => (ReadAnswer.got.inj hn).symm⟩
  · exact .inl ⟨rfl, by simp⟩
  · have hpos : 0 < h.reader.inbox.length :=
      List.length_pos_iff.mpr fun hnil => hblock (.inr hnil)
    have hroom : h.currentFrameBuf.length - h.bytesRead ≠ 0 := fun h0 => hnone (.inl h0)
    have hk : k ≠ 0 := fun h0 => hblock (.inl h0)
    generalize hn : min k (min h.reader.inbox.length
      (h.currentFrameBuf.length - h.bytesRead)) = n
    have hlen : (h.reader.inbox.take n).length = n := by
      rw [List.length_take]
      omega
    refine .inr ⟨h.reader.inbox.take n, h.reader.inbox.drop n,
      (List.take_append_drop _ _).symm, ?_, ?_, ?_⟩
    · omega
    · omega
    · rw [hlen]

theorem Tracks.nextFrame {h : NoiseTcpReadHalf D} (hready : Ready dec h)
    (hfull : ¬ h.bytesRead < dec.writableLen h.decoder)
    (hf : Follows dec d₀ bs rs h.decoder h.undecoded) :
    Tracks dec d₀ bs (rs ++ (h.nextFrame dec).1.result) (h.nextFrame dec).2 := by
  rw [undecoded, List.take_of_length_le (by rw [hready]; omega)] at hf
  refine ⟨fun hpos => absurd hpos (Nat.lt_irrefl 0), ?_⟩
  simpa [undecoded, NoiseTcpReadHalf.nextFrame] using hf.decode hready

/-- A call whose buffer is full comes to its end. -/
theorem Tracks.finish {h : NoiseTcpReadHalf D} (hready : Ready dec h)
    (hfull : ¬ h.bytesRead < dec.writableLen h.decoder)
    (hf : Follows dec d₀ bs rs h.decoder h.undecoded) :
    Tracks dec d₀ bs (rs ++ (h.finish dec).1.result) (h.finish dec).2.2 ∧
      (h.finish dec).2.1 ≠ .reading := by
  have hnext := Tracks.nextFrame hready hfull hf
  unfold NoiseTcpReadHalf.finish
  generalize h.nextFrame dec = r at hnext ⊢
  obtain ⟨next, h'⟩ := r
  cases next with
  | frame f => exact ⟨hnext, by simp⟩
  | missing => exact ⟨hnext, by simp⟩
  | error e => exact ⟨hnext, by simp⟩

theorem Tracks.enter (ht : Tracks dec d₀ bs rs h) :
    Tracks dec d₀ bs (rs ++ (h.enter dec).1.result) (h.enter dec).2.2 ∧
      ((h.enter dec).2.1 = .reading → Waits dec (h.enter dec).2.2) := by
  obtain ⟨hp, hready⟩ := ht.prepare
  unfold NoiseTcpReadHalf.enter
  dsimp only
  split
  case isTrue hlt => exact ⟨by simpa [Poll.result] using hp, fun _ => ⟨hready, hlt⟩⟩
  case isFalse hfull =>
    obtain ⟨hf, hne⟩ := Tracks.finish hready hfull hp.follows
    exact ⟨hf, fun hr => absurd hr hne⟩

/-- The bytes a read got are still undecoded, in their place. -/
theorem Tracks.got (ht : Tracks dec d₀ bs rs h) (hready : Ready dec h) {chunk rest : Bytes}
    (hin : h.reader.inbox = chunk ++ rest)
    (hle : h.bytesRead + chunk.length ≤ h.currentFrameBuf.length) :
    let h' : NoiseTcpReadHalf D :=
      { h with
        currentFrameBuf := h.currentFrameBuf.take h.bytesRead ++ chunk ++
          h.currentFrameBuf.drop (h.bytesRead + chunk.length)
        reader := { h.reader with inbox := rest }
        bytesRead := h.bytesRead + chunk.length }
    Ready dec h' ∧ Follows dec d₀ bs rs h'.decoder h'.undecoded ∧
      (h'.bytesRead < dec.writableLen h'.decoder → Tracks dec d₀ bs rs h') := by
  intro h'
  have hlen : (h.currentFrameBuf.take h.bytesRead ++ chunk).length =
      h.bytesRead + chunk.length := by
    rw [List.length_append, List.length_take, Nat.min_eq_left (by omega)]
  have hready' : Ready dec h' := by
    show (_ ++ _ : Bytes).length = _
    rw [List.length_append, hlen, List.length_drop]
    exact (by omega : _ = h.currentFrameBuf.length).trans hready
  have hfollows : Follows dec d₀ bs rs h'.decoder h'.undecoded := by
    have heq : h'.undecoded = h.undecoded := by
      show List.take (h.bytesRead + chunk.length) (_ ++ chunk ++ _) ++ rest = _
      rw [List.take_left' hlen, undecoded, hin, List.append_assoc]
    rw [heq]
    exact ht.follows
  exact ⟨hready', hfollows, fun hlt => ⟨fun _ => ⟨hready', hready' ▸ hlt⟩, hfollows⟩⟩

theorem Tracks.readFrame (ht : Tracks dec d₀ bs rs h) (k : Nat) {call : ReadCall}
    (hcall : call = .reading → Waits dec h) :
    let r := h.readFrame dec k call
    Tracks dec d₀ bs (rs ++ r.1.result) r.2.2 ∧ (r.2.1 = .reading → Waits dec r.2.2) := by
  cases call with
  | idle => exact ht.enter
  | yielded => exact ht.enter
  | reading =>
      have hwaits := hcall rfl
      unfold NoiseTcpReadHalf.readFrame
      dsimp only
      obtain ⟨hsame, hzero⟩ | ⟨chunk, rest, hin, hpos, hle, hread⟩ := read_cases k h
      · rw [hsame]
        split
        case h_1 => exact ⟨by simpa [Poll.result] using ht, by simp⟩
        case h_2 => exact ⟨by simpa [Poll.result] using ht, fun _ => hwaits⟩
        case h_3 n heq =>
          simp only [hzero n heq, if_true]
          exact ⟨by simpa [Poll.result] using ht, by simp⟩
      · obtain ⟨hready', hfollows, htracks⟩ := ht.got hwaits.1 hin hle
        simp only [hread, Nat.ne_of_gt hpos, if_false]
        split
        case isTrue hlt =>
          exact ⟨by simpa [Poll.result] using htracks hlt, fun _ => ⟨hready', hlt⟩⟩
        case isFalse hfull =>
          obtain ⟨hf, hne⟩ := Tracks.finish hready' hfull hfollows
          exact ⟨hf, fun hr => absurd hr hne⟩

theorem Tracks.tryReadFrame (ht : Tracks dec d₀ bs rs h) (k : Nat) :
    let r := h.tryReadFrame dec k
    Tracks dec d₀ bs (rs ++ tryResult r.1) r.2 := by
  obtain ⟨hp, hready⟩ := ht.prepare
  unfold NoiseTcpReadHalf.tryReadFrame
  dsimp only
  generalize h.prepare dec = h at hp hready
  obtain ⟨hsame, hzero⟩ | ⟨chunk, rest, hin, hpos, hle, hread⟩ := read_cases k h
  · rw [hsame]
    split
    case h_1 => simpa [tryResult] using hp
    case h_2 => simpa [tryResult] using hp
    case h_3 n heq => simpa [hzero n heq, tryResult] using hp
  · obtain ⟨hready', hfollows, htracks⟩ := hp.got hready hin hle
    simp only [hread, Nat.ne_of_gt hpos, if_false]
    split
    case isTrue hlt => simpa [tryResult] using htracks hlt
    case isFalse hfull =>
      have hnext := Tracks.nextFrame hready' hfull hfollows
      generalize NoiseTcpReadHalf.nextFrame dec _ = r at hnext ⊢
      obtain ⟨next, h'⟩ := r
      cases next with
      | frame f => exact hnext
      | missing => exact hnext
      | error e => exact hnext

theorem Tracks.arrive (ht : Tracks dec d₀ bs rs h) (more : Bytes) :
    Tracks dec d₀ (bs ++ more) rs (h.updReader fun r => { r with inbox := r.inbox ++ more }) := by
  refine ⟨ht.fits, ?_⟩
  have hf := ht.follows.arrive more
  rwa [undecoded, List.append_assoc] at hf

end NoiseTcpReadHalf

namespace Conn

open NoiseTcpReadHalf

variable {dec} {d₀ : D}

/-- What holds of a read half and its calls after every step. -/
structure Tracks (dec : Decoder UInt8 D F E) (d₀ : D) (c : Conn D F E) : Prop where
  half : c.half.Tracks dec d₀ c.arrived c.results
  reading : c.call = .reading → c.half.Waits dec

theorem tracks_new (d₀ : D) : Tracks dec d₀ (new d₀ : Conn D F E) :=
  ⟨⟨fun h => absurd h (Nat.lt_irrefl 0), Follows.start d₀⟩, fun h => nomatch h⟩

theorem Tracks.step {c : Conn D F E} (h : c.Tracks dec d₀) (e : ReadEvent) :
    (c.step dec e).Tracks dec d₀ := by
  cases e with
  | arrive bs => exact ⟨h.half.arrive bs, h.reading⟩
  | hangUp => exact ⟨⟨h.half.fits, h.half.follows⟩, h.reading⟩
  | fail => exact ⟨⟨h.half.fits, h.half.follows⟩, h.reading⟩
  | readFrame k =>
      obtain ⟨hhalf, hreading⟩ := h.half.readFrame k h.reading
      exact ⟨hhalf, hreading⟩
  | cancel => exact ⟨h.half, fun hr => nomatch hr⟩
  | tryReadFrame k =>
      show Tracks dec d₀ (if _ then _ else _)
      split
      case isTrue hidle =>
        exact ⟨h.half.tryReadFrame k, fun hr => absurd (hidle.symm.trans hr) (by simp)⟩
      case isFalse => exact h

/-- What a reader that does not have to wait makes of the same bytes. -/
theorem Tracks.plain {c : Conn D F E} (h : c.Tracks dec d₀) :
    ∃ n, Framing.plain dec n d₀ c.arrived = c.results :=
  h.half.follows.plain

/-- When nothing is left to read, all frames have been returned. -/
theorem Tracks.complete {c : Conn D F E} (h : c.Tracks dec d₀) (hs : c.Starved dec) (m : Nat) :
    Framing.plain dec m d₀ c.arrived <+: c.results :=
  h.half.follows.complete (h.half.undecoded_length hs.1 hs.2) m

end Conn

/-- However the bytes come in, whichever calls read them, and whether or not a call of `read_frame`
is dropped on the way: the results are those of a reader that has all the bytes in its hand, and
when the socket is empty there are no others. -/
theorem results_plain (dec : Decoder UInt8 D F E) (d₀ : D) (es : List ReadEvent) :
    let c := exec (Conn.step dec) (Conn.new d₀) es
    (∃ n, Framing.plain dec n d₀ c.arrived = c.results) ∧
      (c.Starved dec → ∀ m, Framing.plain dec m d₀ c.arrived <+: c.results) := by
  intro c
  have h : c.Tracks dec d₀ :=
    Runs.exec_invariant (fun _ e h => h.step e) (Conn.tracks_new d₀) es
  exact ⟨h.plain, h.complete⟩

end GridPoolSv2.StratumApps
