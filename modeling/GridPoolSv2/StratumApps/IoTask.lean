import GridPoolSv2.StratumApps.NoiseStream

/-!
# StratumApps.IoTask: one direction of a connection

The model of `spawn_io_tasks` (`io_task.rs` of every application, and the two tasks of
`stratum-apps/src/network_helpers/noise_connection.rs`): the writer task of one side, the socket
between the sides, and the reader task of the other. The writer takes frames from its outbound
channel and gives them to `write_frame`; the reader gives what `read_frame` returns to its inbound
channel.

* A write that fails leaves any part of the frame's bytes on the way (`writeFails`), and is the
  writer's last.
* Both tasks end when a token is cancelled, when the stream fails or a channel is closed; the
  writer's end drops what its channel still holds.
* `sent`, `written` and `inbound` are histories: what the application put in the outbound
  channel, what the writer gave to `write_frame`, and what came out of the inbound channel.
-/

namespace GridPoolSv2.StratumApps

open Consensus (Bytes leBytes leNat)
open Framing (Decoder InStep Next encoded wire)
open Runs (exec)

/-- The frames of a codec; an application sends only `sv2` frames. -/
inductive EitherFrame (H F : Type*) where
  | handShake (h : H)
  | sv2 (f : F)
  deriving Repr, DecidableEq

structure Line (S D H F E : Type*) where
  outbound : List F := []
  outboundOpen : Bool := true
  writerRuns : Bool := true
  encoder : S
  /-- Bytes that were written and have not reached the other side. -/
  underway : Bytes := []
  conn : Conn D (EitherFrame H F) E
  readerRuns : Bool := true
  inboundOpen : Bool := true
  inbound : List F := []
  sent : List F := []
  written : List F := []

inductive LineEvent (F : Type*) where
  | send (f : F)
  /-- The outbound channel is closed, and in most applications drained. -/
  | closeOutbound (drains : Bool)
  | write
  | writeFails (k : Nat)
  | stopWriter
  | carry (n : Nat)
  | hangUp
  | fail
  | read (k : Nat)
  | stopReader
  | closeInbound
  deriving Repr, DecidableEq

variable {S D H F E : Type*} (dec : Decoder UInt8 D (EitherFrame H F) E)
  (encode : S → EitherFrame H F → Bytes × S)

namespace Line

def new (s₀ : S) (d₀ : D) : Line S D H F E := { encoder := s₀, conn := Conn.new d₀ }

/-- What the reader task does with the answer of `read_frame`. -/
def handle (l : Line S D H F E) : Poll (EitherFrame H F) E → Line S D H F E
  | .pending => l
  | .ready (.ok (.sv2 f)) =>
      if l.inboundOpen then { l with inbound := l.inbound ++ [f] }
      else { l with readerRuns := false }
  | .ready (.ok (.handShake _)) => { l with readerRuns := false, inboundOpen := false }
  | .ready (.error _) => { l with readerRuns := false, inboundOpen := false }

def step (l : Line S D H F E) : LineEvent F → Line S D H F E
  | .send f =>
      if l.outboundOpen then { l with outbound := l.outbound ++ [f], sent := l.sent ++ [f] } else l
  | .closeOutbound drains =>
      { l with outboundOpen := false, outbound := if drains then [] else l.outbound }
  | .write =>
      match l.writerRuns, l.outbound with
      | true, f :: rest =>
          let r := encode l.encoder (.sv2 f)
          { l with
            outbound := rest
            encoder := r.2
            underway := l.underway ++ r.1
            written := l.written ++ [f] }
      | _, _ => l
  | .writeFails k =>
      match l.writerRuns, l.outbound with
      | true, f :: _ =>
          let r := encode l.encoder (.sv2 f)
          { l with
            outbound := []
            outboundOpen := false
            writerRuns := false
            encoder := r.2
            underway := l.underway ++ r.1.take k
            written := l.written ++ [f] }
      | _, _ => l
  | .stopWriter => { l with outbound := [], outboundOpen := false, writerRuns := false }
  | .carry n =>
      { l with
        conn := l.conn.step dec (.arrive (l.underway.take n))
        underway := l.underway.drop n }
  | .hangUp => { l with conn := l.conn.step dec .hangUp }
  | .fail => { l with conn := l.conn.step dec .fail }
  | .read k =>
      if l.readerRuns then
        { l with conn := l.conn.step dec (.readFrame k) }.handle
          (l.conn.half.readFrame dec k l.conn.call).1
      else l
  | .stopReader =>
      { l with conn := l.conn.step dec .cancel, readerRuns := false, inboundOpen := false }
  | .closeInbound => { l with inboundOpen := false }

/-- Nothing was cut off and nothing is left to do: the queue and the line are empty and the reader
waits at an empty socket. -/
def Quiet (l : Line S D H F E) : Prop :=
  l.outboundOpen ∧ l.outbound = [] ∧ l.writerRuns ∧ l.underway = [] ∧ l.readerRuns ∧
    l.conn.call = .reading ∧ l.conn.half.reader.inbox = []

variable {dec encode} {s₀ : S} {d₀ : D} {l : Line S D H F E}

/-- What the writer's side keeps. -/
structure Writes (encode : S → EitherFrame H F → Bytes × S) (s₀ : S) (l : Line S D H F E) :
    Prop where
  queued : ∃ lost, l.sent = l.written ++ l.outbound ++ lost ∧ (l.outboundOpen → lost = [])
  streamed : l.conn.arrived ++ l.underway <+: wire encode s₀ (l.written.map .sv2)
  whole : l.writerRuns → l.encoder = encoded encode s₀ (l.written.map .sv2) ∧
    l.conn.arrived ++ l.underway = wire encode s₀ (l.written.map .sv2)

/-- What the reader's side keeps. -/
structure Reads (dec : Decoder UInt8 D (EitherFrame H F) E) (d₀ : D) (l : Line S D H F E) :
    Prop where
  tracks : l.conn.Tracks dec d₀
  forwarded : l.inbound.map (fun f => .ok (.sv2 f)) <+: l.conn.results
  all : l.readerRuns → l.conn.results = l.inbound.map fun f => .ok (.sv2 f)

theorem writes_new (s₀ : S) (d₀ : D) : Writes encode s₀ (new s₀ d₀ : Line S D H F E) :=
  ⟨⟨[], rfl, fun _ => rfl⟩, List.nil_prefix, fun _ => ⟨rfl, rfl⟩⟩

theorem reads_new (s₀ : S) (d₀ : D) : Reads dec d₀ (new s₀ d₀ : Line S D H F E) :=
  ⟨Conn.tracks_new d₀, List.nil_prefix, fun _ => rfl⟩

/-- The reader's side leaves the writer's alone. -/
theorem handle_writes (p : Poll (EitherFrame H F) E) :
    (l.handle p).sent = l.sent ∧ (l.handle p).written = l.written ∧
      (l.handle p).outbound = l.outbound ∧ (l.handle p).outboundOpen = l.outboundOpen ∧
      (l.handle p).underway = l.underway ∧ (l.handle p).writerRuns = l.writerRuns ∧
      (l.handle p).encoder = l.encoder ∧ (l.handle p).conn = l.conn := by
  unfold handle
  split <;> try split
  all_goals simp

theorem wire_written (h : Writes encode s₀ l) {f : F} (hruns : l.writerRuns = true) :
    wire encode s₀ ((l.written ++ [f]).map .sv2) =
      l.conn.arrived ++ (l.underway ++ (encode l.encoder (.sv2 f)).1) := by
  obtain ⟨henc, hwire⟩ := h.whole hruns
  rw [List.map_append, List.map_cons, List.map_nil, Framing.wire_concat, ← hwire, ← henc,
    List.append_assoc]

/-- Every event keeps what was written in step with what has arrived. -/
theorem Writes.step (h : Writes encode s₀ l) (e : LineEvent F) :
    Writes encode s₀ (l.step dec encode e) := by
  obtain ⟨lost, hsent, hlost⟩ := h.queued
  cases e with
  | send f =>
      show Writes encode s₀ (if _ then _ else _)
      split
      case isTrue hopen =>
        refine ⟨⟨[], ?_, fun _ => rfl⟩, h.streamed, h.whole⟩
        simp [hsent, hlost hopen]
      case isFalse => exact h
  | closeOutbound drains =>
      refine ⟨?_, h.streamed, h.whole⟩
      cases drains with
      | true => exact ⟨l.outbound ++ lost, by simp [Line.step, hsent], fun h => nomatch h⟩
      | false => exact ⟨lost, hsent, fun h => nomatch h⟩
  | write =>
      show Writes encode s₀ (match l.writerRuns, l.outbound with | true, f :: rest => _ | _, _ => l)
      split
      case h_1 f rest hruns hout =>
        have hwire := wire_written h (f := f) hruns
        refine ⟨⟨lost, ?_, hlost⟩, ?_, fun _ => ⟨?_, hwire.symm⟩⟩
        · simp [hsent, hout]
        · rw [hwire]
        · show _ = encoded encode s₀ ((l.written ++ [f]).map .sv2)
          rw [List.map_append, List.map_cons, List.map_nil, Framing.encoded_concat,
            ← (h.whole hruns).1]
      case h_2 => exact h
  | writeFails k =>
      show Writes encode s₀ (match l.writerRuns, l.outbound with | true, f :: _ => _ | _, _ => l)
      split
      case h_1 f rest hruns hout =>
        refine ⟨⟨rest ++ lost, ?_, fun h => nomatch h⟩, ?_, fun h => nomatch h⟩
        · simp [hsent, hout]
        · rw [wire_written h hruns]
          exact (List.prefix_append_right_inj _).mpr
            ((List.prefix_append_right_inj _).mpr (List.take_prefix k _))
      case h_2 => exact h
  | stopWriter =>
      exact ⟨⟨l.outbound ++ lost, by simp [Line.step, hsent], fun h => nomatch h⟩, h.streamed,
        fun h => nomatch h⟩
  | carry n =>
      have hsplit : l.conn.arrived ++ l.underway.take n ++ l.underway.drop n =
          l.conn.arrived ++ l.underway := by
        rw [List.append_assoc, List.take_append_drop]
      refine ⟨⟨lost, hsent, hlost⟩, ?_, fun hruns => ⟨(h.whole hruns).1, ?_⟩⟩
      · exact hsplit ▸ h.streamed
      · exact hsplit ▸ (h.whole hruns).2
  | hangUp => exact ⟨⟨lost, hsent, hlost⟩, h.streamed, h.whole⟩
  | fail => exact ⟨⟨lost, hsent, hlost⟩, h.streamed, h.whole⟩
  | read k =>
      show Writes encode s₀ (if _ then _ else _)
      split
      case isTrue =>
        generalize (l.conn.half.readFrame dec k l.conn.call).1 = p
        obtain ⟨h1, h2, h3, h4, h5, h6, h7, h8⟩ :=
          handle_writes (l := { l with conn := l.conn.step dec (.readFrame k) }) p
        refine ⟨⟨lost, ?_, fun ho => hlost (h4 ▸ ho)⟩, ?_, fun hr => ?_⟩
        · rw [h1, h2, h3]
          exact hsent
        · rw [h2, h5, h8]
          exact h.streamed
        · rw [h2, h5, h7, h8]
          exact h.whole (h6 ▸ hr)
      case isFalse => exact h
  | stopReader => exact ⟨⟨lost, hsent, hlost⟩, h.streamed, h.whole⟩
  | closeInbound => exact ⟨⟨lost, hsent, hlost⟩, h.streamed, h.whole⟩

/-- The frame that `read_frame` returned is forwarded, or the task ends. -/
theorem Reads.handle {c : Conn D (EitherFrame H F) E} {p : Poll (EitherFrame H F) E}
    (ht : c.Tracks dec d₀) (hres : c.results = l.conn.results ++ p.result)
    (hall : l.conn.results = l.inbound.map fun f => .ok (.sv2 f)) :
    Reads dec d₀ ({ l with conn := c }.handle p) := by
  have hprefix : l.inbound.map (fun f => .ok (.sv2 f)) <+: c.results := by
    rw [hres, hall]
    exact List.prefix_append ..
  cases p with
  | pending =>
      have heq : c.results = l.inbound.map fun f => .ok (.sv2 f) := by
        rw [hres, hall, Poll.result, List.append_nil]
      exact ⟨ht, hprefix, fun _ => heq⟩
  | ready r =>
      cases r with
      | error _ => exact ⟨ht, hprefix, fun h => by cases h⟩
      | ok frame =>
          cases frame with
          | handShake _ => exact ⟨ht, hprefix, fun h => by cases h⟩
          | sv2 f =>
              show Reads dec d₀ (if _ then _ else _)
              split
              case isTrue =>
                have heq : c.results = (l.inbound ++ [f]).map fun f => .ok (.sv2 f) := by
                  rw [hres, hall, List.map_append]
                  rfl
                exact ⟨ht, heq ▸ List.prefix_rfl, fun _ => heq⟩
              case isFalse => exact ⟨ht, hprefix, fun h => by cases h⟩

theorem Reads.step (h : Reads dec d₀ l) (e : LineEvent F) :
    Reads dec d₀ (l.step dec encode e) := by
  cases e with
  | send f =>
      show Reads dec d₀ (if _ then _ else _)
      split <;> exact ⟨h.tracks, h.forwarded, h.all⟩
  | closeOutbound drains => exact ⟨h.tracks, h.forwarded, h.all⟩
  | write =>
      show Reads dec d₀ (match l.writerRuns, l.outbound with | true, f :: rest => _ | _, _ => l)
      split <;> exact ⟨h.tracks, h.forwarded, h.all⟩
  | writeFails k =>
      show Reads dec d₀ (match l.writerRuns, l.outbound with | true, f :: _ => _ | _, _ => l)
      split <;> exact ⟨h.tracks, h.forwarded, h.all⟩
  | stopWriter => exact ⟨h.tracks, h.forwarded, h.all⟩
  | carry n => exact ⟨h.tracks.step (.arrive (l.underway.take n)), h.forwarded, h.all⟩
  | hangUp => exact ⟨h.tracks.step .hangUp, h.forwarded, h.all⟩
  | fail => exact ⟨h.tracks.step .fail, h.forwarded, h.all⟩
  | read k =>
      show Reads dec d₀ (if _ then _ else _)
      split
      case isTrue hruns => exact Reads.handle (h.tracks.step (.readFrame k)) rfl (h.all hruns)
      case isFalse => exact h
  | stopReader => exact ⟨h.tracks.step .cancel, h.forwarded, fun h => nomatch h⟩
  | closeInbound => exact ⟨h.tracks, h.forwarded, h.all⟩

theorem Writes.written_prefix (h : Writes encode s₀ l) : l.written <+: l.sent := by
  obtain ⟨lost, hsent, -⟩ := h.queued
  exact ⟨l.outbound ++ lost, by rw [hsent, List.append_assoc]⟩

end Line

variable {dec encode}

theorem okSv2_injective :
    Function.Injective fun f : F => (.ok (.sv2 f) : Except E (EitherFrame H F)) := by
  intro f g hfg
  simpa using hfg

/-- With a codec that is in step, what comes out of the inbound channel of one side is what the
other side put in its outbound channel, in its order and with nothing left out before anything that
comes: in every run, however the socket cuts the bytes and whatever task ends when. -/
theorem inbound_sent {R : S → D → Prop} (h : InStep dec encode R) {s₀ : S} {d₀ : D}
    (hR : R s₀ d₀) (es : List (LineEvent F)) :
    let l := exec (Line.step dec encode) (Line.new s₀ d₀) es
    l.inbound <+: l.sent ∧ (l.Quiet → l.inbound = l.sent) := by
  intro l
  have hw : l.Writes encode s₀ :=
    Runs.exec_invariant (fun _ e h => h.step e) (Line.writes_new s₀ d₀) es
  have hr : l.Reads dec d₀ :=
    Runs.exec_invariant (fun _ e h => h.step e) (Line.reads_new s₀ d₀) es
  obtain ⟨n, hn⟩ := hr.tracks.plain
  have hprefix : l.inbound <+: l.written := by
    have harrived := (List.prefix_append _ _).trans hw.streamed
    have hres := h.plain_prefix hR harrived n
    rw [hn, List.map_map] at hres
    exact (List.prefix_map_iff_of_injective okSv2_injective).mp (hr.forwarded.trans hres)
  refine ⟨List.IsPrefix.trans hprefix hw.written_prefix, ?_⟩
  rintro ⟨hopen, hout, hwriter, hway, hreader, hcall, hinbox⟩
  obtain ⟨lost, hsent, hlost⟩ := hw.queued
  rw [hlost hopen, hout, List.append_nil, List.append_nil] at hsent
  have hwire := (hw.whole hwriter).2
  rw [hway, List.append_nil] at hwire
  obtain ⟨m, hm⟩ := h.plain_complete hR (l.written.map .sv2)
  -- everything was written and has arrived, and the reader has decoded it all
  have hwaits := (hr.tracks.reading hcall).2
  have hall := hr.tracks.complete ⟨hinbox, Nat.zero_lt_of_lt hwaits⟩ m
  have hm0 := hm 0
  rw [Nat.add_zero] at hm0
  rw [hwire, hm0, hr.all hreader, List.map_map] at hall
  have hback := (List.prefix_map_iff_of_injective okSv2_injective).mp hall
  rw [hsent]
  exact hprefix.eq_of_length_le hback.length_le

/-! ### A codec in step -/

/-- A frame of the framing that the Noise codec encrypts: extension and message type, payload. -/
structure Sv2Frame where
  kind : { bs : Bytes // bs.length = 3 }
  payload : { bs : Bytes // bs.length < 256 ^ 3 }
  deriving Repr, DecidableEq

def Sv2Frame.header (f : Sv2Frame) : Bytes := f.kind ++ leBytes 3 f.payload.1.length

theorem Sv2Frame.header_length (f : Sv2Frame) : f.header.length = 6 := by
  simp [header, f.kind.2]

def sv2Encode (_ : Unit) : EitherFrame Empty Sv2Frame → Bytes × Unit
  | .sv2 f => (f.header ++ f.payload, ())

/-- The frame of a header and a payload. -/
def sv2Frame (header payload : Bytes) : Next (EitherFrame Empty Sv2Frame) Unit :=
  if h : (header.take 3).length = 3 ∧ payload.length < 256 ^ 3 then
    .frame (.sv2 { kind := ⟨header.take 3, h.1⟩, payload := ⟨payload, h.2⟩ })
  else .error ()

/-- A decoder that reads the six bytes of a header and then the payload it announces. -/
def sv2Decoder : Decoder UInt8 (Option Bytes) (EitherFrame Empty Sv2Frame) Unit where
  writableLen
    | none => 6
    | some header => leNat (header.drop 3)
  nextFrame
    | none, header =>
        if leNat (header.drop 3) = 0 then (sv2Frame header [], none) else (.missing, some header)
    | some header, payload => (sv2Frame header payload, none)

/-- Three bytes of the header are the length of the payload. -/
theorem Sv2Frame.leNat_header (f : Sv2Frame) :
    leNat (f.header.drop 3) = f.payload.1.length := by
  rw [header, List.drop_left' f.kind.2, Consensus.leNat_leBytes f.payload.2]

/-- A frame is read from its header and payload. -/
theorem sv2Frame_header (f : Sv2Frame) : sv2Frame f.header f.payload = .frame (.sv2 f) := by
  have htake : f.header.take 3 = f.kind := List.take_left' f.kind.2
  have hkind : (f.header.take 3).length = 3 := by rw [htake, f.kind.2]
  rw [sv2Frame, dif_pos ⟨hkind, f.payload.2⟩]
  simp only [htake]

theorem sv2_inStep : InStep sv2Decoder sv2Encode fun _ d => d = none := by
  refine ⟨fun _ d hd => ?_, fun s d f hd => ?_⟩
  · subst hd
    decide
  · subst hd
    match f with
    | .sv2 f =>
      have hlen : f.header.length = sv2Decoder.writableLen none := f.header_length
      by_cases hnil : f.payload.1 = []
      · -- the header is the whole frame
        refine ⟨1, none, rfl, fun m rest => ?_⟩
        have hzero : leNat (f.header.drop 3) = 0 := by
          rw [f.leNat_header, hnil, List.length_nil]
        have hframe := sv2Frame_header f
        rw [hnil] at hframe
        rw [sv2Encode, hnil, List.append_nil, Nat.add_comm, Framing.plain_chunk hlen]
        simp only [sv2Decoder, hzero, if_true, hframe, Next.result, List.singleton_append]
      · refine ⟨2, none, rfl, fun m rest => ?_⟩
        have hpos : leNat (f.header.drop 3) ≠ 0 := by
          rw [f.leNat_header]
          exact fun h0 => hnil (List.length_eq_zero_iff.mp h0)
        have hmissing : sv2Decoder.nextFrame none f.header = (.missing, some f.header) := by
          simp [sv2Decoder, hpos]
        have hpayload : f.payload.1.length = sv2Decoder.writableLen (some f.header) :=
          f.leNat_header.symm
        rw [sv2Encode, List.append_assoc, show 2 + m = m + 1 + 1 by omega,
          Framing.plain_chunk hlen, hmissing, Framing.plain_chunk hpayload]
        simp only [sv2Decoder, sv2Frame_header, Next.result, List.nil_append,
          List.singleton_append]

/-- A frame that arrives in three pieces, one of them cut inside the header. -/
def pieces (f : Sv2Frame) : List (LineEvent Sv2Frame) :=
  [.send f, .read 0, .write, .carry 4, .read 9, .carry 3, .read 9, .read 9, .read 9, .carry 9,
    .read 1, .read 9, .read 0]

def sampleFrame : Sv2Frame := { kind := ⟨[0, 0, 0x1A], rfl⟩, payload := ⟨[7, 8, 9], by decide⟩ }

theorem inbound_sent_pieces :
    let l := exec (Line.step sv2Decoder sv2Encode) (Line.new () none) (pieces sampleFrame)
    l.inbound = [sampleFrame] ∧ l.inbound <+: l.sent ∧ (l.Quiet → l.inbound = l.sent) := by
  refine ⟨by decide, ?_⟩
  exact inbound_sent sv2_inStep rfl (pieces sampleFrame)

end GridPoolSv2.StratumApps
