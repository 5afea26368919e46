import GridPoolSv2.Lib.Runs
import GridPoolSv2.Pool.ShareProof
import Mathlib.Data.List.Infix

/-!
# Pool.ProofSpool: proofs on their way to the node

The model of `submit_proof`, `submit_spooled_proof`, `retry_spooled_proofs` and
`should_submit_proof` (`pool/src/lib/gridpool.rs`). A proof is written to a file under the name of
its header, posted to the node, and the file removed when the node has accepted it. A task of its
own goes over the files again and again and posts what it can read.

* Each submission is a task, and the tasks, the retries and crashes of the process interleave in any
  order. A file is written piece by piece, an answer may be lost after the node took the proof, and
  the entries of a directory come in any order.
* Two submissions of one header would write to one file. `Kept` follows the file of a proof that is
  the only one of its header.
* A pulse is a proof below the reserve, which a channel may send now and then.
-/

namespace GridPoolSv2.Pool

open Consensus (Bytes)
open Payout (Text)
open Runs

variable {F : Type}

/-! ### The spool

The state has the files, the phases of the tasks, the retry that is under way and what the node has
accepted. -/

/-- `serde_json` on a `ShareSubmission`. -/
structure ProofCodec (F : Type) where
  toVec : ShareSubmission F → Option Bytes
  fromSlice : Bytes → Option (ShareSubmission F)

/-- How far a submission has come. -/
inductive SubmitPhase where
  | spawned
  /-- The file was created, and this many of the bytes are written. -/
  | writing (encoded : Bytes) (written : Nat)
  | posting
  /-- The node has accepted the proof, and the file is not removed yet. -/
  | accepted
  | finished
  deriving Repr, DecidableEq

structure SubmitTask (F : Type) where
  proof : ShareSubmission F
  phase : SubmitPhase := .spawned

/-- How far `retry_spooled_proofs` has come. -/
inductive RetryPhase (F : Type) where
  | waiting
  | listing
  | posting (headerHex : Text) (proof : ShareSubmission F)
  | accepted (headerHex : Text)

/-- What comes of a post. -/
inductive Answer where
  | accepted
  | rejected
  /-- No answer came; `taken` says whether the node has the proof. -/
  | lost (taken : Bool)
  deriving Repr, DecidableEq

structure Spool (F : Type) where
  /-- The file `{header_hex}.json` of each header. -/
  files : Text → Option Bytes := fun _ => none
  tasks : List (SubmitTask F) := []
  retry : RetryPhase F := .waiting
  /-- Ghost: what the node has accepted. -/
  accepted : List (ShareSubmission F) := []
  /-- Ghost: the proofs whose file was written to its end. -/
  spooled : List (ShareSubmission F) := []

inductive SpoolEvent (F : Type) where
  | submit (proof : ShareSubmission F)
  | create (i : Nat)
  /-- The next `n` bytes of a file are written. -/
  | write (i n : Nat)
  | writeFails (i : Nat)
  | answer (i : Nat) (a : Answer)
  | remove (i : Nat) (ok : Bool)
  | retryTick
  /-- The next entry of the directory is the file of this header. -/
  | nextEntry (headerHex : Text)
  | endOfEntries
  | retryAnswer (a : Answer)
  | retryRemove (ok : Bool)
  | crash

namespace Spool

def setFile (s : Spool F) (headerHex : Text) (content : Option Bytes) : Spool F :=
  { s with files := Function.update s.files headerHex content }

def setPhase (s : Spool F) (i : Nat) (phase : SubmitPhase) : Spool F :=
  { s with tasks := s.tasks.modify i fun t => { t with phase } }

/-- The node's side of a post. -/
def node (s : Spool F) (proof : ShareSubmission F) : Answer → Spool F
  | .accepted | .lost true => { s with accepted := s.accepted ++ [proof] }
  | .rejected | .lost false => s

/-- `tokio::fs::write` begins: the file is created, or emptied. -/
def create (codec : ProofCodec F) (s : Spool F) (i : Nat) : Spool F :=
  match s.tasks[i]? with
  | some ⟨proof, .spawned⟩ =>
      match codec.toVec proof with
      | some encoded => (s.setFile proof.headerHex (some [])).setPhase i (.writing encoded 0)
      | none => s.setPhase i .finished
  | _ => s

def write (s : Spool F) (i n : Nat) : Spool F :=
  match s.tasks[i]? with
  | some ⟨proof, .writing encoded written⟩ =>
      let s := s.setFile proof.headerHex (some (encoded.take (written + n)))
      if encoded.length ≤ written + n then
        { s.setPhase i .posting with spooled := s.spooled ++ [proof] }
      else s.setPhase i (.writing encoded (written + n))
  | _ => s

def writeFails (s : Spool F) (i : Nat) : Spool F :=
  match s.tasks[i]? with
  | some ⟨_, .spawned⟩ | some ⟨_, .writing _ _⟩ => s.setPhase i .finished
  | _ => s

def answer (s : Spool F) (i : Nat) (a : Answer) : Spool F :=
  match s.tasks[i]? with
  | some ⟨proof, .posting⟩ =>
      (s.node proof a).setPhase i (if a = .accepted then .accepted else .finished)
  | _ => s

def remove (s : Spool F) (i : Nat) (ok : Bool) : Spool F :=
  match s.tasks[i]? with
  | some ⟨proof, .accepted⟩ =>
      (if ok then s.setFile proof.headerHex none else s).setPhase i .finished
  | _ => s

/-- A file that cannot be read as a proof is left alone. -/
def nextEntry (codec : ProofCodec F) (s : Spool F) (headerHex : Text) : Spool F :=
  match s.retry with
  | .listing =>
      match (s.files headerHex).bind codec.fromSlice with
      | some proof => { s with retry := .posting headerHex proof }
      | none => s
  | _ => s

def retryAnswer (s : Spool F) (a : Answer) : Spool F :=
  match s.retry with
  | .posting headerHex proof =>
      { s.node proof a with
        retry := if a = .accepted then .accepted headerHex else .listing }
  | _ => s

def retryRemove (s : Spool F) (ok : Bool) : Spool F :=
  match s.retry with
  | .accepted headerHex => { if ok then s.setFile headerHex none else s with retry := .listing }
  | _ => s

def retryTick (s : Spool F) : Spool F :=
  match s.retry with
  | .waiting => { s with retry := .listing }
  | _ => s

def endOfEntries (s : Spool F) : Spool F :=
  match s.retry with
  | .listing => { s with retry := .waiting }
  | _ => s

def step (codec : ProofCodec F) (s : Spool F) : SpoolEvent F → Spool F
  | .submit proof => { s with tasks := s.tasks ++ [⟨proof, .spawned⟩] }
  | .create i => s.create codec i
  | .write i n => s.write i n
  | .writeFails i => s.writeFails i
  | .answer i a => s.answer i a
  | .remove i ok => s.remove i ok
  | .retryTick => s.retryTick
  | .nextEntry headerHex => s.nextEntry codec headerHex
  | .endOfEntries => s.endOfEntries
  | .retryAnswer a => s.retryAnswer a
  | .retryRemove ok => s.retryRemove ok
  | .crash => { s with tasks := [], retry := .waiting }

end Spool

/-! ### Pulses -/

/-- `ShareAdvice` -/
structure ShareAdvice (F : Type) where
  pulseProofsEnabled : Bool
  minimumPulseDifficulty : F
  pulseTargetIntervalSeconds : UInt64

/-- What `should_submit_proof` reads of the client: the reserve of its work, its advice and its
pulses. -/
structure PulseState (F : Type) where
  minimumDifficultyToEnterReserve : F
  advice : ShareAdvice F
  lastPulse : UInt64 → Option UInt64 := fun _ => none

/-- How a proof was let through. `should_submit_proof` returns whether it was. -/
inductive Verdict where
  | full
  | pulse
  | dropped
  deriving Repr, DecidableEq

/-- `>=` and `<` of `f64`, which are both false on a `NaN`. -/
structure FloatOrder (F : Type) where
  ge : F → F → Bool
  lt : F → F → Bool

def PulseState.shouldSubmitProof (ord : FloatOrder F) (s : PulseState F) (channelKey : UInt64)
    (achievedDifficulty : F) (isBlock : Bool) (now : UInt64) : Verdict × PulseState F :=
  if isBlock || ord.ge achievedDifficulty s.minimumDifficultyToEnterReserve then (.full, s)
  else if !s.advice.pulseProofsEnabled
      || ord.lt achievedDifficulty s.advice.minimumPulseDifficulty then (.dropped, s)
  else
    let previous := (s.lastPulse channelKey).getD 0
    if now.toNat - previous.toNat < max s.advice.pulseTargetIntervalSeconds.toNat 1 then
      (.dropped, s)
    else
      (.pulse, { s with lastPulse := Function.update s.lastPulse channelKey (some now) })

inductive PulseEvent (F : Type) where
  | refreshWork (minimum : F)
  | refreshAdvice (advice : ShareAdvice F)
  | share (channelKey : UInt64) (achievedDifficulty : F) (isBlock : Bool) (now : UInt64)

/-- A pulse that was let through, and the interval that was in force. -/
structure Pulse where
  channelKey : UInt64
  now : UInt64
  interval : UInt64
  deriving Repr, DecidableEq

/-- The client with, as a ghost, the pulses so far. -/
structure Pulses (F : Type) where
  state : PulseState F
  sent : List Pulse := []

def Pulses.step (ord : FloatOrder F) (s : Pulses F) : PulseEvent F → Pulses F
  | .refreshWork minimum =>
      { s with state := { s.state with minimumDifficultyToEnterReserve := minimum } }
  | .refreshAdvice advice => { s with state := { s.state with advice } }
  | .share channelKey achievedDifficulty isBlock now =>
      let r := s.state.shouldSubmitProof ord channelKey achievedDifficulty isBlock now
      { state := r.2
        sent := if r.1 = .pulse then
            s.sent ++ [⟨channelKey, now, s.state.advice.pulseTargetIntervalSeconds⟩]
          else s.sent }

/-! ### The file of a proof

`Kept` has one lemma for each thing that may happen to the file. A file that is read again gives the
proof back, since a file that is not complete cannot be read. -/

/-- The same proof, up to what a float becomes in a text and back. -/
def SameShare (q p : ShareSubmission F) : Prop :=
  q = { p with difficulty := q.difficulty }

/-- The node has accepted the proof. -/
def Taken (p : ShareSubmission F) (s : Spool F) : Prop :=
  ∃ q ∈ s.accepted, SameShare q p

/-- A proof is read from its bytes, and from no part of them that is cut short. -/
structure ProofCodec.Reads (codec : ProofCodec F) (p : ShareSubmission F) : Prop where
  whole : ∀ encoded q, codec.toVec p = some encoded → codec.fromSlice encoded = some q →
    SameShare q p
  cut : ∀ encoded k, codec.toVec p = some encoded → k < encoded.length →
    codec.fromSlice (encoded.take k) = none

/-- The events of the task that retries. A crash ends this task too. -/
def SpoolEvent.retries : SpoolEvent F → Bool
  | .retryTick | .nextEntry _ | .endOfEntries | .retryAnswer _ | .retryRemove _ | .crash => true
  | _ => false

/-- The submissions of a header in a run. -/
def submissions (headerHex : Text) (es : List (SpoolEvent F)) : List (ShareSubmission F) :=
  es.filterMap fun
    | .submit q => if q.headerHex = headerHex then some q else none
    | _ => none

theorem submissions_submit (headerHex : Text) (q : ShareSubmission F) :
    submissions headerHex [.submit q] = if q.headerHex = headerHex then [q] else [] := by
  unfold submissions
  split
  · rename_i h
    simp [h]
  · rename_i h
    simp [h]

/-- What holds of the only proof of a header. `subs` are the submissions so far. -/
structure Kept (codec : ProofCodec F) (p : ShareSubmission F) (subs : List (ShareSubmission F))
    (s : Spool F) : Prop where
  mine : ∀ (i : Nat) t, s.tasks[i]? = some t → t.proof.headerHex = p.headerHex → t.proof = p
  unique : ∀ (i j : Nat) t u, s.tasks[i]? = some t → s.tasks[j]? = some u →
    t.proof.headerHex = p.headerHex → u.proof.headerHex = p.headerHex → i = j
  spawned : ∀ i : Nat, s.tasks[i]? = some ⟨p, .spawned⟩ → p ∉ s.spooled
  writing : ∀ (i : Nat) encoded written, s.tasks[i]? = some ⟨p, .writing encoded written⟩ →
    codec.toVec p = some encoded ∧ p ∉ s.spooled
  removing : ∀ i : Nat, s.tasks[i]? = some ⟨p, .accepted⟩ → Taken p s
  content : ∀ bytes, s.files p.headerHex = some bytes →
    ∃ encoded k, codec.toVec p = some encoded ∧ bytes = encoded.take k
  retrying : ∀ q, s.retry = .posting p.headerHex q → SameShare q p
  retryRemoving : s.retry = .accepted p.headerHex → Taken p s
  kept : p ∈ s.spooled →
    (∃ encoded, codec.toVec p = some encoded ∧ s.files p.headerHex = some encoded) ∨ Taken p s
  fresh : subs = [] → (∀ t ∈ s.tasks, t.proof.headerHex ≠ p.headerHex) ∧ p ∉ s.spooled

section Kept

variable {codec : ProofCodec F} {p : ShareSubmission F} {subs : List (ShareSubmission F)}
  {s : Spool F}

/-- A phase belongs to the task of the same proof. -/
theorem tasks_setPhase {s : Spool F} {i j : Nat} {phase : SubmitPhase} {t : SubmitTask F}
    (h : (s.setPhase i phase).tasks[j]? = some t) :
    ∃ u, s.tasks[j]? = some u ∧ u.proof = t.proof ∧
      (j ≠ i ∧ t = u ∨ j = i ∧ t.phase = phase) := by
  rw [Spool.setPhase, List.getElem?_modify, Option.map_eq_map, Option.map_eq_some_iff] at h
  obtain ⟨u, hu, rfl⟩ := h
  refine ⟨u, hu, ?_⟩
  by_cases hij : i = j
  · simp [hij]
  · simp [hij, Ne.symm hij]

/-- What the task of the proof may come to. -/
def Allowed (codec : ProofCodec F) (p : ShareSubmission F) (s : Spool F) : SubmitPhase → Prop
  | .spawned => p ∉ s.spooled
  | .writing encoded _ => codec.toVec p = some encoded ∧ p ∉ s.spooled
  | .posting | .finished => True
  | .accepted => Taken p s

/-- A task may go to a phase that is allowed. -/
theorem Kept.setPhase (h : Kept codec p subs s) {i : Nat} {phase : SubmitPhase}
    (hphase : ∀ t, s.tasks[i]? = some t → t.proof = p → Allowed codec p s phase) :
    Kept codec p subs (s.setPhase i phase) := by
  refine { h with
    mine := fun j t ht hheader => ?_
    unique := fun j k t u ht hu htp hup => ?_
    spawned := fun j ht => ?_
    writing := fun j encoded written ht => ?_
    removing := fun j ht => ?_
    fresh := fun hnil => ⟨fun t ht => ?_, (h.fresh hnil).2⟩ }
  · obtain ⟨t', ht', hproof, -⟩ := tasks_setPhase ht
    rw [← hproof] at hheader ⊢
    exact h.mine j t' ht' hheader
  · obtain ⟨t', ht', htproof, -⟩ := tasks_setPhase ht
    obtain ⟨u', hu', huproof, -⟩ := tasks_setPhase hu
    exact h.unique j k t' u' ht' hu' (by rw [htproof, htp]) (by rw [huproof, hup])
  · obtain ⟨t', ht', hproof, ⟨-, rfl⟩ | ⟨rfl, hphase'⟩⟩ := tasks_setPhase ht
    · exact h.spawned j ht'
    · cases hphase'
      exact hphase t' ht' hproof
  · obtain ⟨t', ht', hproof, ⟨-, rfl⟩ | ⟨rfl, hphase'⟩⟩ := tasks_setPhase ht
    · exact h.writing j encoded written ht'
    · cases hphase'
      exact hphase t' ht' hproof
  · obtain ⟨t', ht', hproof, ⟨-, rfl⟩ | ⟨rfl, hphase'⟩⟩ := tasks_setPhase ht
    · exact h.removing j ht'
    · cases hphase'
      exact hphase t' ht' hproof
  · obtain ⟨j, hj⟩ := List.mem_iff_getElem?.mp ht
    obtain ⟨t', ht', hproof, -⟩ := tasks_setPhase hj
    rw [← hproof]
    exact (h.fresh hnil).1 t' (List.mem_of_getElem? ht')

/-- A file may be written as far as its proof goes. -/
theorem Kept.setFile (h : Kept codec p subs s) {headerHex : Text} {content : Option Bytes}
    (hcontent : headerHex = p.headerHex → ∀ bytes, content = some bytes →
      ∃ encoded k, codec.toVec p = some encoded ∧ bytes = encoded.take k)
    (hkept : headerHex = p.headerHex → p ∈ s.spooled → Taken p s) :
    Kept codec p subs (s.setFile headerHex content) := by
  by_cases hheader : p.headerHex = headerHex
  · refine { h with
      content := fun bytes hbytes => ?_
      kept := fun hp => .inr (hkept hheader.symm hp) }
    rw [Spool.setFile, ← hheader] at hbytes
    dsimp only at hbytes
    rw [Function.update_self] at hbytes
    exact hcontent hheader.symm bytes hbytes
  · have hsame : (s.setFile headerHex content).files p.headerHex = s.files p.headerHex :=
      Function.update_of_ne hheader _ _
    exact { h with
      content := fun bytes hbytes => h.content bytes (hsame.symm.trans hbytes)
      kept := fun hp => by rw [hsame]; exact h.kept hp }

theorem Taken.node {q : ShareSubmission F} (h : Taken p s) (a : Answer) : Taken p (s.node q a) := by
  obtain ⟨r, hr, hsame⟩ := h
  unfold Spool.node
  split
  · exact ⟨r, List.mem_append_left _ hr, hsame⟩
  · exact ⟨r, List.mem_append_left _ hr, hsame⟩
  · exact ⟨r, hr, hsame⟩
  · exact ⟨r, hr, hsame⟩

theorem node_tasks (s : Spool F) (q : ShareSubmission F) (a : Answer) :
    (s.node q a).tasks = s.tasks := by
  unfold Spool.node
  split <;> rfl

theorem node_files (s : Spool F) (q : ShareSubmission F) (a : Answer) :
    (s.node q a).files = s.files := by
  unfold Spool.node
  split <;> rfl

theorem node_spooled (s : Spool F) (q : ShareSubmission F) (a : Answer) :
    (s.node q a).spooled = s.spooled := by
  unfold Spool.node
  split <;> rfl

theorem node_retry (s : Spool F) (q : ShareSubmission F) (a : Answer) :
    (s.node q a).retry = s.retry := by
  unfold Spool.node
  split <;> rfl

theorem Kept.node (h : Kept codec p subs s) (q : ShareSubmission F) (a : Answer) :
    Kept codec p subs (s.node q a) where
  mine := by rw [node_tasks]; exact h.mine
  unique := by rw [node_tasks]; exact h.unique
  spawned := by rw [node_tasks, node_spooled]; exact h.spawned
  writing := by rw [node_tasks, node_spooled]; exact h.writing
  removing i hi := (h.removing i (by rw [← node_tasks s q a]; exact hi)).node a
  content := by rw [node_files]; exact h.content
  retrying := by rw [node_retry]; exact h.retrying
  retryRemoving hr := (h.retryRemoving (by rw [← node_retry s q a]; exact hr)).node a
  kept := by
    rw [node_spooled, node_files]
    exact fun hp => (h.kept hp).imp_right fun htaken => htaken.node a
  fresh := by rw [node_tasks, node_spooled]; exact h.fresh

/-- The retries go on, with what they have read of the file of the proof. -/
theorem Kept.setRetry (h : Kept codec p subs s) {retry : RetryPhase F}
    (hposting : ∀ q, retry = .posting p.headerHex q → SameShare q p)
    (haccepted : retry = .accepted p.headerHex → Taken p s) :
    Kept codec p subs { s with retry } :=
  { h with retrying := hposting, retryRemoving := haccepted }

theorem taken_node (s : Spool F) {q : ShareSubmission F} (h : SameShare q p) :
    Taken p (s.node q .accepted) :=
  ⟨q, List.mem_append_right _ (List.mem_singleton_self q), h⟩

theorem Kept.create (h : Kept codec p subs s) (i : Nat) :
    Kept codec p subs (s.create codec i) := by
  unfold Spool.create
  split
  · rename_i proof htask
    split
    · rename_i encoded hencoded
      have hmine (hheader : proof.headerHex = p.headerHex) :
          codec.toVec p = some encoded ∧ p ∉ s.spooled := by
        obtain rfl : proof = p := h.mine i _ htask hheader
        exact ⟨hencoded, h.spawned i htask⟩
      refine (h.setFile (fun hheader bytes hbytes => ?_) fun hheader hp => ?_).setPhase
        fun t ht htp => ?_
      · obtain rfl := Option.some.inj hbytes
        exact ⟨encoded, 0, (hmine hheader).1, rfl⟩
      · exact absurd hp (hmine hheader).2
      · obtain rfl := Option.some.inj (htask.symm.trans ht)
        exact hmine (congrArg (·.headerHex) htp)
    · exact h.setPhase fun _ _ _ => trivial
  · exact h

theorem Kept.write (h : Kept codec p subs s) (i n : Nat) : Kept codec p subs (s.write i n) := by
  unfold Spool.write
  split
  · rename_i proof encoded written htask
    have hmine (hheader : proof.headerHex = p.headerHex) :
        proof = p ∧ codec.toVec p = some encoded ∧ p ∉ s.spooled := by
      obtain rfl : proof = p := h.mine i _ htask hheader
      exact ⟨rfl, h.writing i encoded written htask⟩
    have hfile : Kept codec p subs
        (s.setFile proof.headerHex (some (encoded.take (written + n)))) := by
      refine h.setFile (fun hheader bytes hbytes => ?_) fun hheader hp => ?_
      · obtain rfl := Option.some.inj hbytes
        exact ⟨encoded, written + n, (hmine hheader).2.1, rfl⟩
      · exact absurd hp (hmine hheader).2.2
    dsimp only
    split
    · -- the file is whole, and the proof is spooled
      rename_i hwhole
      have hposting {s : Spool F} (h : Kept codec p subs s) :
          Kept codec p subs (s.setPhase i .posting) := h.setPhase fun _ _ _ => trivial
      have hposting := hposting hfile
      have hother (hne : proof.headerHex ≠ p.headerHex) {ps : List (ShareSubmission F)}
          (hp : p ∈ ps ++ [proof]) : p ∈ ps := by
        rcases List.mem_append.mp hp with hp | hp
        · exact hp
        · exact absurd (congrArg (·.headerHex) (List.mem_singleton.mp hp).symm) hne
      have hphase (j : Nat) (t : SubmitTask F) (hp : t.proof = p)
          (ht : ((s.setFile proof.headerHex (some (encoded.take (written + n)))).setPhase i
            .posting).tasks[j]? = some t) :
          proof.headerHex ≠ p.headerHex ∨ t.phase = .posting := by
        by_cases hheader : proof.headerHex = p.headerHex
        · obtain ⟨u, hu, huproof, ⟨hji, -⟩ | ⟨-, hphase⟩⟩ := tasks_setPhase ht
          · exact absurd (h.unique j i u _ hu htask (by rw [huproof, hp]) hheader) hji
          · exact .inr hphase
        · exact .inl hheader
      refine { hposting with
        spawned := fun j ht hp => ?_
        writing := fun j encoded' written' ht => ?_
        kept := fun hp => ?_
        fresh := fun hnil => ?_ }
      · rcases hphase j _ rfl ht with hne | hposted
        · exact hposting.spawned j ht (hother hne hp)
        · cases hposted
      · rcases hphase j _ rfl ht with hne | hposted
        · obtain ⟨hencoded, hnot⟩ := hposting.writing j encoded' written' ht
          exact ⟨hencoded, fun hp => hnot (hother hne hp)⟩
        · cases hposted
      · by_cases hheader : proof.headerHex = p.headerHex
        · refine .inl ⟨encoded, (hmine hheader).2.1, ?_⟩
          show Function.update s.files proof.headerHex _ p.headerHex = _
          rw [hheader, Function.update_self, List.take_of_length_le hwhole]
        · exact hposting.kept (hother hheader hp)
      · obtain ⟨htasks, hnot⟩ := hposting.fresh hnil
        refine ⟨htasks, fun hp => hnot (hother ?_ hp)⟩
        exact (h.fresh hnil).1 _ (List.mem_of_getElem? htask)
    · refine hfile.setPhase fun t ht htp => ?_
      obtain rfl := Option.some.inj (htask.symm.trans ht)
      exact (hmine (congrArg (·.headerHex) htp)).2
  · exact h

theorem Kept.answer (h : Kept codec p subs s) (i : Nat) (a : Answer) :
    Kept codec p subs (s.answer i a) := by
  unfold Spool.answer
  split
  · rename_i proof htask
    refine (h.node proof a).setPhase fun t ht htp => ?_
    rw [node_tasks] at ht
    obtain rfl := Option.some.inj (htask.symm.trans ht)
    obtain rfl : proof = p := htp
    split
    · rename_i ha
      subst ha
      exact taken_node s rfl
    · trivial
  · exact h

theorem Kept.remove (h : Kept codec p subs s) (i : Nat) (ok : Bool) :
    Kept codec p subs (s.remove i ok) := by
  unfold Spool.remove
  split
  · rename_i proof htask
    refine Kept.setPhase ?_ fun _ _ _ => trivial
    split
    · refine h.setFile (fun _ bytes hbytes => (nomatch hbytes)) fun hheader _ => ?_
      obtain rfl : proof = p := h.mine i _ htask hheader
      exact h.removing i htask
    · exact h
  · exact h

theorem Kept.nextEntry (h : Kept codec p subs s) (hreads : codec.Reads p) (headerHex : Text) :
    Kept codec p subs (s.nextEntry codec headerHex) := by
  unfold Spool.nextEntry
  split
  · split
    · rename_i q hread
      refine h.setRetry (fun q' heq => ?_) (nomatch ·)
      obtain ⟨rfl, rfl⟩ := RetryPhase.posting.inj heq
      obtain ⟨bytes, hbytes, hslice⟩ := Option.bind_eq_some_iff.mp hread
      obtain ⟨encoded, k, hencoded, rfl⟩ := h.content bytes hbytes
      -- a part of the bytes cannot be read
      rcases Nat.lt_or_ge k encoded.length with hlt | hge
      · rw [hreads.cut encoded k hencoded hlt] at hslice
        cases hslice
      · rw [List.take_of_length_le hge] at hslice
        exact hreads.whole encoded q hencoded hslice
    · exact h
  · exact h

theorem Kept.retryAnswer (h : Kept codec p subs s) (a : Answer) :
    Kept codec p subs (s.retryAnswer a) := by
  unfold Spool.retryAnswer
  split
  · rename_i headerHex q hretry
    refine (h.node q a).setRetry (fun q' heq => ?_) fun heq => ?_
    · split at heq <;> cases heq
    · split at heq
      · rename_i ha
        subst ha
        obtain rfl := RetryPhase.accepted.inj heq
        exact taken_node s (h.retrying q hretry)
      · cases heq
  · exact h

theorem Kept.retryRemove (h : Kept codec p subs s) (ok : Bool) :
    Kept codec p subs (s.retryRemove ok) := by
  unfold Spool.retryRemove
  split
  · rename_i headerHex hretry
    refine Kept.setRetry ?_ (fun _ heq => nomatch heq) (nomatch ·)
    split
    · refine h.setFile (fun _ bytes hbytes => (nomatch hbytes)) fun hheader _ => ?_
      subst hheader
      exact h.retryRemoving hretry
    · exact h
  · exact h

theorem Kept.submit (h : Kept codec p subs s) {q : ShareSubmission F}
    (hq : q.headerHex = p.headerHex → subs = [] ∧ q = p) :
    Kept codec p (if q.headerHex = p.headerHex then subs ++ [q] else subs)
      { s with tasks := s.tasks ++ [⟨q, .spawned⟩] } := by
  have hlast {i : Nat} {t : SubmitTask F} (ht : (s.tasks ++ [⟨q, .spawned⟩])[i]? = some t) :
      s.tasks[i]? = some t ∨ i = s.tasks.length ∧ t = ⟨q, .spawned⟩ := by
    rw [List.getElem?_append] at ht
    split at ht
    · exact .inl ht
    · rename_i hge
      rw [List.getElem?_singleton] at ht
      split at ht
      · exact .inr ⟨by omega, (Option.some.inj ht).symm⟩
      · cases ht
  have hnone (hheader : q.headerHex = p.headerHex) {i : Nat} {t : SubmitTask F}
      (ht : s.tasks[i]? = some t) : t.proof.headerHex ≠ p.headerHex :=
    (h.fresh (hq hheader).1).1 t (List.mem_of_getElem? ht)
  refine { h with
    mine := fun i t ht hheader => ?_
    unique := fun i j t u ht hu htp hup => ?_
    spawned := fun i ht => ?_
    writing := fun i encoded written ht => ?_
    removing := fun i ht => ?_
    fresh := fun hnil => ?_ }
  · rcases hlast ht with ht | ⟨-, rfl⟩
    · exact h.mine i t ht hheader
    · exact (hq hheader).2
  · rcases hlast ht with ht | ⟨hi, rfl⟩
    · rcases hlast hu with hu | ⟨hj, rfl⟩
      · exact h.unique i j t u ht hu htp hup
      · exact absurd htp (hnone hup ht)
    · rcases hlast hu with hu | ⟨hj, rfl⟩
      · exact absurd hup (hnone htp hu)
      · omega
  · rcases hlast ht with ht | ⟨-, heq⟩
    · exact h.spawned i ht
    · obtain rfl : p = q := congrArg (·.proof) heq
      exact (h.fresh (hq rfl).1).2
  · rcases hlast ht with ht | ⟨-, heq⟩
    · exact h.writing i encoded written ht
    · cases heq
  · rcases hlast ht with ht | ⟨-, heq⟩
    · exact h.removing i ht
    · cases heq
  · split at hnil
    · simp at hnil
    · rename_i hheader
      refine ⟨fun t ht => ?_, (h.fresh hnil).2⟩
      rcases List.mem_append.mp ht with ht | ht
      · exact (h.fresh hnil).1 t ht
      · rw [List.mem_singleton.mp ht]
        exact hheader

theorem Kept.step (h : Kept codec p subs s) (hreads : codec.Reads p) {e : SpoolEvent F}
    (hone : subs ++ submissions p.headerHex [e] <+: [p]) :
    Kept codec p (subs ++ submissions p.headerHex [e]) (Spool.step codec s e) := by
  have other {s' : Spool F} (hnone : submissions p.headerHex [e] = [])
      (hkept : Kept codec p subs s') : Kept codec p (subs ++ submissions p.headerHex [e]) s' := by
    rw [hnone, List.append_nil]
    exact hkept
  cases e with
  | submit q =>
      rw [submissions_submit] at hone ⊢
      have hkept := h.submit (q := q) fun hheader => by
        rw [if_pos hheader] at hone
        have hlen := hone.length_le
        simp only [List.length_append, List.length_singleton] at hlen
        obtain rfl : subs = [] := List.length_eq_zero_iff.mp (by omega)
        exact ⟨rfl, by simpa using hone⟩
      by_cases hheader : q.headerHex = p.headerHex
      · rw [if_pos hheader] at hkept ⊢
        exact hkept
      · rw [if_neg hheader] at hkept
        rw [if_neg hheader, List.append_nil]
        exact hkept
  | create i => exact other rfl (h.create i)
  | write i n => exact other rfl (h.write i n)
  | writeFails i =>
      refine other rfl ?_
      show Kept codec p subs (s.writeFails i)
      unfold Spool.writeFails
      split
      · exact h.setPhase fun _ _ _ => trivial
      · exact h.setPhase fun _ _ _ => trivial
      · exact h
  | answer i a => exact other rfl (h.answer i a)
  | remove i ok => exact other rfl (h.remove i ok)
  | retryTick =>
      refine other rfl ?_
      show Kept codec p subs s.retryTick
      unfold Spool.retryTick
      split
      · exact h.setRetry (fun _ heq => nomatch heq) (nomatch ·)
      · exact h
  | nextEntry headerHex => exact other rfl (h.nextEntry hreads headerHex)
  | endOfEntries =>
      refine other rfl ?_
      show Kept codec p subs s.endOfEntries
      unfold Spool.endOfEntries
      split
      · exact h.setRetry (fun _ heq => nomatch heq) (nomatch ·)
      · exact h
  | retryAnswer a => exact other rfl (h.retryAnswer a)
  | retryRemove ok => exact other rfl (h.retryRemove ok)
  | crash =>
      refine other rfl ?_
      exact { h with
        mine := by simp [Spool.step]
        unique := by simp [Spool.step]
        spawned := by simp [Spool.step]
        writing := by simp [Spool.step]
        removing := by simp [Spool.step]
        retrying := by simp [Spool.step]
        retryRemoving := by simp [Spool.step]
        fresh := fun hnil => ⟨by simp [Spool.step], (h.fresh hnil).2⟩ }

theorem kept_initial (codec : ProofCodec F) (p : ShareSubmission F) : Kept codec p [] {} where
  mine := by simp
  unique := by simp
  spawned := by simp
  writing := by simp
  removing := by simp
  content := by simp
  retrying := by simp
  retryRemoving := by simp
  kept := by simp
  fresh := by simp

theorem submissions_append (headerHex : Text) (es fs : List (SpoolEvent F)) :
    submissions headerHex (es ++ fs) = submissions headerHex es ++ submissions headerHex fs :=
  List.filterMap_append

/-- The invariant of a run in which a header is submitted once. -/
theorem kept_exec (hreads : codec.Reads p) (es : List (SpoolEvent F))
    (hone : submissions p.headerHex es <+: [p]) :
    Kept codec p (submissions p.headerHex es) (exec (Spool.step codec) {} es) := by
  induction es using List.reverseRecOn with
  | nil => exact kept_initial codec p
  | append_singleton es e ih =>
      rw [submissions_append] at hone ⊢
      rw [exec_append, exec_cons, exec_nil]
      exact (ih ((List.prefix_append _ _).trans hone)).step hreads hone

/-- What was noted stays noted. -/
structure Grows (s s' : Spool F) : Prop where
  accepted : s.accepted <+: s'.accepted
  spooled : s.spooled <+: s'.spooled

theorem Grows.of_eq {s' : Spool F} (haccepted : s'.accepted = s.accepted)
    (hspooled : s'.spooled = s.spooled) : Grows s s' :=
  ⟨haccepted ▸ List.prefix_rfl, hspooled ▸ List.prefix_rfl⟩

theorem Grows.trans {s' s'' : Spool F} (h : Grows s s') (h' : Grows s' s'') : Grows s s'' :=
  ⟨h.accepted.trans h'.accepted, h.spooled.trans h'.spooled⟩

theorem grows_node (s : Spool F) (q : ShareSubmission F) (a : Answer) : Grows s (s.node q a) := by
  unfold Spool.node
  split
  · exact ⟨List.prefix_append _ _, List.prefix_rfl⟩
  · exact ⟨List.prefix_append _ _, List.prefix_rfl⟩
  · exact .of_eq rfl rfl
  · exact .of_eq rfl rfl

theorem grows_step (codec : ProofCodec F) (s : Spool F) (e : SpoolEvent F) :
    Grows s (Spool.step codec s e) := by
  cases e with
  | submit q => exact .of_eq rfl rfl
  | create i =>
      show Grows s (s.create codec i)
      unfold Spool.create
      split
      · split <;> exact .of_eq rfl rfl
      · exact .of_eq rfl rfl
  | write i n =>
      show Grows s (s.write i n)
      unfold Spool.write
      split
      · dsimp only
        split
        · exact ⟨List.prefix_rfl, List.prefix_append _ _⟩
        · exact .of_eq rfl rfl
      · exact .of_eq rfl rfl
  | writeFails i =>
      show Grows s (s.writeFails i)
      unfold Spool.writeFails
      split <;> exact .of_eq rfl rfl
  | answer i a =>
      show Grows s (s.answer i a)
      unfold Spool.answer
      split
      · exact (grows_node s _ a).trans (.of_eq rfl rfl)
      · exact .of_eq rfl rfl
  | remove i ok =>
      show Grows s (s.remove i ok)
      unfold Spool.remove
      split
      · split <;> exact .of_eq rfl rfl
      · exact .of_eq rfl rfl
  | retryTick =>
      show Grows s s.retryTick
      unfold Spool.retryTick
      split <;> exact .of_eq rfl rfl
  | nextEntry headerHex =>
      show Grows s (s.nextEntry codec headerHex)
      unfold Spool.nextEntry
      split
      · split <;> exact .of_eq rfl rfl
      · exact .of_eq rfl rfl
  | endOfEntries =>
      show Grows s s.endOfEntries
      unfold Spool.endOfEntries
      split <;> exact .of_eq rfl rfl
  | retryAnswer a =>
      show Grows s (s.retryAnswer a)
      unfold Spool.retryAnswer
      split
      · exact (grows_node s _ a).trans (.of_eq rfl rfl)
      · exact .of_eq rfl rfl
  | retryRemove ok =>
      show Grows s (s.retryRemove ok)
      unfold Spool.retryRemove
      split
      · split <;> exact .of_eq rfl rfl
      · exact .of_eq rfl rfl
  | crash => exact .of_eq rfl rfl

theorem grows_exec (codec : ProofCodec F) (s : Spool F) (es : List (SpoolEvent F)) :
    Grows s (exec (Spool.step codec) s es) := by
  induction es generalizing s with
  | nil => exact .of_eq rfl rfl
  | cons e es ih => exact (grows_step codec s e).trans (ih _)

theorem Taken.mono {s' : Spool F} (h : Taken p s) (hgrows : Grows s s') : Taken p s' := by
  obtain ⟨q, hq, hsame⟩ := h
  exact ⟨q, hgrows.accepted.subset hq, hsame⟩

/-- The post of a retry is accepted. -/
theorem taken_retryAnswer {headerHex : Text} {q : ShareSubmission F}
    (hretry : s.retry = .posting headerHex q) (hsame : SameShare q p) :
    Taken p (s.retryAnswer .accepted) := by
  unfold Spool.retryAnswer
  rw [hretry]
  exact (taken_node s hsame).mono (.of_eq rfl rfl)

/-- The other tasks leave the retries alone. -/
theorem retry_step {e : SpoolEvent F} (he : e.retries = false) :
    (Spool.step codec s e).retry = s.retry := by
  cases e with
  | submit q => rfl
  | create i =>
      show (s.create codec i).retry = s.retry
      unfold Spool.create
      split
      · split <;> rfl
      · rfl
  | write i n =>
      show (s.write i n).retry = s.retry
      unfold Spool.write
      split
      · dsimp only
        split <;> rfl
      · rfl
  | writeFails i =>
      show (s.writeFails i).retry = s.retry
      unfold Spool.writeFails
      split <;> rfl
  | answer i a =>
      show (s.answer i a).retry = s.retry
      unfold Spool.answer
      split
      · exact node_retry s _ a
      · rfl
  | remove i ok =>
      show (s.remove i ok).retry = s.retry
      unfold Spool.remove
      split
      · split <;> rfl
      · rfl
  | retryTick | nextEntry | endOfEntries | retryAnswer | retryRemove | crash => cases he

/-- A run without retries leaves the retry as it is. -/
theorem retry_exec {es : List (SpoolEvent F)} (hes : ∀ e ∈ es, e.retries = false) :
    (exec (Spool.step codec) s es).retry = s.retry := by
  induction es generalizing s with
  | nil => rfl
  | cons e es ih =>
      rw [exec_cons, ih fun e he => hes e (List.mem_cons_of_mem _ he)]
      exact retry_step (hes e List.mem_cons_self)

/-- The retries read the file of the proof, and the post that follows is accepted. -/
theorem taken_of_answered (hreads : codec.Reads p) (es gs : List (SpoolEvent F))
    (hone : submissions p.headerHex es = [p])
    (hreadable : ∀ encoded, codec.toVec p = some encoded → (codec.fromSlice encoded).isSome)
    (hspooled : p ∈ (exec (Spool.step codec) {} es).spooled)
    (hlisting : (exec (Spool.step codec) {} es).retry = .listing)
    (hgs : ∀ e ∈ gs, e.retries = false) :
    Taken p (exec (Spool.step codec) {}
      (es ++ .nextEntry p.headerHex :: gs ++ [.retryAnswer .accepted])) := by
  have hkept := kept_exec hreads es (by rw [hone])
  have hentry := hkept.nextEntry hreads p.headerHex
  rw [exec_append, exec_append, exec_cons, exec_cons, exec_nil]
  generalize exec (Spool.step codec) {} es = s at hkept hentry hspooled hlisting ⊢
  have hretry : (exec (Spool.step codec) (Spool.step codec s (.nextEntry p.headerHex)) gs).retry =
      (s.nextEntry codec p.headerHex).retry := retry_exec hgs
  cases hread : (s.files p.headerHex).bind codec.fromSlice with
  | some q =>
      have hposting : (s.nextEntry codec p.headerHex).retry = .posting p.headerHex q := by
        simp [Spool.nextEntry, hlisting, hread]
      rw [hposting] at hretry
      exact taken_retryAnswer hretry (hentry.retrying q hposting)
  | none =>
      -- the file is not there or cannot be read, so the node has the proof already
      have htaken : Taken p s := by
        rcases hkept.kept hspooled with ⟨encoded, hencoded, hfile⟩ | htaken
        · have hsome := hreadable encoded hencoded
          rw [hfile, Option.bind_some] at hread
          rw [hread] at hsome
          cases hsome
        · exact htaken
      exact ((htaken.mono (grows_step codec s _)).mono (grows_exec codec _ gs)).mono
        (grows_step codec _ _)

/-- In every run, the only proof of a header stays in its file once it is spooled, until the node
has accepted it. However the run goes on from there, through crashes and restarts: when the retries
come to the file and their post is answered, the node has the proof. -/
theorem spooled_kept (hreads : codec.Reads p) (es : List (SpoolEvent F))
    (hone : submissions p.headerHex es = [p]) :
    let s := exec (Spool.step codec) {} es
    p ∈ s.spooled →
      ((∃ encoded, codec.toVec p = some encoded ∧ s.files p.headerHex = some encoded) ∨
        Taken p s) ∧
      ((∀ encoded, codec.toVec p = some encoded → (codec.fromSlice encoded).isSome) →
        ∀ fs gs, submissions p.headerHex fs = [] →
          (exec (Spool.step codec) s fs).retry = .listing → (∀ e ∈ gs, e.retries = false) →
            Taken p (exec (Spool.step codec) s
              (fs ++ .nextEntry p.headerHex :: gs ++ [.retryAnswer .accepted]))) := by
  intro s hspooled
  refine ⟨(kept_exec hreads es (by rw [hone])).kept hspooled, ?_⟩
  intro hreadable fs gs hnone hlisting hgs
  have hone' : submissions p.headerHex (es ++ fs) = [p] := by
    rw [submissions_append, hone, hnone, List.append_nil]
  have hspooled' : p ∈ (exec (Spool.step codec) {} (es ++ fs)).spooled := by
    rw [exec_append]
    exact (grows_exec codec s fs).spooled.subset hspooled
  have htaken := taken_of_answered hreads (es ++ fs) gs hone' hreadable hspooled'
    (by rw [exec_append]; exact hlisting) hgs
  rw [List.append_assoc, List.append_assoc, exec_append] at htaken
  rwa [List.append_assoc]

end Kept

section Sample

/-- A text in quotes. None of the texts of a proof has a character to escape. -/
def quoted (text : Text) : Text :=
  '"' :: text ++ ['"']

/-- The JSON of a proof whose difficulty is given as a text. -/
def proofJson (p : ShareSubmission Text) : Text :=
  let nullable := fun text : Option Text => (text.map quoted).getD "null".toList
  "\x7b\"minerAddress\":".toList ++ quoted p.minerAddress ++
    ",\"username\":".toList ++ quoted p.username ++
    ",\"headerHex\":".toList ++ quoted p.headerHex ++
    ",\"coinbaseHex\":".toList ++ quoted p.coinbaseHex ++
    ",\"merklePath\":[".toList ++ [','].intercalate (p.merklePath.map quoted) ++
    "],\"payoutSnapshotId\":".toList ++ nullable p.payoutSnapshotId ++
    ",\"prevBlockHash\":".toList ++ nullable p.prevBlockHash ++
    ",\"difficulty\":".toList ++ p.difficulty ++ "\x7d".toList

def sampleProof : ShareSubmission Text where
  minerAddress := "bc1qminer".toList
  username := "worker".toList
  headerHex := "00ff".toList
  coinbaseHex := "0100".toList
  merklePath := ["aa".toList, "bb".toList]
  payoutSnapshotId := none
  prevBlockHash := some "cc".toList
  difficulty := "1024.5".toList

/-- A codec that reads the sample. -/
def sampleCodec : ProofCodec Text where
  toVec p := some (utf8 (proofJson p))
  fromSlice bytes := if bytes = utf8 (proofJson sampleProof) then some sampleProof else none

/-- The codec of the run reads what it writes. -/
theorem sampleCodec_reads : sampleCodec.Reads sampleProof where
  whole encoded q hencoded hq := by
    obtain rfl := Option.some.inj hencoded
    obtain rfl : sampleProof = q := by simpa [sampleCodec] using hq
    rfl
  cut encoded k hencoded hk := by
    obtain rfl := Option.some.inj hencoded
    refine if_neg fun heq => ?_
    have hlen := congrArg List.length heq
    rw [List.length_take] at hlen
    omega

/-- A run in which the answer to the first post is lost and the process crashes. -/
def sampleRun : List (SpoolEvent Text) :=
  [.submit sampleProof, .create 0, .write 0 10, .retryTick, .nextEntry sampleProof.headerHex,
    .write 0 1000, .answer 0 (.lost false), .crash]

/-- The next process brings the node the proof. -/
theorem spooled_kept_sample :
    let s := exec (Spool.step sampleCodec) {} sampleRun
    sampleProof ∈ s.spooled ∧
      ((∃ encoded, sampleCodec.toVec sampleProof = some encoded ∧
        s.files sampleProof.headerHex = some encoded) ∨ Taken sampleProof s) ∧
      Taken sampleProof (exec (Spool.step sampleCodec) s ([.retryTick] ++
        .nextEntry sampleProof.headerHex :: [.answer 0 .rejected] ++
          [.retryAnswer .accepted])) := by
  intro s
  have hspooled : sampleProof ∈ s.spooled := by decide +kernel
  obtain ⟨hkept, htaken⟩ := spooled_kept sampleCodec_reads sampleRun
    (by simp [submissions, sampleRun]) hspooled
  refine ⟨hspooled, hkept, htaken ?_ [.retryTick] [.answer 0 .rejected] rfl rfl ?_⟩
  · intro encoded hencoded
    obtain rfl := Option.some.inj hencoded
    simp [sampleCodec]
  · intro e he
    rw [List.mem_singleton.mp he]
    rfl

end Sample

/-! ### The distance of pulses -/

/-- The pulses so far are at a distance, and none is later than the last one of its channel. -/
structure Spaced (s : Pulses F) : Prop where
  apart : s.sent.Pairwise fun a b => a.channelKey = b.channelKey →
    a.now.toNat + max b.interval.toNat 1 ≤ b.now.toNat
  last : ∀ a ∈ s.sent, ∃ t, s.state.lastPulse a.channelKey = some t ∧ a.now.toNat ≤ t.toNat

/-- An event adds a pulse only when the interval has passed. -/
theorem Spaced.step {s : Pulses F} (h : Spaced s) (ord : FloatOrder F) (e : PulseEvent F) :
    Spaced (s.step ord e) := by
  cases e with
  | refreshWork minimum => exact ⟨h.apart, h.last⟩
  | refreshAdvice advice => exact ⟨h.apart, h.last⟩
  | share channelKey achievedDifficulty isBlock now =>
      unfold Pulses.step PulseState.shouldSubmitProof
      dsimp only
      split
      · exact ⟨h.apart, h.last⟩
      · split
        · exact ⟨h.apart, h.last⟩
        · split
          · exact ⟨h.apart, h.last⟩
          · rename_i hdue
            -- the pulse comes after the last one of its channel, and so after all of them
            have hafter : ∀ a ∈ s.sent, a.channelKey = channelKey →
                a.now.toNat + max s.state.advice.pulseTargetIntervalSeconds.toNat
                  1 ≤ now.toNat := by
              intro a ha hkey
              obtain ⟨t, ht, hle⟩ := h.last a ha
              rw [← hkey, ht, Option.getD_some] at hdue
              omega
            refine ⟨?_, fun a ha => ?_⟩
            · rw [if_pos rfl, List.pairwise_append]
              refine ⟨h.apart, List.pairwise_singleton _ _, fun a ha b hb hkey => ?_⟩
              obtain rfl := List.mem_singleton.mp hb
              exact hafter a ha hkey
            · rw [if_pos rfl] at ha
              dsimp only
              rcases List.mem_append.mp ha with ha | ha
              · by_cases hkey : a.channelKey = channelKey
                · refine ⟨now, by rw [hkey, Function.update_self], ?_⟩
                  have := hafter a ha hkey
                  omega
                · rw [Function.update_of_ne hkey]
                  exact h.last a ha
              · obtain rfl := List.mem_singleton.mp ha
                exact ⟨now, Function.update_self .., le_rfl⟩

/-- In every run, any two pulses of a channel are apart by the interval in force at the later one,
and by a second at least, whatever the clock does. -/
theorem pulses_spaced (ord : FloatOrder F) (minimum : F) (advice : ShareAdvice F)
    (es : List (PulseEvent F)) :
    (exec (Pulses.step ord) ⟨⟨minimum, advice, fun _ => none⟩, []⟩ es).sent.Pairwise fun a b =>
      a.channelKey = b.channelKey → a.now.toNat + max b.interval.toNat 1 ≤ b.now.toNat :=
  (exec_invariant (fun _ e h => Spaced.step h ord e) (I := Spaced)
    ⟨List.Pairwise.nil, by simp⟩ es).apart

end GridPoolSv2.Pool
