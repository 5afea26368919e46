import GridPoolSv2.MiningDevice.FastHasher

/-!
# MiningDevice.Device: what the mining threads submit

The model of `Device`, `Miner` and the mining threads (`integration-tests/lib/mining_device`). A
message of the pool changes the device's miner; the threads mine with copies of it, taken at a
restart, until the next restart stops them. A thread tries a batch of nonces at a time and sends the
first one of the batch that meets the target.

* The threads, the task that restarts them and the one that submits their shares interleave in any
  order. A handler that panics ends the task that reads messages, and the others go on.
* A restart ends the threads at once. In the source a thread looks at its flag between two turns, so
  that a stopped one may still send the share of its last turn; that share is one the thread could
  have sent before the restart. A panic under `safe_lock`, which poisons the mutex for the other
  tasks, only takes away turns and is not modelled.
* `findNonce_eq` says what a batch finds, in terms of the plain hash of a header.
* `Solves` is what the pool checks of a share: it is about the job and the previous hash that were
  paired (`Pairs`), not about the hasher.

Proof shape: `Mines` is kept by every handler and carried over to the threads at a restart,
where they get a copy of the miner. A thread changes its nonces only, so what it finds is a
solution for the pair it was started with.
-/

namespace GridPoolSv2.MiningDevice

open Consensus (leNat)
open ByteOrder (Word)
open Runs

/-! ### The miner

One header, one target and one job id. A miner without a header or a target cannot mine. -/

structure NewMiningJob where
  channelId : UInt32
  jobId : UInt32
  minNtime : Option UInt32
  version : UInt32
  merkleRoot : Word 32
  deriving Repr, DecidableEq

def NewMiningJob.isFuture (m : NewMiningJob) : Bool := m.minNtime.isNone

structure SetNewPrevHash where
  channelId : UInt32
  jobId : UInt32
  prevHash : Word 32
  minNtime : UInt32
  nbits : UInt32
  deriving Repr, DecidableEq

/-- `Miner`, without its handicap. A target is kept as its little-endian bytes. -/
structure Miner where
  header : Option Header := none
  target : Option (Word 32) := none
  jobId : Option UInt32 := none
  version : Option UInt32 := none
  fastHasher : Option FastSha256d := none

inductive NextShareOutcome where
  | validShare
  | invalidShare
  | noTarget
  | noHeader
  deriving Repr, DecidableEq

/-- What a thread sends when it has found a share. -/
structure Share where
  nonce : UInt32
  jobId : UInt32
  version : UInt32
  ntime : UInt32
  deriving Repr, DecidableEq

namespace Miner

def newTarget (m : Miner) (target : Word 32) : Miner :=
  { m with target := some target }

/-- The header of a job, at a time taken from the clock. -/
def jobHeader (now : UInt32) (p : SetNewPrevHash) (j : NewMiningJob) : Header where
  version := j.version
  prevBlockhash := p.prevHash
  merkleRoot := j.merkleRoot
  time := now
  bits := p.nbits
  nonce := 0

def newHeader (m : Miner) (now : UInt32) (p : SetNewPrevHash) (j : NewMiningJob) : Miner :=
  { m with
    jobId := some j.jobId
    version := some j.version
    header := some (jobHeader now p j)
    fastHasher := some (.fromHeaderStatic (jobHeader now p j)) }

def nextShare (m : Miner) : NextShareOutcome × Miner :=
  match m.header with
  | none => (.noHeader, m)
  | some header =>
      let (hash, m) :=
        match m.fastHasher with
        | some fast =>
            let r := fast.hashWithNonceTime header.nonce header.time
            (r.1, { m with fastHasher := some r.2 })
        | none => (header.blockHash, m)
      match m.target with
      | none => (.noTarget, m)
      | some target =>
          if hashMeetsTargetLe hash target.bytes then (.validShare, m) else (.invalidShare, m)

/-- The batch of nonces from `nonce` on: the first one that meets the target. -/
def findNonce (time : UInt32) (target : Word 32) :
    FastSha256d → UInt32 → Nat → Option UInt32 × FastSha256d
  | fast, _, 0 => (none, fast)
  | fast, nonce, left + 1 =>
      let r := fast.hashWithNonceTime nonce time
      if hashMeetsTargetLe r.1 target.bytes then (some nonce, r.2)
      else findNonce time target r.2 (nonce + 1) left

/-- The share that a thread sends. The `unwrap`s of the job's id and version may panic. -/
def share (m : Miner) (nonce time : UInt32) : Option Share :=
  match m.jobId, m.version with
  | some jobId, some version => some ⟨nonce, jobId, version, time⟩
  | _, _ => none

/-- One turn of the loop of `mine`, and the shares it sends. `none`: the thread panics. -/
def mine (batch : UInt32) (m : Miner) : Option (Miner × List Share) :=
  match m.fastHasher, m.target, m.header with
  | some fast, some target, some header =>
      let r := findNonce header.time target fast header.nonce batch.toNat
      let next := { m with
        fastHasher := some r.2
        header := some { header with nonce := header.nonce + batch } }
      match r.1 with
      | none => some (next, [])
      | some nonce => (m.share nonce header.time).map fun s => (next, [s])
  | _, _, _ =>
      let r := m.nextShare
      let next := { r.2 with header := r.2.header.map fun h => { h with nonce := h.nonce + 1 } }
      match r.1, r.2.header with
      | .validShare, some header => (r.2.share header.nonce header.time).map fun s => (next, [s])
      | .validShare, none => none
      | _, _ => some (next, [])

end Miner

/-! ### The device

The handlers of its messages. A job that is not a future one comes with a previous hash that was
sent before. -/

structure Device where
  channelId : Option UInt32 := none
  miner : Miner := {}
  jobs : List NewMiningJob := []
  prevHash : Option SetNewPrevHash := none
  /-- `sequence_numbers.state` -/
  sequenceNumber : UInt32 := 0

inductive Message where
  | openStandardMiningChannelSuccess (channelId : UInt32) (target : Word 32)
  | newMiningJob (m : NewMiningJob)
  | setNewPrevHash (m : SetNewPrevHash)
  | setTarget (target : Word 32)
  /-- The answers to shares. -/
  | submitShares
  /-- The messages whose handler is a `todo!()`. -/
  | unhandled
  deriving Repr, DecidableEq

namespace Device

/-- `none`: the handler panics. -/
def handleNewMiningJob (d : Device) (now : UInt32) (m : NewMiningJob) : Option Device :=
  match m.isFuture, d.prevHash with
  | false, some p => some { d with miner := d.miner.newHeader now p m, jobs := [m] }
  | true, _ => some { d with jobs := d.jobs ++ [m] }
  | false, none => none

def handleSetNewPrevHash (d : Device) (now : UInt32) (m : SetNewPrevHash) : Option Device :=
  match d.jobs.filter fun j => j.jobId == m.jobId && j.isFuture with
  | [] => some { d with prevHash := some m }
  | [j] => some { d with miner := d.miner.newHeader now m j, jobs := [j], prevHash := some m }
  | _ => none

def handleMessageMining (d : Device) (now : UInt32) : Message → Option Device
  | .openStandardMiningChannelSuccess channelId target =>
      some { d with channelId := some channelId, miner := d.miner.newTarget target }
  | .newMiningJob m => d.handleNewMiningJob now m
  | .setNewPrevHash m => d.handleSetNewPrevHash now m
  | .setTarget target => some { d with miner := d.miner.newTarget target }
  | .submitShares => some d
  | .unhandled => none

end Device

/-- The messages after which the mining threads are restarted. `should_send` is true from the start
and is only ever reset in a copy. -/
def Message.notifies : Message → Bool
  | .newMiningJob _ | .setNewPrevHash _ | .setTarget _ => true
  | _ => false

structure SubmitSharesStandard where
  channelId : UInt32
  sequenceNumber : UInt32
  jobId : UInt32
  nonce : UInt32
  ntime : UInt32
  version : UInt32
  deriving Repr, DecidableEq

structure System where
  device : Device := {}
  /-- The task that reads messages runs. -/
  reading : Bool := true
  /-- `have_new_job`: the notifications that were not received yet. -/
  notifications : Nat := 0
  /-- The threads of the last restart that run. -/
  workers : List Miner := []
  /-- `share_recv` -/
  shares : List Share := []
  /-- The task that submits shares runs. -/
  submitting : Bool := true
  sent : List SubmitSharesStandard := []
  /-- Ghost: the messages that were handled. -/
  received : List Message := []

inductive Event where
  | message (now : UInt32) (m : Message)
  /-- The threads are stopped, and `p` others started. -/
  | restart (p : Nat)
  /-- A turn of a thread. -/
  | mine (i : Nat) (batch : UInt32)
  | submit

namespace System

def receive (s : System) (now : UInt32) (m : Message) : System :=
  if s.reading then
    match s.device.handleMessageMining now m with
    | some d =>
        { s with
          device := d
          received := s.received ++ [m]
          notifications := if m.notifies then s.notifications + 1 else s.notifications }
    | none => { s with reading := false }
  else s

/-- The copies that `p` threads start with: each begins with its own part of the nonces. -/
def startedWorkers (m : Miner) (p : Nat) : List Miner :=
  (List.range p).map fun i =>
    { m with header := m.header.map fun h =>
      { h with nonce := UInt32.ofNat (i * ((2 ^ 32 - 1) / p)) } }

def restart (s : System) (p : Nat) : System :=
  match s.notifications with
  | 0 => s
  | n + 1 => { s with notifications := n, workers := startedWorkers s.device.miner p }

/-- A thread ends with a panic when nobody takes its share any more. -/
def mine (s : System) (i : Nat) (batch : UInt32) : System :=
  match s.workers[i]? with
  | none => s
  | some worker =>
      match worker.mine batch with
      | none => { s with workers := s.workers.eraseIdx i }
      | some (next, found) =>
          if s.submitting then
            { s with workers := s.workers.set i next, shares := s.shares ++ found }
          else if found.isEmpty then { s with workers := s.workers.set i next }
          else { s with workers := s.workers.eraseIdx i }

/-- `send_share`, which unwraps the channel's id. With `single` the task ends with the first one. -/
def submit (single : Bool) (s : System) : System :=
  if s.submitting then
    match s.shares with
    | [] => s
    | share :: rest =>
        match s.device.channelId with
        | none => { s with shares := rest, submitting := false }
        | some channelId =>
            let next := s.device.sequenceNumber + 1
            { s with
              shares := rest
              submitting := !single
              device := { s.device with sequenceNumber := next }
              sent := s.sent ++
                [⟨channelId, next, share.jobId, share.nonce, share.ntime, share.version⟩] }
  else s

def step (single : Bool) (s : System) : Event → System
  | .message now m => s.receive now m
  | .restart p => s.restart p
  | .mine i batch => s.mine i batch
  | .submit => s.submit single

end System

/-! ### Batches

The fast hasher tries one nonce after the other, and stops at the first that meets the target. -/

/-- The nonces of a batch. -/
def nonces : UInt32 → Nat → List UInt32
  | _, 0 => []
  | nonce, n + 1 => nonce :: nonces (nonce + 1) n

/-- The header meets the target with a nonce and a time. -/
def Meets (h : Header) (target : Word 32) (nonce time : UInt32) : Prop :=
  leNat { h with nonce, time }.blockHash ≤ target.number

instance (h : Header) (target : Word 32) (nonce time : UInt32) :
    Decidable (Meets h target nonce time) :=
  inferInstanceAs (Decidable (_ ≤ _))

theorem length_blockHash (h : Header) : h.blockHash.length = 32 :=
  Sha256.digestTwice_length _

/-- The comparison of the source is the one of the share check. -/
theorem hashMeetsTargetLe_blockHash (h : Header) (target : Word 32) (nonce time : UInt32) :
    hashMeetsTargetLe { h with nonce, time }.blockHash target.bytes ↔ Meets h target nonce time :=
  hashMeetsTargetLe_iff (length_blockHash _) target.length_bytes

/-- A batch finds its first nonce that meets the target, by the plain hash of the header, and leaves
a hasher that is good for the next batch. -/
theorem findNonce_eq {h : Header} {fast : FastSha256d} (hf : Prepared h fast) (time : UInt32)
    (target : Word 32) (nonce : UInt32) (n : Nat) :
    (Miner.findNonce time target fast nonce n).1 =
        (nonces nonce n).find? (fun nonce => Meets h target nonce time) ∧
      Prepared h (Miner.findNonce time target fast nonce n).2 := by
  induction n generalizing fast nonce with
  | zero => exact ⟨rfl, hf⟩
  | succ n ih =>
      obtain ⟨hhash, hnext⟩ := hf.hashWithNonceTime nonce time
      have hmeets := hashMeetsTargetLe_blockHash h target nonce time
      rw [Miner.findNonce, hhash]
      by_cases hnonce : Meets h target nonce time
      · rw [if_pos (hmeets.mpr hnonce), nonces, List.find?_cons_of_pos (by simpa using hnonce)]
        exact ⟨rfl, hnext⟩
      · rw [if_neg (hnonce ∘ hmeets.mp), nonces, List.find?_cons_of_neg (by simpa using hnonce)]
        exact ih hnext (nonce + 1)

theorem Prepared.with_nonce {h : Header} {fast : FastSha256d} (hf : Prepared h fast)
    (nonce : UInt32) : Prepared { h with nonce } fast := by
  obtain ⟨time', nonce', hblock⟩ := hf.block1
  exact ⟨hf.state0, ⟨time', nonce', hblock⟩, hf.secondBlock⟩

/-! ### Turns -/

namespace Miner

/-- The shares that a thread sends in some turns, each with its batch. -/
def mineAll : Miner → List UInt32 → Option (List Share)
  | _, [] => some []
  | m, batch :: batches =>
      match m.mine batch with
      | none => none
      | some (next, found) => (next.mineAll batches).map fun rest => found ++ rest

/-- A miner that can try nonces of a header. -/
structure Ready (m : Miner) (h : Header) (target : Word 32) (jobId version : UInt32) : Prop where
  header : m.header = some h
  target : m.target = some target
  jobId : m.jobId = some jobId
  version : m.version = some version

variable {m : Miner} {h : Header} {target : Word 32} {jobId version : UInt32}

/-- A turn of a thread with a hasher: the first share of the batch. -/
theorem Ready.mine (hr : m.Ready h target jobId version) {fast : FastSha256d}
    (hfast : m.fastHasher = some fast) (hf : Prepared h fast) (batch : UInt32) :
    ∃ next, m.mine batch = some (next,
        (((nonces h.nonce batch.toNat).find? fun nonce => Meets h target nonce h.time).map
          fun nonce => ⟨nonce, jobId, version, h.time⟩).toList) ∧
      next.Ready { h with nonce := h.nonce + batch } target jobId version ∧
      ∃ fast', next.fastHasher = some fast' ∧ Prepared h fast' := by
  obtain ⟨hfound, hnext⟩ := findNonce_eq hf h.time target h.nonce batch.toNat
  refine ⟨{ m with
    fastHasher := some (findNonce h.time target fast h.nonce batch.toNat).2
    header := some { h with nonce := h.nonce + batch } }, ?_,
    ⟨rfl, hr.target, hr.jobId, hr.version⟩, _, rfl, hnext⟩
  unfold Miner.mine
  rw [hfast, hr.target, hr.header]
  dsimp only
  rw [hfound]
  cases (nonces h.nonce batch.toNat).find? fun nonce => Meets h target nonce h.time with
  | none => rfl
  | some nonce => simp [Miner.share, hr.jobId, hr.version]

theorem Ready.nextShare (hr : m.Ready h target jobId version) (hfast : m.fastHasher = none) :
    m.nextShare =
      (if Meets h target h.nonce h.time then .validShare else .invalidShare, m) := by
  have hmeets : hashMeetsTargetLe h.blockHash target.bytes ↔ Meets h target h.nonce h.time :=
    hashMeetsTargetLe_blockHash h target h.nonce h.time
  unfold Miner.nextShare
  rw [hr.header]
  dsimp only
  rw [hfast]
  dsimp only
  rw [hr.target]
  dsimp only
  by_cases hvalid : Meets h target h.nonce h.time
  · rw [if_pos (hmeets.mpr hvalid), if_pos hvalid]
  · rw [if_neg (hvalid ∘ hmeets.mp), if_neg hvalid]

/-- A turn of a thread without a hasher tries one nonce, by the plain hash. -/
theorem Ready.mine_plain (hr : m.Ready h target jobId version) (hfast : m.fastHasher = none)
    (batch : UInt32) :
    ∃ next, m.mine batch = some (next,
        if Meets h target h.nonce h.time then [⟨h.nonce, jobId, version, h.time⟩] else []) ∧
      next.Ready { h with nonce := h.nonce + 1 } target jobId version ∧
      next.fastHasher = none := by
  have hnext := hr.nextShare hfast
  refine ⟨{ m with header := some { h with nonce := h.nonce + 1 } }, ?_,
    ⟨rfl, hr.target, hr.jobId, hr.version⟩, hfast⟩
  by_cases hvalid : Meets h target h.nonce h.time
  · rw [if_pos hvalid] at hnext ⊢
    unfold Miner.mine
    rw [hfast, hnext]
    dsimp only
    rw [hr.header]
    dsimp only [Miner.share]
    rw [hr.jobId, hr.version, hfast]
    rfl
  · rw [if_neg hvalid] at hnext ⊢
    unfold Miner.mine
    rw [hfast, hnext]
    dsimp only
    rw [hr.header, hfast]
    rfl

end Miner

/-- The nonces of the batches of a thread. -/
def windows : UInt32 → List UInt32 → List (List UInt32)
  | _, [] => []
  | nonce, batch :: batches => nonces nonce batch.toNat :: windows (nonce + batch) batches

/-- The miner of a thread, from the given nonce on, with a hasher or without. -/
def startedAt (m : Miner) (nonce : UInt32) (fast : Option FastSha256d) : Miner :=
  { m with header := m.header.map fun h => { h with nonce }, fastHasher := fast }

section Threads

variable {m : Miner} {h : Header} {target : Word 32} {jobId version : UInt32}

theorem mineAll_of_ready (batches : List UInt32) (hr : m.Ready h target jobId version)
    {fast : FastSha256d} (hfast : m.fastHasher = some fast) (hf : Prepared h fast) :
    m.mineAll batches = some ((windows h.nonce batches).filterMap fun w =>
      (w.find? fun nonce => Meets h target nonce h.time).map fun nonce =>
        ⟨nonce, jobId, version, h.time⟩) := by
  induction batches generalizing m h fast with
  | nil => rfl
  | cons batch batches ih =>
      obtain ⟨next, hmine, hready, fast', hfast', hf'⟩ := hr.mine hfast hf batch
      have hrest := ih hready hfast' (hf'.with_nonce _)
      rw [Miner.mineAll, hmine, windows, List.filterMap_cons]
      dsimp only
      rw [hrest]
      cases (nonces h.nonce batch.toNat).find? fun nonce => Meets h target nonce h.time with
      | none => rfl
      | some nonce => rfl

theorem mineAll_of_ready_plain (batches : List UInt32) (hr : m.Ready h target jobId version)
    (hfast : m.fastHasher = none) :
    m.mineAll batches = some (((nonces h.nonce batches.length).filter fun nonce =>
      Meets h target nonce h.time).map fun nonce => ⟨nonce, jobId, version, h.time⟩) := by
  induction batches generalizing m h with
  | nil => rfl
  | cons batch batches ih =>
      obtain ⟨next, hmine, hready, hfast'⟩ := hr.mine_plain hfast batch
      have hrest := ih hready hfast'
      have hsame (nonce : UInt32) : Meets { h with nonce := h.nonce + 1 } target nonce h.time ↔
          Meets h target nonce h.time := Iff.rfl
      rw [Miner.mineAll, hmine, List.length_cons, nonces, List.filter_cons]
      dsimp only
      rw [hrest]
      by_cases hvalid : Meets h target h.nonce h.time
      · simp [hvalid, hsame]
      · simp [hvalid, hsame]

/-- What a thread sends for a job, from its first nonce on. With the hasher it is the first nonce of
each batch that meets the target, by the plain hash of the header; without it, every one of the
nonces that are tried. -/
theorem mineAll_started (m : Miner) (target : Word 32) (now : UInt32) (p : SetNewPrevHash)
    (j : NewMiningJob) (nonce : UInt32) (batches : List UInt32) :
    let started := (m.newTarget target).newHeader now p j
    let meets := fun nonce => decide (Meets (Miner.jobHeader now p j) target nonce now)
    let found := fun nonce => Share.mk nonce j.jobId j.version now
    (startedAt started nonce started.fastHasher).mineAll batches =
        some ((windows nonce batches).filterMap fun w => (w.find? meets).map found) ∧
      (startedAt started nonce none).mineAll batches =
        some (((nonces nonce batches.length).filter meets).map found) := by
  have hprepared := (prepared_fromHeaderStatic (Miner.jobHeader now p j)).with_nonce nonce
  exact ⟨mineAll_of_ready batches ⟨rfl, rfl, rfl, rfl⟩ rfl hprepared,
    mineAll_of_ready_plain (m := startedAt ((m.newTarget target).newHeader now p j) nonce none)
      batches ⟨rfl, rfl, rfl, rfl⟩ rfl⟩

end Threads

/-! ### Jobs and previous hashes -/

def Message.asPrevHash : Message → Option SetNewPrevHash
  | .setNewPrevHash p => some p
  | _ => none

def lastPrevHash (received : List Message) : Option SetNewPrevHash :=
  (received.filterMap Message.asPrevHash).getLast?

/-- A job goes with the previous hash that it was mined on: a future job with a later one of its id,
another job with the last one before it. -/
def Pairs (received : List Message) (j : NewMiningJob) (p : SetNewPrevHash) : Prop :=
  ∃ before after,
    (received = before ++ .setNewPrevHash p :: after ∧ .newMiningJob j ∈ before ∧ j.isFuture ∧
        p.jobId = j.jobId) ∨
      (received = before ++ .newMiningJob j :: after ∧ lastPrevHash before = some p ∧ ¬ j.isFuture)

/-- The pool set the target, with the channel or later. -/
def Targeted (received : List Message) (target : Word 32) : Prop :=
  .setTarget target ∈ received ∨
    ∃ channelId, .openStandardMiningChannelSuccess channelId target ∈ received

/-- A share solves the header of a job and its previous hash, by a target that the pool set. -/
def Solves (received : List Message) (jobId nonce ntime version : UInt32) : Prop :=
  ∃ j p target, Pairs received j p ∧ Targeted received target ∧
    jobId = j.jobId ∧ version = j.version ∧
    leNat (Header.mk j.version p.prevHash j.merkleRoot ntime p.nbits nonce).blockHash ≤
      target.number

section Received

variable {received : List Message} {j : NewMiningJob} {p : SetNewPrevHash}

theorem lastPrevHash_append (received : List Message) (m : Message) :
    lastPrevHash (received ++ [m]) = m.asPrevHash.or (lastPrevHash received) := by
  unfold lastPrevHash
  cases h : m.asPrevHash with
  | none => simp [h]
  | some p => simp [h]

theorem Pairs.append (h : Pairs received j p) (m : Message) : Pairs (received ++ [m]) j p := by
  obtain ⟨before, after, h⟩ := h
  refine ⟨before, after ++ [m], ?_⟩
  rcases h with ⟨rfl, h⟩ | ⟨rfl, h⟩
  · exact .inl ⟨by simp, h⟩
  · exact .inr ⟨by simp, h⟩

theorem Targeted.append {target : Word 32} (h : Targeted received target) (m : Message) :
    Targeted (received ++ [m]) target := by
  rcases h with h | ⟨channelId, h⟩
  · exact .inl (List.mem_append_left _ h)
  · exact .inr ⟨channelId, List.mem_append_left _ h⟩

theorem Solves.append {jobId nonce ntime version : UInt32}
    (h : Solves received jobId nonce ntime version) (m : Message) :
    Solves (received ++ [m]) jobId nonce ntime version := by
  obtain ⟨j, p, target, hpairs, htarget, hrest⟩ := h
  exact ⟨j, p, target, hpairs.append m, htarget.append m, hrest⟩

end Received

/-! ### The invariant

Every miner, that of the device and those of the threads, mines a header of such a pair. -/

/-- The header is the one of a job and its previous hash, at some time and with some nonce. -/
structure Header.For (h : Header) (p : SetNewPrevHash) (j : NewMiningJob) : Prop where
  version : h.version = j.version
  prevBlockhash : h.prevBlockhash = p.prevHash
  merkleRoot : h.merkleRoot = j.merkleRoot
  bits : h.bits = p.nbits

/-- A miner mines on jobs of the pool. -/
structure Mines (received : List Message) (m : Miner) : Prop where
  target : ∀ target, m.target = some target → Targeted received target
  header : ∀ h, m.header = some h → ∃ j p, Pairs received j p ∧ h.For p j ∧
    m.jobId = some j.jobId ∧ m.version = some j.version ∧
    ∃ fast, m.fastHasher = some fast ∧ Prepared h fast

section Mines

variable {received : List Message} {m : Miner}

theorem Mines.append (h : Mines received m) (msg : Message) : Mines (received ++ [msg]) m where
  target target htarget := (h.target target htarget).append msg
  header header hheader := by
    obtain ⟨j, p, hpairs, hrest⟩ := h.header header hheader
    exact ⟨j, p, hpairs.append msg, hrest⟩

theorem Mines.newTarget (h : Mines received m) {target : Word 32} (ht : Targeted received target) :
    Mines received (m.newTarget target) where
  target t heq := by
    obtain rfl : target = t := Option.some.inj heq
    exact ht
  header := h.header

theorem Mines.newHeader (h : Mines received m) {j : NewMiningJob} {p : SetNewPrevHash}
    (hpairs : Pairs received j p) (now : UInt32) : Mines received (m.newHeader now p j) where
  target := h.target
  header header heq := by
    obtain rfl : Miner.jobHeader now p j = header := Option.some.inj heq
    exact ⟨j, p, hpairs, ⟨rfl, rfl, rfl, rfl⟩, rfl, rfl, _, rfl, prepared_fromHeaderStatic _⟩

theorem Mines.started (h : Mines received m) (nonce : UInt32) :
    Mines received { m with header := m.header.map fun h => { h with nonce } } where
  target := h.target
  header header heq := by
    obtain ⟨old, hold, rfl⟩ := Option.map_eq_some_iff.mp heq
    obtain ⟨j, p, hpairs, hfor, hid, hversion, fast, hfast, hf⟩ := h.header old hold
    exact ⟨j, p, hpairs, { hfor with }, hid, hversion, fast, hfast, hf.with_nonce nonce⟩

/-- A turn of a thread does not panic, and what it sends solves the header. -/
theorem Mines.mine (h : Mines received m) (batch : UInt32) :
    ∃ next found, m.mine batch = some (next, found) ∧ Mines received next ∧
      ∀ s ∈ found, Solves received s.jobId s.nonce s.ntime s.version := by
  cases hheader : m.header with
  | none =>
      refine ⟨m, [], ?_, h, by simp⟩
      unfold Miner.mine Miner.nextShare
      split
      · rename_i heq
        rw [hheader] at heq
        cases heq
      · rw [hheader]
        dsimp only
        rw [hheader]
        dsimp only [Option.map_none]
        rw [← hheader]
  | some header =>
      obtain ⟨j, p, hpairs, hfor, hid, hversion, fast, hfast, hf⟩ := h.header header hheader
      cases htarget : m.target with
      | none =>
          obtain ⟨-, hnext⟩ := hf.hashWithNonceTime header.nonce header.time
          refine ⟨{ m with
            fastHasher := some (fast.hashWithNonceTime header.nonce header.time).2
            header := some { header with nonce := header.nonce + 1 } }, [], ?_, ⟨?_, ?_⟩, by simp⟩
          · unfold Miner.mine Miner.nextShare
            rw [hfast, htarget, hheader]
            rfl
          · intro t ht
            exact h.target t (by rw [← ht, htarget])
          · intro h' hh'
            obtain rfl := Option.some.inj hh'
            exact ⟨j, p, hpairs, { hfor with }, hid, hversion, _, rfl, hnext.with_nonce _⟩
      | some target =>
          have hready : m.Ready header target j.jobId j.version := ⟨hheader, htarget, hid, hversion⟩
          obtain ⟨next, hmine, hnext, fast', hfast', hf'⟩ := hready.mine hfast hf batch
          refine ⟨next, _, hmine, ⟨?_, ?_⟩, ?_⟩
          · intro t ht
            obtain rfl := Option.some.inj (hnext.target.symm.trans ht)
            exact h.target target htarget
          · intro h' hh'
            obtain rfl := Option.some.inj (hnext.header.symm.trans hh')
            exact ⟨j, p, hpairs, { hfor with }, hnext.jobId, hnext.version, fast', hfast',
              hf'.with_nonce _⟩
          · intro s hs
            rw [Option.mem_toList, Option.map_eq_some_iff] at hs
            obtain ⟨nonce, hfound, rfl⟩ := hs
            have hmeets : Meets header target nonce header.time := by
              simpa using List.find?_some hfound
            refine ⟨j, p, target, hpairs, h.target target htarget, rfl, rfl, ?_⟩
            rw [← hfor.version, ← hfor.prevBlockhash, ← hfor.merkleRoot, ← hfor.bits]
            exact hmeets

end Mines

/-- The invariant of a device and its threads. -/
structure Inv (s : System) : Prop where
  device : Mines s.received s.device.miner
  jobs : ∀ j ∈ s.device.jobs, .newMiningJob j ∈ s.received
  prevHash : s.device.prevHash = lastPrevHash s.received
  workers : ∀ w ∈ s.workers, Mines s.received w
  shares : ∀ x ∈ s.shares, Solves s.received x.jobId x.nonce x.ntime x.version
  sent : ∀ m ∈ s.sent, Solves s.received m.jobId m.nonce m.ntime m.version
  counter : s.device.sequenceNumber = UInt32.ofNat s.sent.length
  numbers : s.sent.map (·.sequenceNumber) =
    (List.range s.sent.length).map fun k => UInt32.ofNat (k + 1)

/-- What a handled message leaves in the device. -/
structure Handled (received : List Message) (d d' : Device) : Prop where
  miner : Mines received d'.miner
  jobs : ∀ j ∈ d'.jobs, .newMiningJob j ∈ received
  prevHash : d'.prevHash = lastPrevHash received
  sequenceNumber : d'.sequenceNumber = d.sequenceNumber

/-- A job keeps the device and its miner in step with the messages. -/
theorem handleNewMiningJob_handled {received : List Message} {d d' : Device} {now : UInt32}
    {j : NewMiningJob} (hminer : Mines received d.miner)
    (hjobs : ∀ j ∈ d.jobs, .newMiningJob j ∈ received) (hprev : d.prevHash = lastPrevHash received)
    (h : d.handleNewMiningJob now j = some d') : Handled (received ++ [.newMiningJob j]) d d' := by
  have hlast : lastPrevHash (received ++ [.newMiningJob j]) = lastPrevHash received :=
    lastPrevHash_append received _
  unfold Device.handleNewMiningJob at h
  split at h
  · rename_i p hfuture hp
    obtain rfl := Option.some.inj h
    have hpairs : Pairs (received ++ [.newMiningJob j]) j p :=
      ⟨received, [], .inr ⟨rfl, by rw [← hprev, hp], by simp [hfuture]⟩⟩
    exact ⟨(hminer.append _).newHeader hpairs now, by simp, by rw [hlast, hprev], rfl⟩
  · obtain rfl := Option.some.inj h
    refine ⟨hminer.append _, fun k hk => ?_, by rw [hlast, hprev], rfl⟩
    rcases List.mem_append.mp hk with hk | hk
    · exact List.mem_append_left _ (hjobs k hk)
    · rw [List.mem_singleton.mp hk]
      simp
  · cases h

theorem handleSetNewPrevHash_handled {received : List Message} {d d' : Device} {now : UInt32}
    {p : SetNewPrevHash} (hminer : Mines received d.miner)
    (hjobs : ∀ j ∈ d.jobs, .newMiningJob j ∈ received)
    (h : d.handleSetNewPrevHash now p = some d') :
    Handled (received ++ [.setNewPrevHash p]) d d' := by
  have hlast : lastPrevHash (received ++ [.setNewPrevHash p]) = some p :=
    lastPrevHash_append received _
  unfold Device.handleSetNewPrevHash at h
  split at h
  · obtain rfl := Option.some.inj h
    exact ⟨hminer.append _, fun k hk => List.mem_append_left _ (hjobs k hk), hlast.symm, rfl⟩
  · rename_i j hfilter
    obtain rfl := Option.some.inj h
    have hj : j ∈ d.jobs.filter fun j => j.jobId == p.jobId && j.isFuture := by
      rw [hfilter]
      exact List.mem_singleton_self j
    simp only [List.mem_filter, Bool.and_eq_true, beq_iff_eq] at hj
    obtain ⟨hmem, hid, hfuture⟩ := hj
    have hpairs : Pairs (received ++ [.setNewPrevHash p]) j p :=
      ⟨received, [], .inl ⟨rfl, hjobs j hmem, hfuture, hid.symm⟩⟩
    refine ⟨(hminer.append _).newHeader hpairs now, fun k hk => ?_, hlast.symm, rfl⟩
    rw [List.mem_singleton.mp hk]
    exact List.mem_append_left _ (hjobs j hmem)
  · cases h

theorem handleMessageMining_handled {received : List Message} {d d' : Device} {now : UInt32}
    {m : Message} (hminer : Mines received d.miner)
    (hjobs : ∀ j ∈ d.jobs, .newMiningJob j ∈ received) (hprev : d.prevHash = lastPrevHash received)
    (h : d.handleMessageMining now m = some d') : Handled (received ++ [m]) d d' := by
  have hjobs' : ∀ k ∈ d.jobs, .newMiningJob k ∈ received ++ [m] :=
    fun k hk => List.mem_append_left _ (hjobs k hk)
  have hlast := lastPrevHash_append received m
  cases m with
  | openStandardMiningChannelSuccess channelId target =>
      obtain rfl := Option.some.inj h
      refine ⟨(hminer.append _).newTarget (.inr ⟨channelId, by simp⟩), hjobs', ?_, rfl⟩
      exact hprev.trans hlast.symm
  | newMiningJob j => exact handleNewMiningJob_handled hminer hjobs hprev h
  | setNewPrevHash p => exact handleSetNewPrevHash_handled hminer hjobs h
  | setTarget target =>
      obtain rfl := Option.some.inj h
      exact ⟨(hminer.append _).newTarget (.inl (by simp)), hjobs', hprev.trans hlast.symm, rfl⟩
  | submitShares =>
      obtain rfl := Option.some.inj h
      exact ⟨hminer.append _, hjobs', hprev.trans hlast.symm, rfl⟩
  | unhandled => cases h

theorem Inv.step {s : System} (h : Inv s) (single : Bool) (e : Event) :
    Inv (System.step single s e) := by
  cases e with
  | message now m =>
      unfold System.step System.receive
      dsimp only
      split
      · cases hd : s.device.handleMessageMining now m with
        | none => exact { h with }
        | some d =>
            have hhandled := handleMessageMining_handled h.device h.jobs h.prevHash hd
            exact {
              device := hhandled.miner
              jobs := hhandled.jobs
              prevHash := hhandled.prevHash
              workers := fun w hw => (h.workers w hw).append m
              shares := fun x hx => (h.shares x hx).append m
              sent := fun x hx => (h.sent x hx).append m
              counter := hhandled.sequenceNumber.trans h.counter
              numbers := h.numbers }
      · exact h
  | restart p =>
      unfold System.step System.restart
      dsimp only
      split
      · exact h
      · refine { h with workers := fun w hw => ?_ }
        obtain ⟨i, -, rfl⟩ := List.mem_map.mp hw
        exact h.device.started _
  | mine i batch =>
      unfold System.step System.mine
      dsimp only
      cases hw : s.workers[i]? with
      | none => exact h
      | some worker =>
          obtain ⟨next, found, hmine, hnext, hfound⟩ :=
            (h.workers worker (List.mem_of_getElem? hw)).mine batch
          have hset : ∀ w ∈ s.workers.set i next, Mines s.received w := by
            intro w hmem
            rcases List.mem_or_eq_of_mem_set hmem with hmem | rfl
            · exact h.workers w hmem
            · exact hnext
          simp only [hmine]
          split
          · refine { h with workers := hset, shares := fun x hx => ?_ }
            rcases List.mem_append.mp hx with hx | hx
            · exact h.shares x hx
            · exact hfound x hx
          · split
            · exact { h with workers := hset }
            · exact { h with workers := fun w hmem => h.workers w (List.mem_of_mem_eraseIdx hmem) }
  | submit =>
      unfold System.step System.submit
      dsimp only
      split
      · cases hs : s.shares with
        | nil => exact h
        | cons share rest =>
            have hrest : ∀ x ∈ rest, Solves s.received x.jobId x.nonce x.ntime x.version :=
              fun x hx => h.shares x (by rw [hs]; exact List.mem_cons_of_mem _ hx)
            have hshare := h.shares share (by rw [hs]; exact List.mem_cons_self)
            dsimp only
            split
            · exact { h with shares := hrest }
            · refine { h with
                shares := hrest
                sent := fun x hx => ?_
                counter := ?_
                numbers := ?_ }
              · rcases List.mem_append.mp hx with hx | hx
                · exact h.sent x hx
                · rw [List.mem_singleton.mp hx]
                  exact hshare
              · rw [List.length_append, List.length_singleton, UInt32.ofNat_add, ← h.counter]
                rfl
              · rw [List.map_append, h.numbers, List.length_append, List.length_singleton,
                  List.range_succ, List.map_append, List.map_singleton, List.map_singleton,
                  UInt32.ofNat_add, ← h.counter]
                rfl
      · exact h

theorem inv_initial : Inv {} where
  device := ⟨fun _ h => (nomatch h), fun _ h => (nomatch h)⟩
  jobs := by simp
  prevHash := rfl
  workers := by simp
  shares := by simp
  sent := by simp
  counter := rfl
  numbers := rfl

/-- In every run, each share that is submitted solves the header of a job of the pool and of the
previous hash that goes with it, by a target of the pool, and the sequence numbers count up from
one. -/
theorem sent_solves (single : Bool) (es : List Event) :
    let s := exec (System.step single) {} es
    (∀ m ∈ s.sent, Solves s.received m.jobId m.nonce m.ntime m.version) ∧
      s.sent.map (·.sequenceNumber) =
        (List.range s.sent.length).map fun k => UInt32.ofNat (k + 1) := by
  have h := exec_invariant (I := Inv) (fun s e h => h.step single e) inv_initial es
  exact ⟨h.sent, h.numbers⟩

end GridPoolSv2.MiningDevice
