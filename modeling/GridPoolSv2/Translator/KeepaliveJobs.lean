import GridPoolSv2.Translator.JobStorage
import GridPoolSv2.Translator.ShareFidelity

/-!
# Translator.KeepaliveJobs: what a keepalive job is made from

A keepalive is made from the last stored job, which may be a keepalive itself, made for another
connection. Its id is the one of an upstream job, a `#` and a number; its time is later, up to a cap
that is counted from the upstream job, which is looked up by its id.

* `Rounds` is the server with its keepalive loop: a round picks its connections first and serves
  them one by one, whatever comes between. The accesses to the maps that serve one connection (the
  last job, the upstream job behind it, the storing and the sending) are one step: the loop and the
  handlers of upstream messages are branches of the `select!` of one task.
* `KeepaliveOf` relates a keepalive to its upstream job, and `Derivations` is the invariant: every
  stored keepalive has its job before it in its list, and a number of its own.
* The lookup by id finds the right job as long as no stored job shares the id of a different one
  (`SameIds`).

Proof shape: jobs are named by their place in a list, since ids may be used again. A step
appends one job to one list, after clearing it or not (`Stores`), and both invariants, on
derivations and on times, are kept by such a change when the new job is admitted (`Admits`).
The rounds of the loop add nothing but the order of these steps.
-/

namespace GridPoolSv2.Translator

open Function (update)
open Runs Sv1Server

namespace Sv1Server

/-! ### Rounds -/

/-- `valid_sv1_jobs.get_mut(..)`, then `push`. -/
def storeKeepalive (s : Sv1Server) (channelId : Option ChannelId) (notify : Notify) : Sv1Server :=
  match s.lookupChannel channelId with
  | none => s
  | some ch =>
      { s with validSv1Jobs := update s.validSv1Jobs ch ((s.validSv1Jobs ch).map (· ++ [notify])) }

/-- A keepalive is sent; the connection notes the time, if it is still there. -/
def sendKeepalive (s : Sv1Server) (now : Nat) (d : DownstreamId) (notify : Notify) : Sv1Server :=
  if (s.queues d).isSome then
    match s.downstreams d with
    | none => s.enqueue d (.notify notify)
    | some data =>
        (s.enqueue d (.notify notify)).setData d { data with lastJobReceivedTime := some now }
  else s

/-- The body of the loop over the targets of a round: `channelId` is the one the connection had when
it was picked. -/
def keepaliveTarget (s : Sv1Server) (now : Nat) (d : DownstreamId) (channelId : Option ChannelId) :
    Sv1Server :=
  match s.getLastJob channelId with
  | none => s
  | some lastJob =>
      let newTime := s.keepaliveTime channelId lastJob
      if newTime = lastJob.time then s
      else
        let originalJobId := (extractOriginalJobId lastJob.jobId).getD lastJob.jobId
        let notify := { lastJob with
          jobId := nextKeepaliveJobId s.keepaliveJobIdCounter.toNat originalJobId
          time := newTime }
        (storeKeepalive { s with keepaliveJobIdCounter := s.keepaliveJobIdCounter + 1 } channelId
          notify).sendKeepalive now d notify

/-- The targets of a round, for the connections in the order they are visited. -/
def keepaliveTargets (s : Sv1Server) (now : Nat) (downstreams : List DownstreamId) :
    List (DownstreamId × Option ChannelId) :=
  downstreams.filterMap fun d =>
    (s.downstreams d).bind fun data =>
      if s.needsKeepalive now data then some (d, data.channelId) else none

/-- The keepalives made by a step that leads to `s'`. -/
def madeBy (s s' : Sv1Server) : Nat :=
  if s'.keepaliveJobIdCounter = s.keepaliveJobIdCounter then 0 else 1

theorem lookupChannel_counter (s : Sv1Server) (k : UInt32) (channelId : Option ChannelId) :
    lookupChannel { s with keepaliveJobIdCounter := k } channelId = s.lookupChannel channelId :=
  rfl

/-- The event of a single target is a round of its own. -/
theorem keepalive_eq_target (s : Sv1Server) (now : Nat) (d : DownstreamId) :
    s.keepalive now d =
      match s.keepaliveTargets now [d] with
      | [] => s
      | t :: _ => s.keepaliveTarget now t.1 t.2 := by
  unfold keepalive keepaliveTargets
  cases hd : s.downstreams d with
  | none => simp [hd]
  | some data =>
      by_cases hneeds : s.needsKeepalive now data
      · simp only [List.filterMap_cons, List.filterMap_nil, hd, Option.bind_some, hneeds, if_true]
        unfold keepaliveTarget
        cases s.getLastJob data.channelId with
        | none => rfl
        | some lastJob =>
            dsimp only
            split
            · rfl
            · unfold pushKeepalive storeKeepalive sendKeepalive
              rw [lookupChannel_counter]
              cases s.lookupChannel data.channelId <;> simp [hd]
      · simp [hd, hneeds]

end Sv1Server

/-- The server and the keepalive loop. -/
structure Rounds where
  server : Sv1Server
  /-- `keepalive_targets`, without those that were served. -/
  targets : List (DownstreamId × Option ChannelId) := []
  /-- Ghost: the keepalives made so far. -/
  made : Nat := 0

namespace Rounds

inductive Event where
  | server (e : Sv1Server.Event)
  /-- A round begins. -/
  | collect (now : Nat) (downstreams : List DownstreamId)
  /-- The next target of the round. -/
  | target (now : Nat)

/-- The server after a step of its own or of the loop. -/
def became (r : Rounds) (s : Sv1Server) (targets : List (DownstreamId × Option ChannelId)) :
    Rounds where
  server := s
  targets := targets
  made := r.made + r.server.madeBy s

/-- A round begins when the one before it has no target left. -/
def step (lib : Sv1Lib) (r : Rounds) : Event → Rounds
  | .server e => r.became (r.server.step lib e) r.targets
  | .collect now downstreams =>
      match r.targets with
      | [] => { r with targets := r.server.keepaliveTargets now downstreams }
      | _ :: _ => r
  | .target now =>
      match r.targets with
      | [] => r
      | (d, channelId) :: rest => r.became (r.server.keepaliveTarget now d channelId) rest

def initial (mode : TproxyMode) (keepaliveIntervalSecs : UInt16) : Rounds where
  server := .initial mode keepaliveIntervalSecs

end Rounds

/-! ### Ids and times

A keepalive has the id of its upstream job in front of the `#`, and a number behind it. -/

theorem toDigits_injective {j k : Nat} (h : Nat.toDigits 10 j = Nat.toDigits 10 k) : j = k := by
  have hparsed := congrArg (fun digits => Nat.ofDigitChars 10 digits 0) h
  simpa using hparsed

theorem nextKeepaliveJobId_inj {i j : UInt32} {k l : Nat}
    (h : nextKeepaliveJobId k (decimal i) = nextKeepaliveJobId l (decimal j)) : k = l := by
  have horiginal := congrArg extractOriginalJobId h
  rw [extractOriginalJobId_next, extractOriginalJobId_next] at horiginal
  rw [← Option.some.inj horiginal] at h
  exact toDigits_injective (List.cons.inj (List.append_cancel_left h)).2

theorem toNat_saturatingAdd (a b : UInt32) :
    (saturatingAdd a b).toNat = min (a.toNat + b.toNat) (2 ^ 32 - 1) := by
  unfold saturatingAdd
  split
  · rename_i h
    rw [UInt32.toNat_add, Nat.mod_eq_of_lt h]
    omega
  · rename_i h
    have hmax : (0xFFFFFFFF : UInt32).toNat = 2 ^ 32 - 1 := rfl
    omega

theorem toNat_min (a b : UInt32) : (min a b).toNat = min a.toNat b.toNat := by
  have hmin : min a b = if a ≤ b then a else b := rfl
  rw [hmin]
  split
  · rename_i h
    have := UInt32.le_iff_toNat_le.mp h
    omega
  · rename_i h
    have := mt UInt32.le_iff_toNat_le.mpr h
    omega

/-- A place of a list with one more entry. -/
theorem getElem?_concat {α : Type*} {l : List α} {a x : α} {i : Nat} :
    (l ++ [a])[i]? = some x ↔ l[i]? = some x ∨ i = l.length ∧ x = a := by
  rcases Nat.lt_trichotomy i l.length with hlt | rfl | hgt
  · rw [List.getElem?_append_left hlt]
    constructor
    · exact .inl
    · intro h
      rcases h with h | ⟨heq, -⟩
      · exact h
      · omega
  · simp [eq_comm]
  · have hnone : (l ++ [a])[i]? = none := by
      rw [List.getElem?_eq_none_iff, List.length_append, List.length_singleton]
      omega
    have hnone' : l[i]? = none := List.getElem?_eq_none_iff.mpr (by omega)
    rw [hnone, hnone']
    constructor
    · nofun
    · intro h
      rcases h with h | ⟨heq, -⟩
      · cases h
      · omega

/-! ### Jobs in their lists -/

namespace Sv1Server

/-- The job at a place of the list under a key. -/
def jobAt (s : Sv1Server) (ch : ChannelId) (i : Nat) : Option Notify :=
  (s.stored ch)[i]?

theorem exists_jobAt {s : Sv1Server} {ch : ChannelId} {n : Notify} (h : n ∈ s.stored ch) :
    ∃ i, s.jobAt ch i = some n :=
  List.getElem?_of_mem h

/-- A job is put at the end of a list, which may have been cleared before. -/
structure Stores (s s' : Sv1Server) (ch : ChannelId) (jobs : List Notify) (m : Notify) : Prop where
  left : jobs <+: s.stored ch
  stored : s'.stored = update s.stored ch (jobs ++ [m])

variable {s s' : Sv1Server} {ch : ChannelId} {jobs : List Notify} {m : Notify}

/-- A job that is stored after it is an old one that was left, or the new one. -/
theorem Stores.cases (h : Stores s s' ch jobs m) {ch' : ChannelId} {i : Nat} {n : Notify}
    (hi : s'.jobAt ch' i = some n) :
    (s.jobAt ch' i = some n ∧ (ch' = ch → i < jobs.length)) ∨
      (ch' = ch ∧ i = jobs.length ∧ n = m) := by
  obtain ⟨rest, hrest⟩ := h.left
  rw [jobAt, h.stored] at hi
  by_cases hch : ch' = ch
  · subst hch
    rw [Function.update_self] at hi
    rcases getElem?_concat.mp hi with hold | ⟨heq, hn⟩
    · have hlt : i < jobs.length := (List.getElem?_eq_some_iff.mp hold).1
      refine .inl ⟨?_, fun _ => hlt⟩
      rw [jobAt, ← hrest, List.getElem?_append_left hlt, hold]
    · exact .inr ⟨rfl, heq, hn⟩
  · rw [Function.update_of_ne hch] at hi
    exact .inl ⟨hi, fun heq => absurd heq hch⟩

theorem Stores.kept (h : Stores s s' ch jobs m) {ch' : ChannelId} {i : Nat} {n : Notify}
    (hi : s.jobAt ch' i = some n) (hlt : ch' = ch → i < jobs.length) :
    s'.jobAt ch' i = some n := by
  obtain ⟨rest, hrest⟩ := h.left
  rw [jobAt] at hi ⊢
  rw [h.stored]
  by_cases hch : ch' = ch
  · subst hch
    rw [Function.update_self, List.getElem?_append_left (hlt rfl), ← hi, ← hrest,
      List.getElem?_append_left (hlt rfl)]
  · rwa [Function.update_of_ne hch]

/-- A job that was left, where it was. -/
theorem Stores.jobAt_left (h : Stores s s' ch jobs m) {n : Notify} (hn : n ∈ jobs) :
    ∃ i < jobs.length, s.jobAt ch i = some n := by
  obtain ⟨rest, hrest⟩ := h.left
  obtain ⟨i, hlt, hi⟩ := List.getElem_of_mem hn
  refine ⟨i, hlt, ?_⟩
  rw [jobAt, ← hrest, List.getElem?_append_left hlt]
  exact List.getElem?_eq_some_iff.mpr ⟨hlt, hi⟩

theorem Stores.mem_left (h : Stores s s' ch jobs m) {i : Nat} {n : Notify}
    (hi : s.jobAt ch i = some n) (hlt : i < jobs.length) : n ∈ jobs := by
  obtain ⟨rest, hrest⟩ := h.left
  rw [jobAt, ← hrest, List.getElem?_append_left hlt] at hi
  exact List.mem_of_getElem? hi

end Sv1Server

/-! ### Derivations -/

/-- `n` is a keepalive of the upstream job `o`. -/
structure KeepaliveOf (o n : Notify) : Prop where
  upstream : ∃ id : UInt32, o.jobId = decimal id
  numbered : ∃ k, n.jobId = nextKeepaliveJobId k o.jobId
  same : n = { o with jobId := n.jobId, time := n.time }

/-- The time of a keepalive is later than the one of its job, by two hours at most. -/
structure InTime (o n : Notify) : Prop where
  later : o.time.toNat < n.time.toNat
  capped : n.time.toNat ≤ o.time.toNat + maxFutureBlockTime.toNat

theorem KeepaliveOf.isKeepalive {o n : Notify} (h : KeepaliveOf o n) :
    isKeepaliveJobId o.jobId = false ∧ isKeepaliveJobId n.jobId = true := by
  obtain ⟨id, hid⟩ := h.upstream
  obtain ⟨k, hk⟩ := h.numbered
  exact ⟨by rw [hid, isKeepaliveJobId_decimal], by rw [hk, isKeepaliveJobId_next]⟩

theorem KeepaliveOf.original {o n : Notify} (h : KeepaliveOf o n) :
    (extractOriginalJobId n.jobId).getD n.jobId = o.jobId := by
  obtain ⟨id, hid⟩ := h.upstream
  obtain ⟨k, hk⟩ := h.numbered
  rw [hk, hid, extractOriginalJobId_next]
  rfl

/-- The stored jobs of all channels, `made` keepalives having been made. -/
structure Derivations (s : Sv1Server) (made : Nat) : Prop where
  upstream : ∀ ch i n, s.jobAt ch i = some n → isKeepaliveJobId n.jobId = false →
    ∃ id : UInt32, n.jobId = decimal id
  /-- The job of a keepalive is before it in its list. -/
  original : ∀ ch i n, s.jobAt ch i = some n → isKeepaliveJobId n.jobId = true →
    ∃ j < i, ∃ o, s.jobAt ch j = some o ∧ KeepaliveOf o n
  numbered : ∀ ch i n, s.jobAt ch i = some n → isKeepaliveJobId n.jobId = true →
    ∃ k < made, ∃ id : UInt32, n.jobId = nextKeepaliveJobId k (decimal id)
  /-- No other stored job has the id of a keepalive. -/
  unique : ∀ ch i n ch' i' x, s.jobAt ch i = some n → s.jobAt ch' i' = some x →
    isKeepaliveJobId n.jobId = true → x.jobId = n.jobId → ch' = ch ∧ i' = i
  counter : s.keepaliveJobIdCounter.toNat = made % 2 ^ 32

namespace Derivations

variable {s s' : Sv1Server} {made made' : Nat}

theorem initial (mode : TproxyMode) (interval : UInt16) :
    Derivations (.initial mode interval) 0 where
  upstream _ _ _ h := by cases h
  original _ _ _ h := by cases h
  numbered _ _ _ h := by cases h
  unique _ _ _ _ _ _ h := by cases h
  counter := rfl

theorem of_same (h : Derivations s made) (hstored : s'.stored = s.stored)
    (hcounter : s'.keepaliveJobIdCounter = s.keepaliveJobIdCounter) : Derivations s' made := by
  have hat : s'.jobAt = s.jobAt := by
    funext ch i
    rw [jobAt, jobAt, hstored]
  obtain ⟨hupstream, horiginal, hnumbered, hunique, hmade⟩ := h
  rw [← hat] at hupstream horiginal hnumbered hunique
  rw [← hcounter] at hmade
  exact ⟨hupstream, horiginal, hnumbered, hunique, hmade⟩

/-- A job may be put at the end of a list. -/
structure Admits (jobs : List Notify) (made : Nat) (m : Notify) : Prop where
  upstream : isKeepaliveJobId m.jobId = false → ∃ id : UInt32, m.jobId = decimal id
  original : isKeepaliveJobId m.jobId = true → ∃ o ∈ jobs, KeepaliveOf o m
  numbered : isKeepaliveJobId m.jobId = true → ∃ id : UInt32,
    m.jobId = nextKeepaliveJobId made (decimal id)

theorem store (h : Derivations s made) {ch : ChannelId} {jobs : List Notify} {m : Notify}
    (hs : Stores s s' ch jobs m) (hm : Admits jobs made m) (hmade : made ≤ made')
    (hnew : isKeepaliveJobId m.jobId = true → made < made')
    (hcounter : s'.keepaliveJobIdCounter.toNat = made' % 2 ^ 32) : Derivations s' made' := by
  -- the number of a new keepalive has not been given before
  have hfresh : ∀ ch' i n, s.jobAt ch' i = some n → isKeepaliveJobId m.jobId = true →
      n.jobId ≠ m.jobId := by
    intro ch' i n hi hkeep hid
    obtain ⟨id, hid'⟩ := hm.numbered hkeep
    obtain ⟨k, hk, id', hn⟩ := h.numbered ch' i n hi (by rwa [hid])
    have : k = made := nextKeepaliveJobId_inj (hn.symm.trans (hid.trans hid'))
    omega
  refine ⟨fun ch' i n hi hup => ?_, fun ch' i n hi hkeep => ?_, fun ch' i n hi hkeep => ?_,
    fun ch₁ i n ch₂ j x hi hj hkeep hid => ?_, hcounter⟩
  · rcases hs.cases hi with ⟨hi, -⟩ | ⟨-, -, rfl⟩
    · exact h.upstream ch' i n hi hup
    · exact hm.upstream hup
  · rcases hs.cases hi with ⟨hi, hlt⟩ | ⟨rfl, rfl, rfl⟩
    · obtain ⟨j, hj, o, ho, hof⟩ := h.original ch' i n hi hkeep
      exact ⟨j, hj, o, hs.kept ho fun heq => hj.trans (hlt heq), hof⟩
    · obtain ⟨o, ho, hof⟩ := hm.original hkeep
      obtain ⟨j, hj, hjo⟩ := hs.jobAt_left ho
      exact ⟨j, hj, o, hs.kept hjo fun _ => hj, hof⟩
  · rcases hs.cases hi with ⟨hi, -⟩ | ⟨-, -, rfl⟩
    · obtain ⟨k, hk, hn⟩ := h.numbered ch' i n hi hkeep
      exact ⟨k, hk.trans_le hmade, hn⟩
    · exact ⟨made, hnew hkeep, hm.numbered hkeep⟩
  · rcases hs.cases hi with ⟨hi, -⟩ | ⟨rfl, rfl, rfl⟩
    · rcases hs.cases hj with ⟨hj, -⟩ | ⟨rfl, rfl, rfl⟩
      · exact h.unique ch₁ i n ch₂ j x hi hj hkeep hid
      · exact absurd hid.symm (hfresh ch₁ i n hi (by rwa [hid]))
    · rcases hs.cases hj with ⟨hj, -⟩ | ⟨rfl, rfl, -⟩
      · exact absurd hid (hfresh ch₂ j x hj hkeep)
      · exact ⟨rfl, rfl⟩

end Derivations

/-- No job shares the id of a different one, and the keepalives are in time. -/
structure Timed (s : Sv1Server) : Prop where
  sameId : ∀ ch i n j x, s.jobAt ch i = some n → s.jobAt ch j = some x →
    isKeepaliveJobId n.jobId = false → x.jobId = n.jobId → x = n
  times : ∀ ch i n j o, s.jobAt ch i = some n → s.jobAt ch j = some o → KeepaliveOf o n →
    InTime o n

namespace Timed

variable {s s' : Sv1Server} {made : Nat}

theorem initial (mode : TproxyMode) (interval : UInt16) : Timed (.initial mode interval) where
  sameId _ _ _ _ _ h := by cases h
  times _ _ _ _ _ h := by cases h

theorem of_same (h : Timed s) (hstored : s'.stored = s.stored) : Timed s' := by
  have hat : s'.jobAt = s.jobAt := by
    funext ch i
    rw [jobAt, jobAt, hstored]
  obtain ⟨hsame, htimes⟩ := h
  rw [← hat] at hsame htimes
  exact ⟨hsame, htimes⟩

theorem store (h : Timed s) (hd : Derivations s made) {ch : ChannelId} {jobs : List Notify}
    {m : Notify} (hs : Stores s s' ch jobs m)
    (hsame : isKeepaliveJobId m.jobId = false → ∀ x ∈ jobs, x.jobId = m.jobId → x = m)
    (htimes : ∀ o ∈ jobs, KeepaliveOf o m → InTime o m) : Timed s' := by
  refine ⟨fun ch' i n j x hi hj hup hid => ?_, fun ch' i n j o hi hj hof => ?_⟩
  · rcases hs.cases hi with ⟨hi, hlt⟩ | ⟨rfl, rfl, rfl⟩
    · rcases hs.cases hj with ⟨hj, -⟩ | ⟨rfl, rfl, rfl⟩
      · exact h.sameId ch' i n j x hi hj hup hid
      · exact (hsame (by rwa [hid]) n (hs.mem_left hi (hlt rfl)) hid.symm).symm
    · rcases hs.cases hj with ⟨hj, hlt⟩ | ⟨-, -, rfl⟩
      · exact hsame hup x (hs.mem_left hj (hlt rfl)) hid
      · rfl
  · rcases hs.cases hi with ⟨hi, hlt⟩ | ⟨rfl, rfl, rfl⟩
    · rcases hs.cases hj with ⟨hj, -⟩ | ⟨rfl, rfl, rfl⟩
      · exact h.times ch' i n j o hi hj hof
      · -- the new job is the one the keepalive was made from, once more
        obtain ⟨j, hj, o', ho', hof'⟩ := hd.original ch' i n hi hof.isKeepalive.2
        have hid : o'.jobId = o.jobId := hof'.original.symm.trans hof.original
        obtain rfl := hsame hof.isKeepalive.1 o' (hs.mem_left ho' (hj.trans (hlt rfl))) hid
        exact h.times ch' i n j o' hi ho' hof
    · rcases hs.cases hj with ⟨hj, hlt⟩ | ⟨-, -, rfl⟩
      · exact htimes o (hs.mem_left hj (hlt rfl)) hof
      · have hboth := hof.isKeepalive
        rw [hboth.1] at hboth
        cases hboth.2

end Timed

/-! ### What the steps store -/

namespace Sv1Server

variable {lib : Sv1Lib} {s : Sv1Server}

theorem sendKeepalive_frame (s : Sv1Server) (now : Nat) (d : DownstreamId) (notify : Notify) :
    (s.sendKeepalive now d notify).stored = s.stored ∧
      (s.sendKeepalive now d notify).keepaliveJobIdCounter = s.keepaliveJobIdCounter := by
  unfold sendKeepalive
  split
  · split <;> exact ⟨rfl, rfl⟩
  · exact ⟨rfl, rfl⟩

/-- The last stored job is not the last any more. -/
theorem stored_storeKeepalive {channelId : Option ChannelId} {ch : ChannelId} {notify : Notify}
    (hch : s.lookupChannel channelId = some ch) (hne : s.stored ch ≠ []) :
    (s.storeKeepalive channelId notify).stored = update s.stored ch (s.stored ch ++ [notify]) := by
  unfold storeKeepalive
  rw [hch]
  funext ch'
  cases hjobs : s.validSv1Jobs ch with
  | none => exact absurd (by rw [stored, hjobs]; rfl) hne
  | some jobs =>
      by_cases heq : ch' = ch
      · simp [stored, heq, hjobs]
      · simp [stored, heq]

theorem getLastJob_eq_some {channelId : Option ChannelId} {n : Notify} :
    s.getLastJob channelId = some n ↔
      ∃ ch, s.lookupChannel channelId = some ch ∧ (s.stored ch).getLast? = some n := by
  simp only [getLastJob, Option.bind_eq_bind, Option.bind_eq_some_iff]
  refine exists_congr fun ch => and_congr_right fun _ => ?_
  cases hjobs : s.validSv1Jobs ch with
  | none => simp [stored, hjobs]
  | some jobs => simp [stored, hjobs]

theorem getOriginalJob_eq {channelId : Option ChannelId} {ch : ChannelId}
    (hch : s.lookupChannel channelId = some ch) (j : JobId) :
    s.getOriginalJob j channelId = (s.stored ch).find? (·.jobId = j) := by
  cases hjobs : s.validSv1Jobs ch with
  | none => simp [getOriginalJob, hch, stored, hjobs]
  | some jobs => simp [getOriginalJob, hch, stored, hjobs]

/-- The keepalive of `lastJob`. -/
def keepaliveNotify (s : Sv1Server) (channelId : Option ChannelId) (lastJob : Notify) : Notify :=
  { lastJob with
    jobId := nextKeepaliveJobId s.keepaliveJobIdCounter.toNat
      ((extractOriginalJobId lastJob.jobId).getD lastJob.jobId)
    time := s.keepaliveTime channelId lastJob }

/-- A target leaves the server as it is, or the keepalive of the last job is stored. -/
theorem keepaliveTarget_cases (s : Sv1Server) (now : Nat) (d : DownstreamId)
    (channelId : Option ChannelId) :
    s.keepaliveTarget now d channelId = s ∨
      ∃ ch lastJob, s.lookupChannel channelId = some ch ∧
        (s.stored ch).getLast? = some lastJob ∧ s.keepaliveTime channelId lastJob ≠ lastJob.time ∧
        Stores s (s.keepaliveTarget now d channelId) ch (s.stored ch)
          (s.keepaliveNotify channelId lastJob) ∧
        (s.keepaliveTarget now d channelId).keepaliveJobIdCounter =
          s.keepaliveJobIdCounter + 1 := by
  unfold keepaliveTarget
  cases hlast : s.getLastJob channelId with
  | none => exact .inl rfl
  | some lastJob =>
      dsimp only
      split
      · exact .inl rfl
      · rename_i htime
        obtain ⟨ch, hch, hlast'⟩ := getLastJob_eq_some.mp hlast
        have hne : s.stored ch ≠ [] := fun hnil => by
          rw [hnil] at hlast'
          cases hlast'
        refine .inr ⟨ch, lastJob, hch, hlast', htime, ⟨List.prefix_rfl, ?_⟩, ?_⟩
        · rw [(sendKeepalive_frame _ now d _).1]
          exact stored_storeKeepalive
            (s := { s with keepaliveJobIdCounter := s.keepaliveJobIdCounter + 1 }) hch hne
        · rw [(sendKeepalive_frame _ now d _).2]
          unfold storeKeepalive
          split <;> rfl

theorem counter_newExtendedMiningJob (s : Sv1Server) (lib : Sv1Lib) (m : NewExtendedMiningJob) :
    (s.handleNewExtendedMiningJob lib m).keepaliveJobIdCounter = s.keepaliveJobIdCounter := by
  cases hn : s.jobNotify lib m with
  | none => rw [handleNewExtendedMiningJob_of_none hn]
  | some n =>
      rw [handleNewExtendedMiningJob_of_some hn]
      unfold sendToChannel
      split
      · rfl
      · split <;> rfl

/-- The list that a job is put into, cleared if the job names the one of its prev-hash. -/
theorem stores_newExtendedMiningJob {m : NewExtendedMiningJob} {n : Notify}
    (hn : s.jobNotify lib m = some n) :
    Stores s (s.handleNewExtendedMiningJob lib m) (s.jobChannel m.channelId)
      (if s.isCleanJob m then [] else s.stored (s.jobChannel m.channelId)) n where
  left := by
    split
    · exact List.nil_prefix
    · exact List.prefix_rfl
  stored := stored_newExtendedMiningJob hn

/-- An upstream job has a number for its id. -/
theorem jobNotify_isKeepalive (hl : lib.Lawful) {m : NewExtendedMiningJob} {n : Notify}
    (hn : s.jobNotify lib m = some n) :
    n.jobId = decimal m.jobId ∧ isKeepaliveJobId n.jobId = false := by
  obtain ⟨prevHash, -, hbuild⟩ := Option.bind_eq_some_iff.mp hn
  have hid : n.jobId = decimal m.jobId := hl.notify_jobId hbuild
  exact ⟨hid, by rw [hid, isKeepaliveJobId_decimal]⟩

/-- The jobs and the numbers after the events that are neither a job nor a keepalive. -/
theorem step_frame (lib : Sv1Lib) (s : Sv1Server) (e : Event)
    (hjob : ∀ m, e ≠ .newExtendedMiningJob m) (hkeepalive : ∀ now d, e ≠ .keepalive now d) :
    (s.step lib e).stored = s.stored ∧
      (s.step lib e).keepaliveJobIdCounter = s.keepaliveJobIdCounter := by
  cases e with
  | newExtendedMiningJob m => exact absurd rfl (hjob m)
  | keepalive now d => exact absurd rfl (hkeepalive now d)
  | connect d target =>
      refine ⟨(sameJobs_connect s d target).stored, ?_⟩
      simp only [step, connect]
      split <;> rfl
  | disconnect d => exact ⟨rfl, rfl⟩
  | openChannelRequest d => exact ⟨rfl, rfl⟩
  | openSuccess firstTarget m =>
      refine ⟨(sameJobs_openSuccess s firstTarget m).stored, ?_⟩
      simp only [step, handleOpenExtendedMiningChannelSuccess]
      split
      · rfl
      · split <;> rfl
  | setNewPrevHash m => exact ⟨rfl, rfl⟩
  | pendingTarget d target =>
      simp only [step, setPendingTarget]
      split <;> exact ⟨rfl, rfl⟩
  | deliver now d =>
      refine ⟨(sameJobs_deliver s now d).stored, ?_⟩
      simp only [step, deliver]
      split <;> rfl
  | configure d mask minBit =>
      refine ⟨(sameJobs_configure s d mask minBit).stored, ?_⟩
      simp only [step, handleConfigure]
      split <;> rfl
  | authorize now d name =>
      refine ⟨(sameJobs_authorize s now d name).stored, ?_⟩
      simp only [step, handleAuthorize]
      split <;> rfl
  | submit d request =>
      refine ⟨(sameJobs_submit s lib d request).stored, ?_⟩
      simp only [step, handleSubmit]
      split
      · rfl
      · split
        · rfl
        · split
          · rfl
          · split <;> rfl
  | flush d =>
      refine ⟨(sameJobs_flush s lib d).stored, ?_⟩
      simp only [step, flushPending]
      split
      · rfl
      · split
        · rfl
        · unfold handleSubmitShares
          split
          · rfl
          · dsimp only
            split
            · rfl
            · split
              · rfl
              · split
                · rfl
                · split <;> rfl

end Sv1Server

/-! ### Keepalives of the last job -/

section Last

variable {s : Sv1Server} {made : Nat} {channelId : Option ChannelId} {ch : ChannelId}
  {lastJob : Notify}

theorem jobAt_last (hlast : (s.stored ch).getLast? = some lastJob) :
    s.jobAt ch ((s.stored ch).length - 1) = some lastJob := by
  rw [jobAt, ← List.getLast?_eq_getElem?, hlast]

/-- The last job of a list goes back to an upstream job of the list: it is that job, or a keepalive
of it. -/
theorem Derivations.last_original (h : Derivations s made)
    (hlast : (s.stored ch).getLast? = some lastJob) :
    ∃ o ∈ s.stored ch, (∃ id : UInt32, o.jobId = decimal id) ∧
      (extractOriginalJobId lastJob.jobId).getD lastJob.jobId = o.jobId ∧
      (lastJob = o ∨ KeepaliveOf o lastJob) := by
  have hmem : lastJob ∈ s.stored ch := List.mem_of_getLast? hlast
  cases hkeep : isKeepaliveJobId lastJob.jobId with
  | false =>
      refine ⟨lastJob, hmem, h.upstream ch _ lastJob (jobAt_last hlast) hkeep, ?_, .inl rfl⟩
      rw [extractOriginalJobId, hkeep]
      rfl
  | true =>
      obtain ⟨j, -, o, ho, hof⟩ := h.original ch _ lastJob (jobAt_last hlast) hkeep
      exact ⟨o, List.mem_of_getElem? ho, hof.upstream, hof.original, .inr hof⟩

/-- A keepalive of the last job may be stored. -/
theorem Derivations.admits_keepalive (h : Derivations s made) (hmade : made < 2 ^ 32)
    (hlast : (s.stored ch).getLast? = some lastJob) :
    Admits (s.stored ch) made (s.keepaliveNotify channelId lastJob) := by
  obtain ⟨o, ho, ⟨id, hid⟩, hextract, hof⟩ := h.last_original hlast
  have hnext : (s.keepaliveNotify channelId lastJob).jobId = nextKeepaliveJobId made o.jobId := by
    simp only [keepaliveNotify, hextract, h.counter, Nat.mod_eq_of_lt hmade]
  refine ⟨fun hup => ?_, fun _ => ⟨o, ho, ⟨id, hid⟩, ⟨made, hnext⟩, ?_⟩,
    fun _ => ⟨id, by rw [hnext, hid]⟩⟩
  · rw [hnext, isKeepaliveJobId_next] at hup
    cases hup
  · rcases hof with rfl | hof
    · rfl
    · rw [keepaliveNotify, hof.same]

/-- The cap is counted from the original of the last job, and the new time is not the last one. -/
theorem Timed.keepalive_inTime (ht : Timed s) (h : Derivations s made)
    (hch : s.lookupChannel channelId = some ch)
    (hlast : (s.stored ch).getLast? = some lastJob)
    (htime : s.keepaliveTime channelId lastJob ≠ lastJob.time) {o : Notify}
    (ho : o ∈ s.stored ch) (hof : KeepaliveOf o (s.keepaliveNotify channelId lastJob)) :
    InTime o (s.keepaliveNotify channelId lastJob) := by
  obtain ⟨i, hi⟩ := exists_jobAt ho
  obtain ⟨o', ho', ⟨id, hid⟩, hextract, hlastOf⟩ := h.last_original hlast
  obtain ⟨j, hj⟩ := exists_jobAt ho'
  have hup : isKeepaliveJobId o'.jobId = false := by rw [hid, isKeepaliveJobId_decimal]
  -- both have the id before the delimiter
  obtain rfl : o = o' := by
    refine ht.sameId ch j o' i o hj hi hup ?_
    rw [← hof.original, keepaliveNotify, hextract, hid, extractOriginalJobId_next]
    rfl
  have hfound : s.getOriginalJob o.jobId channelId = some o := by
    rw [getOriginalJob_eq hch]
    cases hfind : (s.stored ch).find? (·.jobId = o.jobId) with
    | none => exact absurd (List.find?_eq_none.mp hfind o ho) (by simp)
    | some x =>
        obtain ⟨k, hk⟩ := exists_jobAt (List.mem_of_find?_eq_some hfind)
        rw [ht.sameId ch i o k x hi hk hup (by simpa using List.find?_some hfind)]
  have hbounds : o.time.toNat ≤ lastJob.time.toNat ∧
      lastJob.time.toNat ≤ o.time.toNat + maxFutureBlockTime.toNat := by
    rcases hlastOf with rfl | hlastOf
    · exact ⟨le_rfl, Nat.le_add_right _ _⟩
    · have hin := ht.times ch _ lastJob i o (jobAt_last hlast) hi hlastOf
      exact ⟨hin.later.le, hin.capped⟩
  have hnew : (s.keepaliveTime channelId lastJob).toNat =
      min (min (lastJob.time.toNat + s.keepaliveIntervalSecs.toUInt32.toNat) (2 ^ 32 - 1))
        (min (o.time.toNat + maxFutureBlockTime.toNat) (2 ^ 32 - 1)) := by
    simp only [keepaliveTime, hextract, hfound, Option.map_some, Option.getD_some, toNat_min,
      toNat_saturatingAdd]
  have hne : (s.keepaliveTime channelId lastJob).toNat ≠ lastJob.time.toNat := fun heq =>
    htime (UInt32.toNat_inj.mp heq)
  have hlt := lastJob.time.toNat_lt
  constructor
  · show o.time.toNat < (s.keepaliveTime channelId lastJob).toNat
    omega
  · show (s.keepaliveTime channelId lastJob).toNat ≤ _
    omega

end Last

/-! ### Steps of the server -/

section Steps

variable {lib : Sv1Lib} {s : Sv1Server} {made : Nat}

theorem Derivations.keepaliveTarget (h : Derivations s made) (hmade : made < 2 ^ 32) (now : Nat)
    (d : DownstreamId) (channelId : Option ChannelId) :
    Derivations (s.keepaliveTarget now d channelId)
      (made + madeBy s (s.keepaliveTarget now d channelId)) := by
  rcases s.keepaliveTarget_cases now d channelId with heq | hcases
  · rw [heq, madeBy, if_pos rfl]
    exact h
  · obtain ⟨ch, lastJob, hch, hlast, -, hstores, hcounter⟩ := hcases
    have hne : (s.keepaliveTarget now d channelId).keepaliveJobIdCounter ≠
        s.keepaliveJobIdCounter := by
      rw [hcounter]
      simp
    rw [madeBy, if_neg hne]
    refine h.store hstores (h.admits_keepalive hmade hlast) (Nat.le_succ _)
      (fun _ => Nat.lt_succ_self _) ?_
    rw [hcounter, UInt32.toNat_add, h.counter]
    simp

theorem Timed.keepaliveTarget (ht : Timed s) (h : Derivations s made) (now : Nat)
    (d : DownstreamId) (channelId : Option ChannelId) :
    Timed (s.keepaliveTarget now d channelId) := by
  rcases s.keepaliveTarget_cases now d channelId with heq | hcases
  · rw [heq]
    exact ht
  · obtain ⟨ch, lastJob, hch, hlast, htime, hstores, -⟩ := hcases
    refine ht.store h hstores (fun hup => ?_) fun o ho hof =>
      ht.keepalive_inTime h hch hlast htime ho hof
    rw [keepaliveNotify, isKeepaliveJobId_next] at hup
    cases hup

theorem Derivations.newExtendedMiningJob (hl : lib.Lawful) (h : Derivations s made)
    (m : NewExtendedMiningJob) : Derivations (s.handleNewExtendedMiningJob lib m) made := by
  cases hn : s.jobNotify lib m with
  | none =>
      rw [handleNewExtendedMiningJob_of_none hn]
      exact h
  | some n =>
      obtain ⟨hid, hup⟩ := jobNotify_isKeepalive hl hn
      have hnever : isKeepaliveJobId n.jobId ≠ true := by simp [hup]
      refine h.store (stores_newExtendedMiningJob hn) ⟨fun _ => ⟨_, hid⟩, ?_, ?_⟩ le_rfl ?_
        (by rw [counter_newExtendedMiningJob, h.counter])
      · exact fun hkeep => absurd hkeep hnever
      · exact fun hkeep => absurd hkeep hnever
      · exact fun hkeep => absurd hkeep hnever

theorem Timed.newExtendedMiningJob (hl : lib.Lawful) (ht : Timed s) (h : Derivations s made)
    (m : NewExtendedMiningJob)
    (hids : ∀ n ∈ s.jobNotify lib m, s.isCleanJob m = false →
      ∀ x ∈ s.stored (s.jobChannel m.channelId), x.jobId = n.jobId → x = n) :
    Timed (s.handleNewExtendedMiningJob lib m) := by
  cases hn : s.jobNotify lib m with
  | none =>
      rw [handleNewExtendedMiningJob_of_none hn]
      exact ht
  | some n =>
      obtain ⟨-, hup⟩ := jobNotify_isKeepalive hl hn
      refine ht.store h (stores_newExtendedMiningJob hn) (fun _ x hx hid => ?_) fun o _ hof => ?_
      · split at hx
        · cases hx
        · rename_i hclean
          exact hids n hn (by simpa using hclean) x hx hid
      · rw [hof.isKeepalive.2] at hup
        cases hup

theorem Derivations.keepalive (h : Derivations s made) (hmade : made < 2 ^ 32) (now : Nat)
    (d : DownstreamId) :
    Derivations (s.keepalive now d) (made + madeBy s (s.keepalive now d)) := by
  rw [keepalive_eq_target]
  split
  · rw [madeBy, if_pos rfl]
    exact h
  · exact h.keepaliveTarget hmade now _ _

theorem Timed.keepalive (ht : Timed s) (h : Derivations s made) (now : Nat) (d : DownstreamId) :
    Timed (s.keepalive now d) := by
  rw [keepalive_eq_target]
  split
  · exact ht
  · exact ht.keepaliveTarget h now _ _

theorem Derivations.step (hl : lib.Lawful) (h : Derivations s made) (hmade : made < 2 ^ 32)
    (e : Sv1Server.Event) :
    Derivations (s.step lib e) (made + madeBy s (s.step lib e)) := by
  have hframe := s.step_frame lib e
  cases e with
  | newExtendedMiningJob m =>
      have hcounter : (s.step lib (.newExtendedMiningJob m)).keepaliveJobIdCounter =
          s.keepaliveJobIdCounter := counter_newExtendedMiningJob s lib m
      rw [madeBy, if_pos hcounter]
      exact h.newExtendedMiningJob hl m
  | keepalive now d => exact h.keepalive hmade now d
  | _ =>
      obtain ⟨hstored, hcounter⟩ := hframe nofun nofun
      rw [madeBy, if_pos hcounter]
      exact h.of_same hstored hcounter

/-- A job that joins a list does not have the id of another job in it. -/
def Sv1Server.SameIds (lib : Sv1Lib) (s : Sv1Server) : Event → Prop
  | .newExtendedMiningJob m => ∀ n ∈ s.jobNotify lib m, s.isCleanJob m = false →
      ∀ x ∈ s.stored (s.jobChannel m.channelId), x.jobId = n.jobId → x = n
  | _ => True

instance (lib : Sv1Lib) (s : Sv1Server) : ∀ e, Decidable (s.SameIds lib e)
  | .newExtendedMiningJob m =>
      inferInstanceAs (Decidable (∀ n ∈ s.jobNotify lib m, _ → ∀ x ∈ _, _ → x = n))
  | .connect _ _ | .disconnect _ | .openChannelRequest _ | .openSuccess _ _ | .setNewPrevHash _
  | .pendingTarget _ _ | .keepalive _ _ | .deliver _ _ | .configure _ _ _ | .authorize _ _ _
  | .submit _ _ | .flush _ => isTrue trivial

theorem Timed.step (hl : lib.Lawful) (ht : Timed s) (h : Derivations s made) {e : Sv1Server.Event}
    (hids : s.SameIds lib e) : Timed (s.step lib e) := by
  have hframe := s.step_frame lib e
  cases e with
  | newExtendedMiningJob m => exact ht.newExtendedMiningJob hl h m hids
  | keepalive now d => exact ht.keepalive h now d
  | _ => exact ht.of_same (hframe nofun nofun).1

end Steps

/-! ### Shares -/

/-- A keepalive is a stored job like any other. -/
theorem Inv.keepaliveTarget {lib : Sv1Lib} {s : Sv1Server} (h : Inv lib s) (now : Nat)
    (d : DownstreamId) (channelId : Option ChannelId) :
    Inv lib (s.keepaliveTarget now d channelId) := by
  have hsend : ∀ (s : Sv1Server) n, Inv lib s → Inv lib (s.sendKeepalive now d n) := by
    intro s n h
    unfold sendKeepalive
    split
    · split
      · exact h.enqueue d _
      · rename_i data hdata
        exact (h.enqueue d _).setData d ((h.pending d data hdata).congr rfl rfl)
    · exact h
  unfold Sv1Server.keepaliveTarget
  split
  · exact h
  · rename_i lastJob hlast
    dsimp only
    split
    · exact h
    · refine hsend _ _ ?_
      have hcount : Inv lib { s with keepaliveJobIdCounter := s.keepaliveJobIdCounter + 1 } :=
        h.frame rfl rfl rfl rfl
      have hderived := (getLastJob_derived h hlast).keepalive s.keepaliveJobIdCounter.toNat
        (s.keepaliveTime channelId lastJob)
      unfold storeKeepalive
      split
      · exact hcount
      · rename_i ch _
        refine hcount.setJobs ch fun jobs hjobs n hn => ?_
        obtain ⟨old, hold, rfl⟩ := Option.map_eq_some_iff.mp hjobs
        rcases List.mem_append.mp hn with hn | hn
        · exact h.jobs ch old hold n hn
        · rw [List.mem_singleton.mp hn]
          exact hderived

namespace Rounds

variable {lib : Sv1Lib}

/-! ### Runs

The counter of the server has 32 bits, so the numbers of the keepalives are counted beside it. -/

/-- The jobs that arrive do not use an id again. -/
def SameIds (lib : Sv1Lib) (r : Rounds) : Event → Prop
  | .server e => r.server.SameIds lib e
  | _ => True

instance (lib : Sv1Lib) (r : Rounds) : ∀ e, Decidable (r.SameIds lib e)
  | .server e => inferInstanceAs (Decidable (r.server.SameIds lib e))
  | .collect _ _ | .target _ => isTrue trivial

theorem made_le_step (lib : Sv1Lib) (r : Rounds) (e : Event) : r.made ≤ (r.step lib e).made := by
  cases e with
  | server e => exact Nat.le_add_right _ _
  | collect now downstreams =>
      unfold step
      dsimp only
      split <;> exact le_rfl
  | target now =>
      unfold step
      dsimp only
      split
      · exact le_rfl
      · exact Nat.le_add_right _ _

/-- The invariant of every run, as long as the numbers have not been used up. -/
def Derived (r : Rounds) : Prop :=
  r.made < 2 ^ 32 → Derivations r.server r.made

/-- The invariant of a run whose jobs do not use an id again. -/
def DerivedInTime (r : Rounds) : Prop :=
  r.made < 2 ^ 32 → Derivations r.server r.made ∧ Timed r.server

theorem derived_step (hl : lib.Lawful) {r : Rounds} (h : r.Derived) (e : Event) :
    (r.step lib e).Derived := by
  intro hmade
  have hmade' : r.made < 2 ^ 32 := (made_le_step lib r e).trans_lt hmade
  have h := h hmade'
  cases e with
  | server e => exact h.step hl hmade' e
  | collect now downstreams =>
      unfold step
      dsimp only
      split <;> exact h
  | target now =>
      unfold step
      dsimp only
      split
      · exact h
      · exact h.keepaliveTarget hmade' now _ _

theorem inTime_step (hl : lib.Lawful) {r : Rounds} {e : Event} (h : r.DerivedInTime)
    (hids : r.SameIds lib e) : (r.step lib e).DerivedInTime := by
  intro hmade
  have hmade' : r.made < 2 ^ 32 := (made_le_step lib r e).trans_lt hmade
  obtain ⟨hd, ht⟩ := h hmade'
  refine ⟨derived_step hl (fun _ => hd) e hmade, ?_⟩
  cases e with
  | server e => exact ht.step hl hd hids
  | collect now downstreams =>
      unfold step
      dsimp only
      split <;> exact ht
  | target now =>
      unfold step
      dsimp only
      split
      · exact ht
      · exact ht.keepaliveTarget hd now _ _

theorem inv_step (hl : lib.Lawful) {r : Rounds} (h : Inv lib r.server) (e : Event) :
    Inv lib (r.step lib e).server := by
  cases e with
  | server e => exact Translator.inv_step hl h e
  | collect now downstreams =>
      unfold step
      dsimp only
      split <;> exact h
  | target now =>
      unfold step
      dsimp only
      split
      · exact h
      · exact h.keepaliveTarget now _ _

end Rounds

/-- What holds of the keepalives of a server, and of the shares accepted for them. -/
structure RightKeepalives (s : Sv1Server) : Prop where
  original : ∀ ch i n, s.jobAt ch i = some n → isKeepaliveJobId n.jobId = true →
    ∃ j < i, ∃ o, s.jobAt ch j = some o ∧ KeepaliveOf o n
  unique : ∀ ch i n ch' i' x, s.jobAt ch i = some n → s.jobAt ch' i' = some x →
    isKeepaliveJobId n.jobId = true → x.jobId = n.jobId → ch' = ch ∧ i' = i
  /-- A share that waits to be submitted is going to be submitted under the id of the original. -/
  pending : ∀ d data p c, s.downstreams d = some data → data.pendingShare = some p →
    data.accepted = some c → ∀ k (id : UInt32), c.job.jobId = nextKeepaliveJobId k (decimal id) →
      upstreamJobId p.share.jobId = decimal id
  submitted : ∀ x ∈ s.sent, ∃ c, x.check = some c ∧
    ∀ k (id : UInt32), c.job.jobId = nextKeepaliveJobId k (decimal id) → x.msg.jobId = id

/-- Every keepalive is later than its job, by two hours at most. -/
def KeepalivesInTime (s : Sv1Server) : Prop :=
  ∀ ch i n j o, s.jobAt ch i = some n → s.jobAt ch j = some o → KeepaliveOf o n → InTime o n

theorem Derivations.right {lib : Sv1Lib} {s : Sv1Server} {made : Nat} (h : Derivations s made)
    (hl : lib.Lawful) (hinv : Inv lib s) : RightKeepalives s where
  original := h.original
  unique := h.unique
  pending d data p c hd hp hc k id hid := by
    obtain ⟨c', hc', hchecked⟩ := hinv.pending d data hd p hp
    obtain rfl := Option.some.inj (hc.symm.trans hc')
    rw [hchecked.share, hchecked.named]
    exact upstreamJobId_of_namesJob (.inr ⟨k, hid⟩)
  submitted x hx := by
    obtain ⟨c, v, hc, hbuilt⟩ := hinv.sent x hx
    refine ⟨c, hc, fun k id hid => ?_⟩
    obtain ⟨ch, seq, hmsg⟩ := hbuilt.built
    refine hl.submit_jobId hmsg ?_
    show upstreamJobId c.share.jobId = decimal id
    rw [hbuilt.named]
    exact upstreamJobId_of_namesJob (.inr ⟨k, hid⟩)

namespace Rounds

/-- **Keepalive jobs.** Whatever comes between the targets of the rounds, a stored keepalive has its
upstream job before it in its list, is that job but for its id and time, has an id of its own, and
stands for its job when a share is submitted. It is later than its job, by two hours at most, as
long as no job joins a list with the id of a different one. -/
theorem keepalives_right {lib : Sv1Lib} (hl : lib.Lawful) (mode : TproxyMode) (interval : UInt16)
    (es : List Event) (hmade : (exec (step lib) (initial mode interval) es).made < 2 ^ 32) :
    let r := exec (step lib) (initial mode interval) es
    RightKeepalives r.server ∧
      (Along (step lib) (SameIds lib) (initial mode interval) es → KeepalivesInTime r.server) := by
  intro r
  have hderived : r.Derived :=
    exec_invariant (I := Derived) (fun r e h => derived_step hl h e)
      (fun _ => Derivations.initial mode interval) es
  have hinv : Inv lib r.server :=
    exec_invariant (I := fun r : Rounds => Inv lib r.server) (fun r e h => inv_step hl h e)
      (inv_initial lib mode interval) es
  refine ⟨(hderived hmade).right hl hinv, fun hids => ?_⟩
  have htimed : r.DerivedInTime :=
    exec_induct (fun r e h hids => inTime_step hl h hids)
      (fun _ => ⟨Derivations.initial mode interval, Timed.initial mode interval⟩) hids
  exact (htimed hmade).2.times

/-! ### A job id that is used twice -/

/-- Job 8 comes after job 7, and a round makes two keepalives of it, for two connections. -/
def twoKeepalives : List Event :=
  let before : List Sv1Server.Event := sampleSetup ++ [.connect 1 (2 ^ 256 - 1),
    .newExtendedMiningJob (sampleJob 8 0x20000004), .deliver 12 1, .authorize 12 1 ['v']]
  before.map .server ++ [.collect 100 [0, 1], .target 100, .target 100]

theorem keepalives_right_twoKeepalives :
    let r := exec (step referenceLib) (initial .aggregated 60) twoKeepalives
    RightKeepalives r.server ∧ KeepalivesInTime r.server := by
  intro r
  obtain ⟨hright, htimes⟩ := keepalives_right referenceLib_lawful .aggregated 60 twoKeepalives
    (by decide +kernel)
  exact ⟨hright, htimes (by decide +kernel)⟩

example : ((exec (step referenceLib) (initial .aggregated 60) twoKeepalives).server.stored
    aggregatedChannelId).map (fun n => (String.ofList n.jobId, n.time)) =
      [("7", 1700000000), ("8", 1700000000), ("8#0", 1700000060), ("8#1", 1700000120)] := by
  decide +kernel

/-- The upstream uses job id 8 again, for a job of another version and a later time. -/
def reusedId : List Event :=
  let before : List Sv1Server.Event := sampleSetup ++
    [.newExtendedMiningJob (sampleJob 8 0x20000000),
      .newExtendedMiningJob { sampleJob 8 0x20000004 with minNtime := some 1800000000 }]
  before.map .server ++ [.collect 100 [0], .target 100]

/-- The keepalive of the later job is capped from the earlier one, and goes back in time. -/
theorem reused_id_goes_back :
    let r := exec (step referenceLib) (initial .aggregated 60) reusedId
    r.made < 2 ^ 32 ∧ ∃ n, r.server.jobAt aggregatedChannelId 3 = some n ∧
      isKeepaliveJobId n.jobId = true ∧
      ∀ j o, r.server.jobAt aggregatedChannelId j = some o → KeepaliveOf o n → ¬ InTime o n := by
  intro r
  refine ⟨by decide +kernel, ?_⟩
  have hstored : (r.server.jobAt aggregatedChannelId 3).any
      (fun n => isKeepaliveJobId n.jobId) = true := by decide +kernel
  obtain ⟨n, hn, hkeep⟩ := (Option.any_eq_true _ _).mp hstored
  refine ⟨n, hn, hkeep, fun j o ho hof htime => ?_⟩
  have hnone : ∀ n ∈ r.server.jobAt aggregatedChannelId 3,
      ∀ o ∈ r.server.stored aggregatedChannelId, o.time.toNat < n.time.toNat →
        o.version ≠ n.version := by decide +kernel
  refine hnone n hn o (List.mem_of_getElem? ho) htime.later ?_
  rw [hof.same]

end Rounds

end GridPoolSv2.Translator
