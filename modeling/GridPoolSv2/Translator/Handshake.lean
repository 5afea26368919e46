import GridPoolSv2.Translator.Sv1Server

/-!
# Translator.Handshake: the first job of a miner

Two tasks send to one miner. The `Downstream` task takes notifications off its queue
(`handle_sv1_server_message`) and holds back a `mining.notify` while the handshake is not
complete; the server task completes the handshake and sends what was held back
(`handle_sv1_handshake_completion`).

* Both are modelled **step by step**: every access of the handshake flag, every lock section
  and every send is one step, and a run interleaves the steps of the two tasks in any order.
* Messages carry their number in the order of receipt (`Tagged`) and `received` lists them.
  These are **ghost**: no step depends on them.
* The flag is read *outside* the lock. `Ordered` is the condition on the steps of a run: the
  handshake is not completed between the reading of an unset flag for a notify and its
  caching, and the `Downstream` task does not send a notify ahead of a `set_difficulty` that
  the completion has taken out of the cache and not sent yet.

`Represents` connects the steps with the handlers of `Translator.Sv1Server`: run without
interruption they do the same. The commits of targets are in `Translator.Difficulty`.
-/

namespace GridPoolSv2.Translator

open Runs

/-- A message with its number in the order of receipt. -/
structure Tagged (α : Type) where
  tag : Nat
  val : α
  deriving Repr, DecidableEq

/-- Where the `Downstream` task is in `handle_sv1_server_message`. -/
inductive ServerPc where
  | idle
  /-- A message was received. -/
  | received (m : Tagged Notification)
  /-- The handshake flag was read. -/
  | loaded (complete : Bool) (m : Tagged Notification)
  /-- A cached `set_difficulty` was taken for the notify. -/
  | sendDifficulty (t : Tagged Nat) (n : Tagged Notify)
  /-- The notify is next; `own` says whether a `set_difficulty` was sent for it. -/
  | sendNotify (own : Bool) (n : Tagged Notify)
  deriving Repr, DecidableEq

/-- Where the server task is in `handle_sv1_handshake_completion`. -/
inductive CompletionPc where
  | idle
  | sendDifficulty (t : Tagged Nat) (n : Option (Tagged Notify))
  /-- The lock section that moves the pending target in force. -/
  | commit (n : Option (Tagged Notify))
  | sendNotify (n : Tagged Notify)
  /-- The lock section that sets `last_job_received_time`. -/
  | stamp
  deriving Repr, DecidableEq

/-- One connection and the two tasks that send to its miner. -/
structure Handshake where
  sv1HandshakeComplete : Bool := false
  cachedSetDifficulty : Option (Tagged Nat) := none
  cachedNotify : Option (Tagged Notify) := none
  queue : List Notification := []
  /-- What was sent to the miner, oldest first. -/
  toMiner : List (Tagged Notification) := []
  server : ServerPc := .idle
  completion : CompletionPc := .idle
  /-- Ghost: the messages taken off the queue, oldest first. -/
  received : List Notification := []
  deriving Repr, DecidableEq

namespace Handshake

/-- The lock section of a notify that is sent at once: a cached `set_difficulty` goes first, and
makes the job a clean one. -/
def notifySection (s : Handshake) (n : Tagged Notify) : Handshake :=
  match s.cachedSetDifficulty with
  | some t =>
      { s with
        cachedSetDifficulty := none
        server := .sendDifficulty t ⟨n.tag, { n.val with cleanJobs := true }⟩ }
  | none => { s with server := .sendNotify false n }

/-- One step of `handle_sv1_server_message`. -/
def serverStep (s : Handshake) : Handshake :=
  match s.server with
  | .idle =>
      match s.queue with
      | [] => s
      | m :: rest =>
          { s with
            queue := rest
            received := s.received ++ [m]
            server := .received ⟨s.received.length, m⟩ }
  | .received m => { s with server := .loaded s.sv1HandshakeComplete m }
  | .loaded _ ⟨k, .setDifficulty t⟩ =>
      { s with cachedSetDifficulty := some ⟨k, t⟩, server := .idle }
  | .loaded true ⟨k, .notify n⟩ => s.notifySection ⟨k, n⟩
  | .loaded false ⟨k, .notify n⟩ => { s with cachedNotify := some ⟨k, n⟩, server := .idle }
  | .sendDifficulty t n =>
      { s with
        toMiner := s.toMiner ++ [⟨t.tag, .setDifficulty t.val⟩]
        server := .sendNotify true n }
  | .sendNotify _ n =>
      { s with toMiner := s.toMiner ++ [⟨n.tag, .notify n.val⟩], server := .idle }

/-- The rest of the completion after the `set_difficulty`. -/
def afterDifficulty : Option (Tagged Notify) → CompletionPc
  | some n => .sendNotify n
  | none => .idle

/-- What a completion that starts takes out of the caches. -/
def taken (s : Handshake) : CompletionPc :=
  match s.cachedSetDifficulty with
  | some t => .sendDifficulty t s.cachedNotify
  | none => afterDifficulty s.cachedNotify

/-- One step of `handle_sv1_handshake_completion`. -/
def completionStep (s : Handshake) : Handshake :=
  match s.completion with
  | .idle =>
      { s with
        sv1HandshakeComplete := true
        cachedSetDifficulty := none
        cachedNotify := none
        completion := s.taken }
  | .sendDifficulty t n =>
      { s with
        toMiner := s.toMiner ++ [⟨t.tag, .setDifficulty t.val⟩]
        completion := .commit n }
  | .commit n => { s with completion := afterDifficulty n }
  | .sendNotify n =>
      { s with toMiner := s.toMiner ++ [⟨n.tag, .notify n.val⟩], completion := .stamp }
  | .stamp => { s with completion := .idle }

/-- A step of one of the tasks, or a message put into the queue. A completion starts whenever the
miner authorizes. -/
inductive Event where
  | enqueue (m : Notification)
  | server
  | completion
  deriving Repr, DecidableEq

def step (s : Handshake) : Event → Handshake
  | .enqueue m => { s with queue := s.queue ++ [m] }
  | .server => s.serverStep
  | .completion => s.completionStep

/-- The handshake is complete, both tasks are idle and the queue is empty. -/
structure Settled (s : Handshake) : Prop where
  complete : s.sv1HandshakeComplete = true
  server : s.server = .idle
  completion : s.completion = .idle
  queue : s.queue = []

/-- The `set_difficulty` a completion has taken and not sent. -/
def unsentDifficulty : CompletionPc → Option (Tagged Nat)
  | .sendDifficulty t _ => some t
  | _ => none

/-- A notify that goes out without a `set_difficulty` of its own is next. -/
def unaccompanied : ServerPc → Bool
  | .sendNotify own _ => !own
  | _ => false

/-- A notify is about to be cached. -/
def holdsBack : ServerPc → Bool
  | .loaded false ⟨_, .notify _⟩ => true
  | _ => false

/-- The condition on a step. -/
def Ordered (s : Handshake) : Event → Prop
  | .enqueue _ => True
  | .server => unaccompanied s.server = true → unsentDifficulty s.completion = none
  | .completion => s.completion = .idle → holdsBack s.server = false

instance (s : Handshake) : ∀ e, Decidable (Ordered s e)
  | .enqueue _ => isTrue trivial
  | .server =>
      inferInstanceAs (Decidable (unaccompanied s.server = true →
        unsentDifficulty s.completion = none))
  | .completion => inferInstanceAs (Decidable (s.completion = .idle → holdsBack s.server = false))

/-! ### The invariant

What is in the queue, in the cache, in hand of a task or sent, by the numbers of the messages. -/

/-- The message the `Downstream` task has received and not put anywhere yet. -/
def handled : ServerPc → Option (Tagged Notification)
  | .received m => some m
  | .loaded _ m => some m
  | _ => none

/-- The `set_difficulty` the `Downstream` task has taken for a notify and not sent. -/
def ownDifficulty : ServerPc → Option (Tagged Nat)
  | .sendDifficulty t _ => some t
  | _ => none

/-- The notify the `Downstream` task is going to send. -/
def outgoing : ServerPc → Option (Tagged Notify)
  | .sendDifficulty _ n => some n
  | .sendNotify _ n => some n
  | _ => none

/-- The notify a completion has taken and not sent. -/
def unsentNotify : CompletionPc → Option (Tagged Notify)
  | .sendDifficulty _ n => n
  | .commit n => n
  | .sendNotify n => some n
  | _ => none

/-- A `set_difficulty` was sent to the miner. -/
def Sent (s : Handshake) (x : Tagged Nat) : Prop :=
  ⟨x.tag, .setDifficulty x.val⟩ ∈ s.toMiner

/-- A `set_difficulty` is cached, taken by one of the tasks, or sent. -/
def Carries (s : Handshake) (x : Tagged Nat) : Prop :=
  s.cachedSetDifficulty = some x ∨ ownDifficulty s.server = some x ∨
    unsentDifficulty s.completion = some x ∨ s.Sent x

/-- The received message of number `j` is a `set_difficulty`. -/
def IsDifficulty (s : Handshake) (j : Nat) : Prop :=
  ∃ t, s.received[j]? = some (.setDifficulty t)

/-- The received message of number `k` is the notify `n`, and no later one is a notify. -/
def LastNotify (s : Handshake) (k : Nat) (n : Notify) : Prop :=
  s.received[k]? = some (.notify n) ∧ ∀ k' n', k < k' → s.received[k']? ≠ some (.notify n')

/-- The same job; `clean_jobs` may have been set on the way. -/
def SameJob (n n' : Notify) : Prop :=
  n' = n ∨ n' = { n with cleanJobs := true }

/-- The notify of number `k` was sent, after every `set_difficulty` received before it or a later
one. -/
def Delivered (s : Handshake) (k : Nat) (n : Notify) : Prop :=
  ∃ before n' after, s.toMiner = before ++ ⟨k, .notify n'⟩ :: after ∧ SameJob n n' ∧
    ∀ j < k, s.IsDifficulty j → ∃ x : Tagged Nat, j ≤ x.tag ∧
      s.received[x.tag]? = some (.setDifficulty x.val) ∧ ⟨x.tag, .setDifficulty x.val⟩ ∈ before

/-- Where the last notify is: with a task, cached, or delivered. -/
inductive Whereabouts (s : Handshake) (k : Nat) (n : Notify) : Prop
  | handled (h : handled s.server = some ⟨k, .notify n⟩)
  | cached (hopen : s.sv1HandshakeComplete = false) (h : s.cachedNotify = some ⟨k, n⟩)
  | completion (h : unsentNotify s.completion = some ⟨k, n⟩)
      (hdiff : ∀ j < k, s.IsDifficulty j →
        ∃ x, j ≤ x.tag ∧ (s.Sent x ∨ unsentDifficulty s.completion = some x))
  | outgoing (n' : Notify) (h : outgoing s.server = some ⟨k, n'⟩) (hsame : SameJob n n')
      (hdiff : ∀ j < k, s.IsDifficulty j →
        ∃ x, j ≤ x.tag ∧ (s.Sent x ∨ ownDifficulty s.server = some x ∨
          unaccompanied s.server = true ∧ unsentDifficulty s.completion = some x))
  | delivered (h : s.Delivered k n)

structure Kept (s : Handshake) : Prop where
  /-- Before the handshake is complete nothing is sent. -/
  opened : s.sv1HandshakeComplete = false →
    s.completion = .idle ∧ outgoing s.server = none ∧ ∀ m, s.server ≠ .loaded true m
  /-- Afterwards nothing is held back. -/
  closed : s.sv1HandshakeComplete = true → s.cachedNotify = none ∧ holdsBack s.server = false
  handled : ∀ m, handled s.server = some m →
    s.received[m.tag]? = some m.val ∧ s.received.length = m.tag + 1
  genuine : ∀ x, s.Carries x → s.received[x.tag]? = some (.setDifficulty x.val)
  difficulties : ∀ j, s.IsDifficulty j →
    (∃ m, Handshake.handled s.server = some m ∧ m.tag = j) ∨ ∃ x, j ≤ x.tag ∧ s.Carries x
  /-- The cached `set_difficulty` is the latest that is not in the hands of the task. -/
  newest : ∀ c, s.cachedSetDifficulty = some c → ∀ j, s.IsDifficulty j →
    (∃ m, Handshake.handled s.server = some m ∧ m.tag = j) ∨ j ≤ c.tag
  notify : ∀ k n, s.LastNotify k n → s.Whereabouts k n

theorem kept_initial : Kept {} where
  opened := fun _ => ⟨rfl, rfl, nofun⟩
  closed := nofun
  handled := nofun
  genuine := by
    rintro x (h | h | h | h) <;> cases h
  difficulties := by
    rintro j ⟨t, h⟩
    cases h
  newest := nofun
  notify := by
    rintro k n ⟨h, _⟩
    cases h

/-! ### What each step keeps -/

section Facts

variable {s s' : Handshake} {j k : Nat} {n : Notify}

theorem IsDifficulty.lt_length (h : s.IsDifficulty j) : j < s.received.length := by
  obtain ⟨t, ht⟩ := h
  exact (List.getElem?_eq_some_iff.mp ht).1

theorem not_isDifficulty (h : s.received[j]? = some (.notify n)) : ¬s.IsDifficulty j := by
  rintro ⟨t, ht⟩
  rw [h] at ht
  cases ht

/-- The last notify is the newest message when that one is a notify. -/
theorem LastNotify.eq_newest (h : s.LastNotify k n) {m : Nat} {n' : Notify}
    (hm : s.received[m]? = some (.notify n')) (hlen : s.received.length = m + 1) :
    k = m ∧ n = n' := by
  have hk := (List.getElem?_eq_some_iff.mp h.1).1
  have hle : k = m := by
    by_contra hne
    exact h.2 m n' (by omega) hm
  subst hle
  rw [h.1] at hm
  cases hm
  exact ⟨rfl, rfl⟩

/-- What was delivered stays delivered when more is sent. -/
theorem Delivered.mono (h : s.Delivered k n) (hreceived : s'.received = s.received)
    {more : List (Tagged Notification)} (hsent : s'.toMiner = s.toMiner ++ more) :
    s'.Delivered k n := by
  obtain ⟨before, n', after, heq, hsame, hdiff⟩ := h
  refine ⟨before, n', after ++ more, ?_, hsame, ?_⟩
  · rw [hsent, heq, List.append_assoc, List.cons_append]
  · intro j hj hd
    rw [hreceived]
    apply hdiff j hj
    rwa [IsDifficulty, ← hreceived]

/-- A notify sent now is delivered if every earlier `set_difficulty`, or a later one, was sent. -/
theorem Kept.delivers (h : Kept s) {n' : Notify} (hsame : SameJob n n')
    (hdiff : ∀ j < k, s.IsDifficulty j → ∃ x, j ≤ x.tag ∧ s.Sent x)
    (hreceived : s'.received = s.received)
    (hsent : s'.toMiner = s.toMiner ++ [⟨k, .notify n'⟩]) : s'.Delivered k n := by
  refine ⟨s.toMiner, n', [], hsent, hsame, ?_⟩
  intro j hj hd
  rw [hreceived]
  obtain ⟨x, hle, hx⟩ := hdiff j hj (by rwa [IsDifficulty, ← hreceived])
  exact ⟨x, hle, h.genuine x (.inr (.inr (.inr hx))), hx⟩

theorem Sent.mono {x : Tagged Nat} (h : s.Sent x) {more : List (Tagged Notification)}
    (hsent : s'.toMiner = s.toMiner ++ more) : s'.Sent x := by
  rw [Sent, hsent]
  exact List.mem_append_left _ h

theorem SameJob.refl (n : Notify) : SameJob n n :=
  .inl rfl

end Facts

section ServerSteps

variable {s : Handshake}

theorem Kept.enqueue (h : Kept s) (m : Notification) : Kept { s with queue := s.queue ++ [m] } where
  opened := h.opened
  closed := h.closed
  handled := h.handled
  genuine := h.genuine
  difficulties := h.difficulties
  newest := h.newest
  notify := by
    intro k n hlast
    cases h.notify k n hlast with
    | handled hn => exact .handled hn
    | cached hopen hn => exact .cached hopen hn
    | completion hn hdiff => exact .completion hn hdiff
    | outgoing n' hn hsame hdiff => exact .outgoing n' hn hsame hdiff
    | delivered hn => exact .delivered hn

/-- A message is taken off the queue. -/
theorem Kept.receive (h : Kept s) (hs : s.server = .idle) (m : Notification)
    (rest : List Notification) :
    Kept { s with
      queue := rest
      received := s.received ++ [m]
      server := .received ⟨s.received.length, m⟩ } := by
  have hold : ∀ j < s.received.length, (s.received ++ [m])[j]? = s.received[j]? :=
    fun j hj => List.getElem?_append_left hj
  have hnew : (s.received ++ [m])[s.received.length]? = some m := by simp
  -- a number below the length, or the new one
  have hsplit : ∀ j t, (s.received ++ [m])[j]? = some (.setDifficulty t) →
      j = s.received.length ∨ s.IsDifficulty j := by
    intro j t ht
    by_cases hj : j < s.received.length
    · exact .inr ⟨t, by rwa [hold j hj] at ht⟩
    · have hlt := (List.getElem?_eq_some_iff.mp ht).1
      rw [List.length_append, List.length_singleton] at hlt
      exact .inl (by omega)
  have hcarries : ∀ x, Carries { s with
      queue := rest
      received := s.received ++ [m]
      server := .received ⟨s.received.length, m⟩ } x ↔ s.Carries x := by
    intro x
    simp [Carries, Sent, ownDifficulty, hs]
  refine ⟨?_, ?_, ?_, ?_, ?_, ?_, ?_⟩
  · intro hopen
    exact ⟨(h.opened hopen).1, rfl, nofun⟩
  · intro hclosed
    exact ⟨(h.closed hclosed).1, rfl⟩
  · intro m' hm'
    cases hm'
    exact ⟨hnew, by simp⟩
  · intro x hx
    have hx' := h.genuine x ((hcarries x).mp hx)
    have hlt := (List.getElem?_eq_some_iff.mp hx').1
    rwa [← hold x.tag hlt] at hx'
  · rintro j ⟨t, ht⟩
    rcases hsplit j t ht with rfl | hd
    · exact .inl ⟨_, rfl, rfl⟩
    · rcases h.difficulties j hd with ⟨m', hm', _⟩ | ⟨x, hle, hx⟩
      · rw [hs] at hm'
        cases hm'
      · exact .inr ⟨x, hle, (hcarries x).mpr hx⟩
  · rintro c hc j ⟨t, ht⟩
    rcases hsplit j t ht with rfl | hd
    · exact .inl ⟨_, rfl, rfl⟩
    · rcases h.newest c hc j hd with ⟨m', hm', _⟩ | hle
      · rw [hs] at hm'
        cases hm'
      · exact .inr hle
  · rintro k n ⟨hk, hlater⟩
    by_cases hlt : k < s.received.length
    · have hlast : s.LastNotify k n := by
        refine ⟨by rwa [hold k hlt] at hk, ?_⟩
        intro k' n' hkk' hk'
        have hlt' := (List.getElem?_eq_some_iff.mp hk').1
        exact hlater k' n' hkk' (by rw [hold k' hlt']; exact hk')
      have hdiffs : ∀ j < k, IsDifficulty { s with
          queue := rest
          received := s.received ++ [m]
          server := .received ⟨s.received.length, m⟩ } j → s.IsDifficulty j := by
        rintro j hj ⟨t, ht⟩
        exact ⟨t, by rwa [hold j (by omega)] at ht⟩
      cases h.notify k n hlast with
      | handled hn => rw [hs] at hn; cases hn
      | cached hopen hn => exact .cached hopen hn
      | completion hn hdiff => exact .completion hn fun j hj hd => hdiff j hj (hdiffs j hj hd)
      | outgoing n' hn _ _ => rw [hs] at hn; cases hn
      | delivered hn =>
          obtain ⟨before, n', after, heq, hsame, hdiff⟩ := hn
          refine .delivered ⟨before, n', after, heq, hsame, ?_⟩
          intro j hj hd
          obtain ⟨x, hle, hx, hmem⟩ := hdiff j hj (hdiffs j hj hd)
          have hltx := (List.getElem?_eq_some_iff.mp hx).1
          exact ⟨x, hle, by rw [← hx]; exact hold x.tag hltx, hmem⟩
    · have hlen := (List.getElem?_eq_some_iff.mp hk).1
      rw [List.length_append, List.length_singleton] at hlen
      obtain rfl : k = s.received.length := by omega
      rw [hnew] at hk
      cases hk
      exact .handled rfl

/-- The handshake flag is read. -/
theorem Kept.load (h : Kept s) {m : Tagged Notification} (hs : s.server = .received m) :
    Kept { s with server := .loaded s.sv1HandshakeComplete m } := by
  have hcarries : ∀ x, Carries { s with server := .loaded s.sv1HandshakeComplete m } x ↔
      s.Carries x := by
    intro x
    simp [Carries, Sent, ownDifficulty, hs]
  have hhandled : Handshake.handled s.server = some m := by rw [hs]; rfl
  refine ⟨?_, ?_, ?_, ?_, ?_, ?_, ?_⟩
  · intro hopen
    refine ⟨(h.opened hopen).1, rfl, ?_⟩
    intro m' hm'
    rw [hopen] at hm'
    cases hm'
  · intro hclosed
    refine ⟨(h.closed hclosed).1, ?_⟩
    rw [hclosed]
    rfl
  · intro m' hm'
    exact h.handled m' (hhandled.trans hm')
  · intro x hx
    exact h.genuine x ((hcarries x).mp hx)
  · intro j hd
    rcases h.difficulties j hd with ⟨m', hm', htag⟩ | ⟨x, hle, hx⟩
    · exact .inl ⟨m', hhandled.symm.trans hm', htag⟩
    · exact .inr ⟨x, hle, (hcarries x).mpr hx⟩
  · intro c hc j hd
    rcases h.newest c hc j hd with ⟨m', hm', htag⟩ | hle
    · exact .inl ⟨m', hhandled.symm.trans hm', htag⟩
    · exact .inr hle
  · intro k n hlast
    cases h.notify k n hlast with
    | handled hn => exact .handled (hhandled.symm.trans hn)
    | cached hopen hn => exact .cached hopen hn
    | completion hn hdiff => exact .completion hn hdiff
    | outgoing n' hn _ _ => rw [hs] at hn; cases hn
    | delivered hn => exact .delivered hn

/-- A `set_difficulty` is cached. -/
theorem Kept.cacheDifficulty (h : Kept s) {b : Bool} {k t : Nat}
    (hs : s.server = .loaded b ⟨k, .setDifficulty t⟩) :
    Kept { s with cachedSetDifficulty := some ⟨k, t⟩, server := .idle } := by
  obtain ⟨hk, hlen⟩ := h.handled ⟨k, .setDifficulty t⟩ (by rw [hs]; rfl)
  have hle : ∀ j, s.IsDifficulty j → j ≤ k := by
    intro j hd
    have hlt : j < k + 1 := hlen ▸ hd.lt_length
    omega
  refine ⟨?_, ?_, nofun, ?_, ?_, ?_, ?_⟩
  · intro hopen
    exact ⟨(h.opened hopen).1, rfl, nofun⟩
  · intro hclosed
    exact ⟨(h.closed hclosed).1, rfl⟩
  · rintro x (hx | hx | hx | hx)
    · cases hx
      exact hk
    · cases hx
    · exact h.genuine x (.inr (.inr (.inl hx)))
    · exact h.genuine x (.inr (.inr (.inr hx)))
  · intro j hd
    exact .inr ⟨⟨k, t⟩, hle j hd, .inl rfl⟩
  · rintro c hc j hd
    cases hc
    exact .inr (hle j hd)
  · intro k' n hlast
    cases h.notify k' n hlast with
    | handled hn => rw [hs] at hn; cases hn
    | cached hopen hn => exact .cached hopen hn
    | completion hn hdiff => exact .completion hn hdiff
    | outgoing n' hn _ _ => rw [hs] at hn; cases hn
    | delivered hn => exact .delivered hn

/-- While the task handles a notify, every received `set_difficulty` is carried. -/
theorem Kept.carried (h : Kept s) {k : Nat} {n : Notify}
    (hhandled : Handshake.handled s.server = some ⟨k, .notify n⟩) {j : Nat}
    (hd : s.IsDifficulty j) : ∃ x, j ≤ x.tag ∧ s.Carries x := by
  rcases h.difficulties j hd with ⟨m, hm, rfl⟩ | hx
  · rw [hhandled] at hm
    cases hm
    exact absurd hd (not_isDifficulty (h.handled _ hhandled).1)
  · exact hx

/-- The cache has the newest of the jobs before the one in hand. -/
theorem Kept.cached_newest (h : Kept s) {k : Nat} {n : Notify}
    (hhandled : Handshake.handled s.server = some ⟨k, .notify n⟩) {c : Tagged Nat}
    (hc : s.cachedSetDifficulty = some c) {j : Nat} (hd : s.IsDifficulty j) : j ≤ c.tag := by
  rcases h.newest c hc j hd with ⟨m, hm, rfl⟩ | hle
  · rw [hhandled] at hm
    cases hm
    exact absurd hd (not_isDifficulty (h.handled _ hhandled).1)
  · exact hle

/-- A notify is cached before the handshake is complete. -/
theorem Kept.cacheNotify (h : Kept s) {k : Nat} {n : Notify}
    (hs : s.server = .loaded false ⟨k, .notify n⟩) :
    Kept { s with cachedNotify := some ⟨k, n⟩, server := .idle } := by
  have hhandled : Handshake.handled s.server = some ⟨k, .notify n⟩ := by rw [hs]; rfl
  have hopen : s.sv1HandshakeComplete = false := by
    by_contra hne
    have hback := (h.closed (Bool.of_not_eq_false hne)).2
    rw [hs] at hback
    cases hback
  have hcarries : ∀ x, Carries { s with cachedNotify := some ⟨k, n⟩, server := .idle } x ↔
      s.Carries x := by
    intro x
    simp [Carries, Sent, ownDifficulty, hs]
  refine ⟨?_, ?_, nofun, ?_, ?_, ?_, ?_⟩
  · intro _
    exact ⟨(h.opened hopen).1, rfl, nofun⟩
  · intro hclosed
    exact absurd (hopen.symm.trans hclosed) nofun
  · intro x hx
    exact h.genuine x ((hcarries x).mp hx)
  · intro j hd
    simp only [hcarries]
    exact .inr (h.carried hhandled hd)
  · intro c hc j hd
    exact .inr (h.cached_newest hhandled hc hd)
  · intro k' n' hlast
    obtain ⟨hk, hlen⟩ := h.handled _ hhandled
    have hlast' : s.LastNotify k' n' := hlast
    obtain ⟨rfl, rfl⟩ := hlast'.eq_newest hk hlen
    exact .cached hopen rfl

/-- A notify that is sent at once takes a cached `set_difficulty` with it. -/
theorem Kept.section (h : Kept s) {k : Nat} {n : Notify}
    (hs : s.server = .loaded true ⟨k, .notify n⟩) : Kept (s.notifySection ⟨k, n⟩) := by
  have hhandled : Handshake.handled s.server = some ⟨k, .notify n⟩ := by rw [hs]; rfl
  obtain ⟨hk, hlen⟩ := h.handled _ hhandled
  have hclosed : s.sv1HandshakeComplete = true := by
    by_contra hne
    exact (h.opened (Bool.of_not_eq_true hne)).2.2 _ hs
  have hnone : s.cachedNotify = none := (h.closed hclosed).1
  have hown : ownDifficulty s.server = none := by rw [hs]; rfl
  cases hc : s.cachedSetDifficulty with
  | some c =>
      have hsec : s.notifySection ⟨k, n⟩ = { s with
          cachedSetDifficulty := none
          server := .sendDifficulty c ⟨k, { n with cleanJobs := true }⟩ } := by
        simp only [notifySection, hc]
      rw [hsec]
      refine ⟨?_, fun _ => ⟨hnone, rfl⟩, nofun, ?_, ?_, nofun, ?_⟩
      · intro hopen
        exact absurd (hopen.symm.trans hclosed) nofun
      · rintro x (hx | hx | hx | hx)
        · cases hx
        · cases hx
          exact h.genuine c (.inl hc)
        · exact h.genuine x (.inr (.inr (.inl hx)))
        · exact h.genuine x (.inr (.inr (.inr hx)))
      · intro j hd
        exact .inr ⟨c, h.cached_newest hhandled hc hd, .inr (.inl rfl)⟩
      · intro k' n' hlast
        have hlast' : s.LastNotify k' n' := hlast
        obtain ⟨rfl, rfl⟩ := hlast'.eq_newest hk hlen
        refine .outgoing _ rfl (.inr rfl) ?_
        intro j _ hd
        exact ⟨c, h.cached_newest hhandled hc hd, .inr (.inl rfl)⟩
  | none =>
      have hsec : s.notifySection ⟨k, n⟩ = { s with server := .sendNotify false ⟨k, n⟩ } := by
        simp only [notifySection, hc]
      rw [hsec]
      refine ⟨?_, fun _ => ⟨hnone, rfl⟩, nofun, ?_, ?_, ?_, ?_⟩
      · intro hopen
        exact absurd (hopen.symm.trans hclosed) nofun
      · rintro x (hx | hx | hx | hx)
        · exact h.genuine x (.inl hx)
        · cases hx
        · exact h.genuine x (.inr (.inr (.inl hx)))
        · exact h.genuine x (.inr (.inr (.inr hx)))
      · intro j hd
        obtain ⟨x, hle, hx⟩ := h.carried hhandled hd
        refine .inr ⟨x, hle, ?_⟩
        rwa [Carries, hown] at hx
      · intro c hc'
        exact absurd (hc.symm.trans hc') nofun
      · intro k' n' hlast
        have hlast' : s.LastNotify k' n' := hlast
        obtain ⟨rfl, rfl⟩ := hlast'.eq_newest hk hlen
        refine .outgoing _ rfl (SameJob.refl _) ?_
        intro j _ hd
        obtain ⟨x, hle, hx | hx | hx | hx⟩ := h.carried hhandled hd
        · exact absurd (hc.symm.trans hx) nofun
        · exact absurd (hown.symm.trans hx) nofun
        · exact ⟨x, hle, .inr (.inr ⟨rfl, hx⟩)⟩
        · exact ⟨x, hle, .inl hx⟩

/-- A task that is about to send implies the handshake is complete. -/
theorem Kept.closed_of_outgoing (h : Kept s) {n : Tagged Notify}
    (hn : Handshake.outgoing s.server = some n) : s.sv1HandshakeComplete = true := by
  by_contra hne
  have hnone := (h.opened (Bool.of_not_eq_true hne)).2.1
  rw [hn] at hnone
  cases hnone

/-- The `Downstream` task sends the `set_difficulty` of its notify. -/
theorem Kept.sendOwnDifficulty (h : Kept s) {t : Tagged Nat} {n : Tagged Notify}
    (hs : s.server = .sendDifficulty t n) :
    Kept { s with
      toMiner := s.toMiner ++ [⟨t.tag, .setDifficulty t.val⟩]
      server := .sendNotify true n } := by
  have hout : Handshake.outgoing s.server = some n := by rw [hs]; rfl
  have hclosed := h.closed_of_outgoing hout
  have hown : s.Carries t := .inr (.inl (by rw [hs]; rfl))
  have hhandled : Handshake.handled s.server = none := by rw [hs]; rfl
  have hsent : ∀ x, s.Sent x → Sent { s with
      toMiner := s.toMiner ++ [⟨t.tag, .setDifficulty t.val⟩]
      server := .sendNotify true n } x := fun x hx => hx.mono rfl
  have hsentOwn : Sent { s with
      toMiner := s.toMiner ++ [⟨t.tag, .setDifficulty t.val⟩]
      server := .sendNotify true n } t := List.mem_append_right _ (List.mem_singleton.mpr rfl)
  refine ⟨?_, fun _ => ⟨(h.closed hclosed).1, rfl⟩, nofun, ?_, ?_, ?_, ?_⟩
  · intro hopen
    exact absurd (hopen.symm.trans hclosed) nofun
  · rintro x (hx | hx | hx | hx)
    · exact h.genuine x (.inl hx)
    · cases hx
    · exact h.genuine x (.inr (.inr (.inl hx)))
    · rcases List.mem_append.mp hx with hx | hx
      · exact h.genuine x (.inr (.inr (.inr hx)))
      · rw [List.mem_singleton] at hx
        obtain ⟨tag, val⟩ := x
        cases hx
        exact h.genuine t hown
  · intro j hd
    rcases h.difficulties j hd with ⟨m, hm, _⟩ | ⟨x, hle, hx | hx | hx | hx⟩
    · exact absurd (hhandled.symm.trans hm) nofun
    · exact .inr ⟨x, hle, .inl hx⟩
    · rw [hs] at hx
      cases hx
      exact .inr ⟨t, hle, .inr (.inr (.inr hsentOwn))⟩
    · exact .inr ⟨x, hle, .inr (.inr (.inl hx))⟩
    · exact .inr ⟨x, hle, .inr (.inr (.inr (hsent x hx)))⟩
  · intro c hc j hd
    rcases h.newest c hc j hd with ⟨m, hm, _⟩ | hle
    · exact absurd (hhandled.symm.trans hm) nofun
    · exact .inr hle
  · intro k n₀ hlast
    cases h.notify k n₀ hlast with
    | handled hn => exact absurd (hhandled.symm.trans hn) nofun
    | cached hopen hn => exact .cached hopen hn
    | completion hn hdiff =>
        refine .completion hn ?_
        intro j hj hd
        obtain ⟨x, hle, hx⟩ := hdiff j hj hd
        exact ⟨x, hle, hx.imp_left (hsent x)⟩
    | outgoing n' hn hsame hdiff =>
        refine .outgoing n' (hn ▸ hout).symm hsame ?_
        intro j hj hd
        obtain ⟨x, hle, hx | hx | ⟨hx, _⟩⟩ := hdiff j hj hd
        · exact ⟨x, hle, .inl (hsent x hx)⟩
        · rw [hs] at hx
          cases hx
          exact ⟨t, hle, .inl hsentOwn⟩
        · rw [hs] at hx
          cases hx
    | delivered hn => exact .delivered (hn.mono rfl rfl)

/-- A notify that is sent is not a `set_difficulty`. -/
theorem sent_notify {s s' : Handshake} {k : Nat} {n : Notify}
    (hsent : s'.toMiner = s.toMiner ++ [⟨k, .notify n⟩]) (x : Tagged Nat) :
    s'.Sent x ↔ s.Sent x := by
  simp [Sent, hsent]

/-- The `Downstream` task sends its notify. Without a `set_difficulty` of its own the notify relies
on those that were sent, so none may be on its way from the completion. -/
theorem Kept.sendOwnNotify (h : Kept s) {own : Bool} {k : Nat} {n : Notify}
    (hs : s.server = .sendNotify own ⟨k, n⟩) (hord : s.Ordered .server) :
    Kept { s with toMiner := s.toMiner ++ [⟨k, .notify n⟩], server := .idle } := by
  have hout : Handshake.outgoing s.server = some ⟨k, n⟩ := by rw [hs]; rfl
  have hclosed := h.closed_of_outgoing hout
  have hhandled : Handshake.handled s.server = none := by rw [hs]; rfl
  have hown : ownDifficulty s.server = none := by rw [hs]; rfl
  have hcarries : ∀ x, Carries { s with
      toMiner := s.toMiner ++ [⟨k, .notify n⟩], server := .idle } x ↔ s.Carries x := by
    intro x
    simp [Carries, Sent, ownDifficulty, hs]
  refine ⟨?_, fun _ => ⟨(h.closed hclosed).1, rfl⟩, nofun, ?_, ?_, ?_, ?_⟩
  · intro hopen
    exact absurd (hopen.symm.trans hclosed) nofun
  · intro x hx
    exact h.genuine x ((hcarries x).mp hx)
  · intro j hd
    rcases h.difficulties j hd with ⟨m, hm, _⟩ | ⟨x, hle, hx⟩
    · exact absurd (hhandled.symm.trans hm) nofun
    · exact .inr ⟨x, hle, (hcarries x).mpr hx⟩
  · intro c hc j hd
    rcases h.newest c hc j hd with ⟨m, hm, _⟩ | hle
    · exact absurd (hhandled.symm.trans hm) nofun
    · exact .inr hle
  · intro k' n₀ hlast
    cases h.notify k' n₀ hlast with
    | handled hn => exact absurd (hhandled.symm.trans hn) nofun
    | cached hopen hn => exact .cached hopen hn
    | completion hn hdiff =>
        refine .completion hn ?_
        intro j hj hd
        obtain ⟨x, hle, hx⟩ := hdiff j hj hd
        exact ⟨x, hle, hx.imp_left (sent_notify rfl x).mpr⟩
    | outgoing n' hn hsame hdiff =>
        obtain ⟨rfl, rfl⟩ : k = k' ∧ n = n' := by
          rw [hout] at hn
          cases hn
          exact ⟨rfl, rfl⟩
        refine .delivered (h.delivers hsame ?_ rfl rfl)
        intro j hj hd
        obtain ⟨x, hle, hx | hx | ⟨hun, hx⟩⟩ := hdiff j hj hd
        · exact ⟨x, hle, hx⟩
        · exact absurd (hown.symm.trans hx) nofun
        · exact absurd ((hord hun).symm.trans hx) nofun
    | delivered hn => exact .delivered (hn.mono rfl rfl)

end ServerSteps

section CompletionSteps

variable {s : Handshake}

@[simp] theorem unsentDifficulty_afterDifficulty (n : Option (Tagged Notify)) :
    unsentDifficulty (afterDifficulty n) = none := by
  cases n <;> rfl

@[simp] theorem unsentNotify_afterDifficulty (n : Option (Tagged Notify)) :
    unsentNotify (afterDifficulty n) = n := by
  cases n <;> rfl

theorem unsentDifficulty_taken (s : Handshake) :
    unsentDifficulty s.taken = s.cachedSetDifficulty := by
  unfold taken
  cases s.cachedSetDifficulty with
  | some t => rfl
  | none => exact unsentDifficulty_afterDifficulty _

theorem unsentNotify_taken (s : Handshake) : unsentNotify s.taken = s.cachedNotify := by
  unfold taken
  cases s.cachedSetDifficulty with
  | some t => rfl
  | none => exact unsentNotify_afterDifficulty _

/-- The handshake is completed and the caches are emptied. A notify about to be cached would be
left behind. -/
theorem Kept.complete (h : Kept s) (hs : s.completion = .idle)
    (hback : holdsBack s.server = false) :
    Kept { s with
      sv1HandshakeComplete := true
      cachedSetDifficulty := none
      cachedNotify := none
      completion := s.taken } := by
  have hunsent : unsentDifficulty s.completion = none := by rw [hs]; rfl
  have hunsentNotify : unsentNotify s.completion = none := by rw [hs]; rfl
  refine ⟨nofun, fun _ => ⟨rfl, hback⟩, h.handled, ?_, ?_, nofun, ?_⟩
  · rintro x (hx | hx | hx | hx)
    · cases hx
    · exact h.genuine x (.inr (.inl hx))
    · exact h.genuine x (.inl ((unsentDifficulty_taken s).symm.trans hx))
    · exact h.genuine x (.inr (.inr (.inr hx)))
  · intro j hd
    rcases h.difficulties j hd with hm | ⟨x, hle, hx | hx | hx | hx⟩
    · exact .inl hm
    · exact .inr ⟨x, hle, .inr (.inr (.inl ((unsentDifficulty_taken s).trans hx)))⟩
    · exact .inr ⟨x, hle, .inr (.inl hx)⟩
    · exact absurd (hunsent.symm.trans hx) nofun
    · exact .inr ⟨x, hle, .inr (.inr (.inr hx))⟩
  · intro k n hlast
    cases h.notify k n hlast with
    | handled hn => exact .handled hn
    | cached hopen hn =>
        refine .completion ((unsentNotify_taken s).trans hn) ?_
        intro j hj hd
        have hk : k < s.received.length := (List.getElem?_eq_some_iff.mp hlast.1).1
        have hsilent := (h.opened hopen).2.1
        rcases h.difficulties j hd with ⟨m, hm, rfl⟩ | ⟨x, hle, hx | hx | hx | hx⟩
        · -- the newest message would be older than the notify
          have hlen := (h.handled m hm).2
          omega
        · exact ⟨x, hle, .inr ((unsentDifficulty_taken s).trans hx)⟩
        · cases hserver : s.server <;> rw [hserver] at hx hsilent <;> cases hx
          cases hsilent
        · exact absurd (hunsent.symm.trans hx) nofun
        · exact ⟨x, hle, .inl hx⟩
    | completion hn _ => exact absurd (hunsentNotify.symm.trans hn) nofun
    | outgoing n' hn hsame hdiff =>
        refine .outgoing n' hn hsame ?_
        intro j hj hd
        obtain ⟨x, hle, hx | hx | ⟨_, hx⟩⟩ := hdiff j hj hd
        · exact ⟨x, hle, .inl hx⟩
        · exact ⟨x, hle, .inr (.inl hx)⟩
        · exact absurd (hunsent.symm.trans hx) nofun
    | delivered hn => exact .delivered hn

/-- A completion under way means the handshake is complete. -/
theorem Kept.closed_of_completion (h : Kept s) (hs : s.completion ≠ .idle) :
    s.sv1HandshakeComplete = true := by
  by_contra hne
  exact hs (h.opened (Bool.of_not_eq_true hne)).1

/-- The completion sends the `set_difficulty` it has taken. -/
theorem Kept.sendTakenDifficulty (h : Kept s) {t : Tagged Nat} {n : Option (Tagged Notify)}
    (hs : s.completion = .sendDifficulty t n) :
    Kept { s with
      toMiner := s.toMiner ++ [⟨t.tag, .setDifficulty t.val⟩]
      completion := .commit n } := by
  have hclosed := h.closed_of_completion (by rw [hs]; nofun)
  have hunsent : unsentDifficulty s.completion = some t := by rw [hs]; rfl
  have hnotify : unsentNotify s.completion = n := by rw [hs]; rfl
  have hsent : ∀ x, s.Sent x → Sent { s with
      toMiner := s.toMiner ++ [⟨t.tag, .setDifficulty t.val⟩]
      completion := .commit n } x := fun x hx => hx.mono rfl
  have hsentTaken : ∀ x, unsentDifficulty s.completion = some x → Sent { s with
      toMiner := s.toMiner ++ [⟨t.tag, .setDifficulty t.val⟩]
      completion := .commit n } x := by
    intro x hx
    obtain rfl : t = x := Option.some.inj (hunsent.symm.trans hx)
    exact List.mem_append_right _ (List.mem_singleton.mpr rfl)
  refine ⟨?_, h.closed, h.handled, ?_, ?_, h.newest, ?_⟩
  · intro hopen
    exact absurd (hopen.symm.trans hclosed) nofun
  · rintro x (hx | hx | hx | hx)
    · exact h.genuine x (.inl hx)
    · exact h.genuine x (.inr (.inl hx))
    · cases hx
    · rcases List.mem_append.mp hx with hx | hx
      · exact h.genuine x (.inr (.inr (.inr hx)))
      · rw [List.mem_singleton] at hx
        obtain ⟨tag, val⟩ := x
        cases hx
        exact h.genuine t (.inr (.inr (.inl hunsent)))
  · intro j hd
    rcases h.difficulties j hd with hm | ⟨x, hle, hx | hx | hx | hx⟩
    · exact .inl hm
    · exact .inr ⟨x, hle, .inl hx⟩
    · exact .inr ⟨x, hle, .inr (.inl hx)⟩
    · exact .inr ⟨x, hle, .inr (.inr (.inr (hsentTaken x hx)))⟩
    · exact .inr ⟨x, hle, .inr (.inr (.inr (hsent x hx)))⟩
  · intro k n₀ hlast
    cases h.notify k n₀ hlast with
    | handled hn => exact .handled hn
    | cached hopen hn => exact .cached hopen hn
    | completion hn hdiff =>
        refine .completion (hnotify.symm.trans hn) ?_
        intro j hj hd
        obtain ⟨x, hle, hx | hx⟩ := hdiff j hj hd
        · exact ⟨x, hle, .inl (hsent x hx)⟩
        · exact ⟨x, hle, .inl (hsentTaken x hx)⟩
    | outgoing n' hn hsame hdiff =>
        refine .outgoing n' hn hsame ?_
        intro j hj hd
        obtain ⟨x, hle, hx | hx | ⟨_, hx⟩⟩ := hdiff j hj hd
        · exact ⟨x, hle, .inl (hsent x hx)⟩
        · exact ⟨x, hle, .inr (.inl hx)⟩
        · exact ⟨x, hle, .inl (hsentTaken x hx)⟩
    | delivered hn => exact .delivered (hn.mono rfl rfl)

/-- A lock section of the completion that moves no message. -/
theorem Kept.advance (h : Kept s) {pc : CompletionPc} (hs : s.completion ≠ .idle)
    (hdifficulty : unsentDifficulty pc = unsentDifficulty s.completion)
    (hnotify : unsentNotify pc = unsentNotify s.completion) :
    Kept { s with completion := pc } := by
  have hclosed := h.closed_of_completion hs
  have hcarries : ∀ x, Carries { s with completion := pc } x ↔ s.Carries x := by
    intro x
    simp only [Carries, Sent, hdifficulty]
  refine ⟨?_, h.closed, h.handled, ?_, ?_, h.newest, ?_⟩
  · intro hopen
    exact absurd (hopen.symm.trans hclosed) nofun
  · intro x hx
    exact h.genuine x ((hcarries x).mp hx)
  · intro j hd
    rcases h.difficulties j hd with hm | ⟨x, hle, hx⟩
    · exact .inl hm
    · exact .inr ⟨x, hle, (hcarries x).mpr hx⟩
  · intro k n hlast
    cases h.notify k n hlast with
    | handled hn => exact .handled hn
    | cached hopen hn => exact .cached hopen hn
    | completion hn hdiff =>
        refine .completion (hnotify.trans hn) ?_
        rw [hdifficulty]
        exact hdiff
    | outgoing n' hn hsame hdiff =>
        refine .outgoing n' hn hsame ?_
        rw [hdifficulty]
        exact hdiff
    | delivered hn => exact .delivered hn

/-- The completion sends the notify it has taken, after the `set_difficulty` it has taken. -/
theorem Kept.sendTakenNotify (h : Kept s) {k : Nat} {n : Notify}
    (hs : s.completion = .sendNotify ⟨k, n⟩) :
    Kept { s with toMiner := s.toMiner ++ [⟨k, .notify n⟩], completion := .stamp } := by
  have hclosed := h.closed_of_completion (by rw [hs]; nofun)
  have hunsent : unsentDifficulty s.completion = none := by rw [hs]; rfl
  have hnotify : unsentNotify s.completion = some ⟨k, n⟩ := by rw [hs]; rfl
  have hcarries : ∀ x, Carries { s with
      toMiner := s.toMiner ++ [⟨k, .notify n⟩], completion := .stamp } x ↔ s.Carries x := by
    intro x
    simp [Carries, Sent, unsentDifficulty, hs]
  refine ⟨?_, h.closed, h.handled, ?_, ?_, h.newest, ?_⟩
  · intro hopen
    exact absurd (hopen.symm.trans hclosed) nofun
  · intro x hx
    exact h.genuine x ((hcarries x).mp hx)
  · intro j hd
    rcases h.difficulties j hd with hm | ⟨x, hle, hx⟩
    · exact .inl hm
    · exact .inr ⟨x, hle, (hcarries x).mpr hx⟩
  · intro k' n₀ hlast
    cases h.notify k' n₀ hlast with
    | handled hn => exact .handled hn
    | cached hopen hn => exact .cached hopen hn
    | completion hn hdiff =>
        rw [hnotify] at hn
        cases hn
        refine .delivered (h.delivers (SameJob.refl _) ?_ rfl rfl)
        intro j hj hd
        obtain ⟨x, hle, hx | hx⟩ := hdiff j hj hd
        · exact ⟨x, hle, hx⟩
        · exact absurd (hunsent.symm.trans hx) nofun
    | outgoing n' hn hsame hdiff =>
        refine .outgoing n' hn hsame ?_
        intro j hj hd
        obtain ⟨x, hle, hx | hx | ⟨_, hx⟩⟩ := hdiff j hj hd
        · exact ⟨x, hle, .inl ((sent_notify rfl x).mpr hx)⟩
        · exact ⟨x, hle, .inr (.inl hx)⟩
        · exact absurd (hunsent.symm.trans hx) nofun
    | delivered hn => exact .delivered (hn.mono rfl rfl)

end CompletionSteps

/-! ### Whole runs -/

/-- Every step that meets the condition keeps the invariant. -/
theorem kept_step (s : Handshake) (e : Event) (h : Kept s) (hord : s.Ordered e) :
    Kept (s.step e) := by
  cases e with
  | enqueue m => exact h.enqueue m
  | server =>
      cases hs : s.server with
      | idle =>
          cases hq : s.queue with
          | nil => simpa only [step, serverStep, hs, hq] using h
          | cons m rest => simpa only [step, serverStep, hs, hq] using h.receive hs m rest
      | received m => simpa only [step, serverStep, hs] using h.load hs
      | loaded b m =>
          obtain ⟨k, t | n⟩ := m
          · simpa only [step, serverStep, hs] using h.cacheDifficulty hs
          · cases b with
            | true => simpa only [step, serverStep, hs] using h.section hs
            | false => simpa only [step, serverStep, hs] using h.cacheNotify hs
      | sendDifficulty t n => simpa only [step, serverStep, hs] using h.sendOwnDifficulty hs
      | sendNotify own n => simpa only [step, serverStep, hs] using h.sendOwnNotify hs hord
  | completion =>
      cases hs : s.completion with
      | idle => simpa only [step, completionStep, hs] using h.complete hs (hord hs)
      | sendDifficulty t n => simpa only [step, completionStep, hs] using h.sendTakenDifficulty hs
      | commit n =>
          have hadvance : Kept { s with completion := afterDifficulty n } :=
            h.advance (by rw [hs]; nofun)
              ((unsentDifficulty_afterDifficulty n).trans (by rw [hs]; rfl))
              ((unsentNotify_afterDifficulty n).trans (by rw [hs]; rfl))
          simpa only [step, completionStep, hs] using hadvance
      | sendNotify n => simpa only [step, completionStep, hs] using h.sendTakenNotify hs
      | stamp =>
          have hadvance : Kept { s with completion := .idle } :=
            h.advance (by rw [hs]; nofun) (by rw [hs]; rfl) (by rw [hs]; rfl)
          simpa only [step, completionStep, hs] using hadvance

/-- In a settled state the invariant leaves only one place for the last notify. -/
theorem Kept.delivered_of_settled {s : Handshake} (h : Kept s) (hsettled : s.Settled) {k : Nat}
    {n : Notify} (hlast : s.LastNotify k n) : s.Delivered k n := by
  cases h.notify k n hlast with
  | handled hn => rw [hsettled.server] at hn; cases hn
  | cached hopen _ => exact absurd (hopen.symm.trans hsettled.complete) nofun
  | completion hn _ => rw [hsettled.completion] at hn; cases hn
  | outgoing n' hn _ _ => rw [hsettled.server] at hn; cases hn
  | delivered hn => exact hn

/-- In every run whose steps meet the condition, a miner whose handshake is complete has been sent
the last job received for it, after every `set_difficulty` received before that job or a later
one, and no job stays cached. -/
theorem last_job_delivered (es : List Event) (hord : Along step Ordered {} es)
    (hsettled : (exec step {} es).Settled) :
    (exec step {} es).cachedNotify = none ∧
      ∀ k n, (exec step {} es).LastNotify k n → (exec step {} es).Delivered k n := by
  have hkept : Kept (exec step {} es) := exec_induct kept_step kept_initial hord
  exact ⟨(hkept.closed hsettled.complete).1, fun k n => hkept.delivered_of_settled hsettled⟩

/-- Jobs for the examples of runs. -/
def sampleJob (jobId : JobId) : Notify :=
  { jobId := jobId, prevHash := [], coinBase1 := [], coinBase2 := [], merkleBranch := []
    version := 0, bits := 0, time := 0, cleanJobs := true }

/-- A `set_difficulty` and a job arrive before the miner has authorized, and are sent in this order
when it has. -/
def authorizedLate : List Event :=
  [.enqueue (.setDifficulty 7), .enqueue (.notify (sampleJob ['1']))] ++
    List.replicate 6 .server ++ List.replicate 5 .completion

theorem job_delivered_to_authorizedLate :
    (exec step {} authorizedLate).cachedNotify = none ∧
      (exec step {} authorizedLate).Delivered 1 (sampleJob ['1']) := by
  have hsettled : (exec step {} authorizedLate).Settled :=
    ⟨by decide, by decide, by decide, by decide⟩
  have hreceived : (exec step {} authorizedLate).received =
      [.setDifficulty 7, .notify (sampleJob ['1'])] := by decide
  have hlast : (exec step {} authorizedLate).LastNotify 1 (sampleJob ['1']) := by
    refine ⟨by rw [hreceived]; rfl, ?_⟩
    intro k' n' hk' h
    have hlt := (List.getElem?_eq_some_iff.mp h).1
    rw [hreceived] at hlt
    exact absurd hlt (by simp; omega)
  obtain ⟨hnone, hdelivered⟩ := last_job_delivered authorizedLate (by decide) hsettled
  exact ⟨hnone, hdelivered 1 (sampleJob ['1']) hlast⟩

/-- The flag is read before the handshake is completed and the job is cached afterwards. -/
def cachedLate : List Event :=
  [.enqueue (.notify (sampleJob ['1'])), .server, .server, .completion, .server]

/-- The completion has taken a `set_difficulty` and the next job overtakes it. -/
def overtaken : List Event :=
  [.enqueue (.setDifficulty 7), .server, .server, .server, .completion,
    .enqueue (.notify (sampleJob ['1'])), .server, .server, .server, .server,
    .completion, .completion]

/-- Without the condition a job may stay cached for good, and a job may be sent ahead of the
`set_difficulty` received before it. -/
theorem job_left_behind_or_overtaking :
    (¬∀ es, (exec step {} es).Settled → (exec step {} es).cachedNotify = none) ∧
      ¬∀ es, (exec step {} es).Settled →
        ∀ k n, (exec step {} es).LastNotify k n → (exec step {} es).Delivered k n := by
  constructor
  · intro h
    have hnone := h cachedLate ⟨by decide, by decide, by decide, by decide⟩
    exact absurd hnone (by decide)
  · intro h
    have hreceived : (exec step {} overtaken).received =
        [.setDifficulty 7, .notify (sampleJob ['1'])] := by decide
    have hsent : (exec step {} overtaken).toMiner =
        [⟨1, .notify (sampleJob ['1'])⟩, ⟨0, .setDifficulty 7⟩] := by decide
    have hlast : (exec step {} overtaken).LastNotify 1 (sampleJob ['1']) := by
      refine ⟨by rw [hreceived]; rfl, ?_⟩
      intro k' n' hk' h'
      have hlt := (List.getElem?_eq_some_iff.mp h').1
      rw [hreceived] at hlt
      exact absurd hlt (by simp; omega)
    obtain ⟨before, n', after, heq, -, hdiff⟩ :=
      h overtaken ⟨by decide, by decide, by decide, by decide⟩ 1 _ hlast
    obtain ⟨x, -, -, hx⟩ := hdiff 0 (by decide) ⟨7, by rw [hreceived]; rfl⟩
    -- nothing precedes the job
    have hbefore : before = [] := by
      rw [hsent] at heq
      cases before with
      | nil => rfl
      | cons y ys =>
          obtain ⟨-, htail⟩ := List.cons_eq_cons.mp heq
          cases ys with
          | nil => cases htail
          | cons z zs => simp at htail
    rw [hbefore] at hx
    cases hx

/-! ### One handler after the other -/

/-- The state between two handlers, as the server's model has it. -/
structure Represents (s : Handshake) (data : DownstreamData) (queue : List Notification) :
    Prop where
  complete : s.sv1HandshakeComplete = data.sv1HandshakeComplete
  cachedSetDifficulty : s.cachedSetDifficulty.map Tagged.val = data.cachedSetDifficulty
  cachedNotify : s.cachedNotify.map Tagged.val = data.cachedNotify
  toMiner : s.toMiner.map Tagged.val = data.toMiner
  queue : s.queue = queue
  server : s.server = .idle
  completion : s.completion = .idle

/-- Run alone from one end to the other, the steps of the `Downstream` task are
`handle_sv1_server_message`. -/
theorem Represents.server_message {s : Handshake} {data : DownstreamData} {m : Notification}
    {rest : List Notification} (h : Represents s data (m :: rest)) (now : Nat) :
    ∃ steps, Represents (exec step s (List.replicate steps .server))
      (Sv1Server.handleSv1ServerMessage now data m) rest := by
  obtain ⟨hcomplete, hdifficulty, hnotify, hminer, hqueue, hserver, hcompletion⟩ := h
  replace hdifficulty := hdifficulty.symm
  replace hnotify := hnotify.symm
  cases m with
  | setDifficulty t =>
      refine ⟨3, ?_⟩
      constructor <;>
        simp [List.replicate_succ, step, serverStep, Sv1Server.handleSv1ServerMessage, *]
  | notify n =>
      cases hflag : data.sv1HandshakeComplete with
      | false =>
          refine ⟨3, ?_⟩
          constructor <;>
            simp [List.replicate_succ, step, serverStep, Sv1Server.handleSv1ServerMessage, *]
      | true =>
          cases hc : s.cachedSetDifficulty with
          | some t =>
              refine ⟨5, ?_⟩
              rw [hc] at hdifficulty
              constructor <;>
                simp [List.replicate_succ, step, serverStep, notifySection,
                  Sv1Server.handleSv1ServerMessage, Sv1Server.applyPendingTarget, *]
          | none =>
              refine ⟨4, ?_⟩
              rw [hc] at hdifficulty
              constructor <;>
                simp [List.replicate_succ, step, serverStep, notifySection,
                  Sv1Server.handleSv1ServerMessage, *]

/-- Run alone from one end to the other, the steps of the server task are
`handle_sv1_handshake_completion`. -/
theorem Represents.handshake_completion {s : Handshake} {data : DownstreamData}
    {queue : List Notification} (h : Represents s data queue) (now : Nat) :
    ∃ steps, Represents (exec step s (List.replicate steps .completion))
      (Sv1Server.handleSv1HandshakeCompletion now data) queue := by
  obtain ⟨hcomplete, hdifficulty, hnotify, hminer, hqueue, hserver, hcompletion⟩ := h
  replace hdifficulty := hdifficulty.symm
  replace hnotify := hnotify.symm
  cases hc : s.cachedSetDifficulty with
  | some t =>
      rw [hc] at hdifficulty
      cases hn : s.cachedNotify with
      | some n =>
          rw [hn] at hnotify
          refine ⟨5, ?_⟩
          constructor <;>
            simp [List.replicate_succ, step, completionStep, taken, afterDifficulty,
              Sv1Server.handleSv1HandshakeCompletion, Sv1Server.applyPendingTarget, *]
      | none =>
          rw [hn] at hnotify
          refine ⟨3, ?_⟩
          constructor <;>
            simp [List.replicate_succ, step, completionStep, taken, afterDifficulty,
              Sv1Server.handleSv1HandshakeCompletion, Sv1Server.applyPendingTarget, *]
  | none =>
      rw [hc] at hdifficulty
      cases hn : s.cachedNotify with
      | some n =>
          rw [hn] at hnotify
          refine ⟨3, ?_⟩
          constructor <;>
            simp [List.replicate_succ, step, completionStep, taken, afterDifficulty,
              Sv1Server.handleSv1HandshakeCompletion, *]
      | none =>
          rw [hn] at hnotify
          refine ⟨1, ?_⟩
          constructor <;>
            simp [step, completionStep, taken, afterDifficulty,
              Sv1Server.handleSv1HandshakeCompletion, *]

end Handshake

end GridPoolSv2.Translator
