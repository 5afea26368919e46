import GridPoolSv2.Lib.Runs
import GridPoolSv2.Lib.Tally
import GridPoolSv2.Pool.History

/-!
# Pool.Telemetry: what the pool tells the node about shares

The model of `record_telemetry` and `flush_telemetry` of `pool/src/lib/gridpool.rs`, on top
of the channel manager whose channels the shares come from.

A share is added to the aggregate of its key `"{channel_id}:{payout_address}"`. A flush
takes all aggregates out of the map and posts one entry for each of them; the answer comes
later, and shares are recorded meanwhile.

* The key does not name the connection, and every connection numbers its channels from the
  same value. Shares of two connections are in one entry when they agree in channel id and
  payout address, as they do when both connections are paid to the fallback address.
  `one_channel_per_entry_iff` says which windows of shares this happens in.
* `window`, `history`, `delivered` and `lost` are **ghost** fields, and so are the shares of
  a post and the connection of a share: they say which shares are where. No function reads
  them.

The difficulties are numbers of an arbitrary type `F` with the operations the source uses
on `f64`. Times are milliseconds; the source writes them as text.

Proof shape: `Tallied` ties every aggregate to the shares of its key in the window, with the
rules of `Lib.Tally`. Which shares are in one entry is then a question about keys only, and two
keys are equal exactly if channel id and address are (`telemetryKey_eq_iff`).
-/

namespace GridPoolSv2.Pool

open Payout (Text)
open Runs (exec)

/-! ### Aggregates -/

/-- `TelemetryDelta`. -/
structure TelemetryDelta (F : Type) where
  channelId : ChannelId
  payoutAddress : Text
  username : Text
  accepted : Bool
  workDifficulty : F
  achievedDifficulty : F
  feeWork : Bool
  deriving DecidableEq

/-- A call of `record_telemetry` with the time it reads; the connection is a ghost. -/
structure RecordedShare (F : Type) extends TelemetryDelta F where
  downstream : DownstreamId
  now : Nat
  deriving DecidableEq

/-- `TelemetryAggregate`. -/
structure TelemetryAggregate (F : Type) where
  channelId : ChannelId
  payoutAddress : Text
  username : Text
  windowStartMs : Nat
  windowEndMs : Nat
  acceptedShareCount : Nat
  rejectedShareCount : Nat
  acceptedWorkDifficulty : F
  feeWorkDifficulty : F
  bestDifficulty : F
  deriving DecidableEq

/-- `TelemetryEntry`. -/
structure TelemetryEntry (F : Type) where
  channelId : Text
  payoutAddress : Text
  username : Text
  windowStart : Nat
  windowEnd : Nat
  acceptedShareCount : Nat
  rejectedShareCount : Nat
  acceptedWorkDifficulty : F
  feeWorkDifficulty : F
  bestDifficulty : F
  deriving DecidableEq

/-- `u32::to_string`. -/
def decimal (n : Nat) : Text :=
  Nat.toDigits 10 n

/-- The key of a share: `format!("{}:{}", channel_id, payout_address)`. -/
def telemetryKey {F : Type} (x : RecordedShare F) : Text :=
  decimal x.channelId ++ ':' :: x.payoutAddress

/-- What `record_telemetry` makes of the aggregate of a share's key. -/
def addShare {F : Type} [Zero F] [Add F] [Max F] (old : Option (TelemetryAggregate F))
    (x : RecordedShare F) : TelemetryAggregate F :=
  let aggregate := old.getD
    { channelId := x.channelId
      payoutAddress := x.payoutAddress
      username := x.username
      windowStartMs := x.now
      windowEndMs := 0
      acceptedShareCount := 0
      rejectedShareCount := 0
      acceptedWorkDifficulty := 0
      feeWorkDifficulty := 0
      bestDifficulty := 0 }
  let aggregate := { aggregate with windowEndMs := x.now, username := x.username }
  if x.accepted then
    { aggregate with
      acceptedShareCount := aggregate.acceptedShareCount + 1
      acceptedWorkDifficulty := aggregate.acceptedWorkDifficulty + max x.workDifficulty 0
      feeWorkDifficulty :=
        if x.feeWork then aggregate.feeWorkDifficulty + max x.workDifficulty 0
        else aggregate.feeWorkDifficulty
      bestDifficulty := max aggregate.bestDifficulty x.achievedDifficulty }
  else { aggregate with rejectedShareCount := aggregate.rejectedShareCount + 1 }

/-- The entry of an aggregate in a batch. -/
def TelemetryAggregate.entry {F : Type} (item : TelemetryAggregate F) : TelemetryEntry F where
  channelId := decimal item.channelId
  payoutAddress := item.payoutAddress
  username := item.username
  windowStart := item.windowStartMs
  windowEnd := max item.windowEndMs item.windowStartMs
  acceptedShareCount := item.acceptedShareCount
  rejectedShareCount := item.rejectedShareCount
  acceptedWorkDifficulty := item.acceptedWorkDifficulty
  feeWorkDifficulty := item.feeWorkDifficulty
  bestDifficulty := item.bestDifficulty

abbrev TelemetryMap (F : Type) := AList fun _ : Text => TelemetryAggregate F

/-- `record_telemetry`. -/
def recordTelemetry {F : Type} [Zero F] [Add F] [Max F] (telemetry : TelemetryMap F)
    (x : RecordedShare F) : TelemetryMap F :=
  Tally.record telemetryKey addShare telemetry x

/-- The entries of a drained map. -/
def telemetryBatch {F : Type} (telemetry : TelemetryMap F) : List (TelemetryEntry F) :=
  telemetry.entries.map fun e => e.2.entry

/-! ### Runs -/

/-- A batch on its way to the node, with the shares it was made from. -/
structure TelemetryPost (F : Type) where
  batch : List (TelemetryEntry F)
  shares : List (RecordedShare F)
  deriving DecidableEq

/-- How a post ends: with a success status, with another status, or without an answer. Whether the
node has taken the batch in is known in the first two cases only. -/
inductive PostResult where
  | success
  | rejected (status : Nat)
  | failed (taken : Bool)
  deriving Repr, DecidableEq

/-- The node has accepted the batch. -/
def PostResult.accepted : PostResult → Bool
  | .success => true
  | .rejected _ => false
  | .failed taken => taken

/-- What a handler found out about a share. -/
inductive ShareVerdict (F : Type) where
  | rejected
  | accepted (workDifficulty achievedDifficulty : F) (feeWork : Bool)
  deriving DecidableEq

/-- The channel manager and the telemetry of its GridPool client. -/
structure TelemetryPool (env : Env) (F : Type) where
  manager : ChannelManager env.channels
  telemetry : TelemetryMap F := ∅
  /-- The posts that have no answer yet. -/
  posts : List (TelemetryPost F) := []
  /-- Ghost: the shares recorded since the map was drained, newest first. -/
  window : List (RecordedShare F) := []
  /-- Ghost: all shares recorded. -/
  history : List (RecordedShare F) := []
  /-- Ghost: the posts the node has accepted. -/
  delivered : List (TelemetryPost F) := []
  /-- Ghost: the posts that ended without that. -/
  lost : List (TelemetryPost F) := []

namespace TelemetryPool

variable {env : Env} {F : Type}

inductive Event (F : Type) where
  | manage (e : ChannelManager.Event)
  | share (k : ChannelKind) (d : DownstreamId) (c : ChannelId) (verdict : ShareVerdict F)
      (now : Nat)
  | flush
  | answer (i : Nat) (result : PostResult)

/-- The delta `handle_submit_shares_standard` and `handle_submit_shares_extended` record. -/
def delta [Zero F] (c : ChannelId) (payout : ChannelPayout) : ShareVerdict F → TelemetryDelta F
  | .rejected => ⟨c, payout.payoutAddress, payout.username, false, 0, 0, false⟩
  | .accepted workDifficulty achievedDifficulty feeWork =>
      ⟨c, payout.payoutAddress, payout.username, true, workDifficulty, achievedDifficulty, feeWork⟩

variable [Zero F] [Add F] [Max F]

/-- A share of an open channel with a GridPool payout is recorded. -/
def handleShare (s : TelemetryPool env F) (k : ChannelKind) (d : DownstreamId) (c : ChannelId)
    (verdict : ShareVerdict F) (now : Nat) : TelemetryPool env F :=
  match s.manager.channel? d k c, s.manager.gridpool, s.manager.gridpoolChannels (d, c) with
  | some _, some _, some payout =>
      let x : RecordedShare F := { delta c payout verdict with downstream := d, now := now }
      { s with
        telemetry := recordTelemetry s.telemetry x
        window := x :: s.window
        history := x :: s.history }
  | _, _, _ => s

/-- `flush_telemetry`, up to the answer of the node. -/
def flushTelemetry (s : TelemetryPool env F) : TelemetryPool env F :=
  if s.telemetry.entries = [] then s
  else
    { s with
      telemetry := ∅
      posts := s.posts ++ [⟨telemetryBatch s.telemetry, s.window⟩]
      window := [] }

/-- The rest of `flush_telemetry`: an error is logged. -/
def handleAnswer (s : TelemetryPool env F) (i : Nat) (result : PostResult) : TelemetryPool env F :=
  match s.posts[i]? with
  | none => s
  | some p =>
      let s := { s with posts := s.posts.eraseIdx i }
      if result.accepted then { s with delivered := p :: s.delivered }
      else { s with lost := p :: s.lost }

def step (s : TelemetryPool env F) : Event F → TelemetryPool env F
  | .manage e => { s with manager := s.manager.step e }
  | .share k d c verdict now => s.handleShare k d c verdict now
  | .flush => s.flushTelemetry
  | .answer i result => s.handleAnswer i result

omit [Zero F] [Add F] [Max F] in
def initial (manager : ChannelManager env.channels) : TelemetryPool env F :=
  { manager := manager }

end TelemetryPool

/-! ### Keys and counts -/

theorem colon_not_mem_decimal (n : Nat) : ':' ∉ decimal n := by
  intro h
  have hdigit := Nat.isDigit_of_mem_toDigits (by decide) (by decide) h
  revert hdigit
  decide

theorem decimal_injective : Function.Injective decimal := by
  intro m n h
  have hvalue := congrArg (fun digits => Nat.ofDigitChars 10 digits 0) h
  simpa only [decimal, Nat.ofDigitChars_ten_toDigits] using hvalue

/-- The digits before the first colon are the channel id, the rest is the address. -/
theorem telemetryKey_eq_iff {F : Type} {x y : RecordedShare F} :
    telemetryKey x = telemetryKey y ↔
      x.channelId = y.channelId ∧ x.payoutAddress = y.payoutAddress := by
  constructor
  · intro h
    have htake : ∀ z : RecordedShare F,
        (telemetryKey z).takeWhile (· ≠ ':') = decimal z.channelId := by
      intro z
      have hdigits : ∀ c ∈ decimal z.channelId, decide (c ≠ ':') = true := by
        intro c hc
        exact decide_eq_true fun hcolon => colon_not_mem_decimal _ (hcolon ▸ hc)
      rw [telemetryKey, List.takeWhile_append_of_pos hdigits,
        List.takeWhile_cons_of_neg (by decide), List.append_nil]
    have hdecimal : decimal x.channelId = decimal y.channelId := by rw [← htake x, ← htake y, h]
    rw [telemetryKey, telemetryKey, hdecimal] at h
    exact ⟨decimal_injective hdecimal, (List.cons.inj (List.append_cancel_left h)).2⟩
  · rintro ⟨hchannel, haddress⟩
    rw [telemetryKey, telemetryKey, hchannel, haddress]

/-- An entry counts a share: it has the channel id and the payout address of the share. -/
def CountedIn {F : Type} (entry : TelemetryEntry F) (x : RecordedShare F) : Prop :=
  entry.channelId = decimal x.channelId ∧ entry.payoutAddress = x.payoutAddress

instance {F : Type} (entry : TelemetryEntry F) (x : RecordedShare F) :
    Decidable (CountedIn entry x) :=
  inferInstanceAs (Decidable (_ ∧ _))

section Counts

variable {F : Type} [Zero F] [Add F] [Max F]

theorem addShare_username (old : Option (TelemetryAggregate F)) (x : RecordedShare F) :
    (addShare old x).username = x.username := by
  unfold addShare
  dsimp only
  split <;> rfl

theorem addShare_accepted (old : Option (TelemetryAggregate F)) (x : RecordedShare F) :
    (addShare old x).acceptedShareCount =
      old.elim 0 (·.acceptedShareCount) + if x.accepted == true then 1 else 0 := by
  unfold addShare
  cases old <;> cases haccepted : x.accepted <;> simp [Option.elim]

theorem addShare_rejected (old : Option (TelemetryAggregate F)) (x : RecordedShare F) :
    (addShare old x).rejectedShareCount =
      old.elim 0 (·.rejectedShareCount) + if x.accepted == false then 1 else 0 := by
  unfold addShare
  cases old <;> cases haccepted : x.accepted <;> simp [Option.elim]

/-- The identity of an aggregate is that of its first share. -/
theorem addShare_key (old : Option (TelemetryAggregate F)) (x : RecordedShare F) :
    (addShare old x).channelId = old.elim x.channelId (·.channelId) ∧
      (addShare old x).payoutAddress = old.elim x.payoutAddress (·.payoutAddress) := by
  unfold addShare
  cases old <;> dsimp only [Option.getD, Option.elim] <;> split <;> exact ⟨rfl, rfl⟩

/-- Shares with one key add up to an aggregate with their channel id and payout address. -/
theorem summary_key {k : Text} {xs : List (RecordedShare F)} {v : TelemetryAggregate F}
    (hkey : ∀ x ∈ xs, telemetryKey x = k) (hv : Tally.summary addShare xs = some v) :
    ∀ x ∈ xs, v.channelId = x.channelId ∧ v.payoutAddress = x.payoutAddress := by
  induction xs generalizing v with
  | nil => exact nofun
  | cons x older ih =>
      obtain rfl := Option.some.inj hv
      obtain ⟨hx, holder⟩ := List.forall_mem_cons.mp hkey
      obtain ⟨hchannel, haddress⟩ := addShare_key (Tally.summary addShare older) x
      cases hold : Tally.summary addShare older with
      | none =>
          rw [hold] at hchannel haddress
          have hnil : older = [] := by
            cases older with
            | nil => rfl
            | cons y older => cases hold
          subst hnil
          exact List.forall_mem_singleton.mpr ⟨hchannel, haddress⟩
      | some u =>
          rw [hold] at hchannel haddress
          have hu := ih holder hold
          obtain ⟨y, hy⟩ : ∃ y, y ∈ older := by
            cases older with
            | nil => cases hold
            | cons y older => exact ⟨y, List.mem_cons_self⟩
          have hxy := telemetryKey_eq_iff.mp (hx.trans (holder y hy).symm)
          refine List.forall_mem_cons.mpr ⟨?_, ?_⟩
          · exact ⟨hchannel.trans ((hu y hy).1.trans hxy.1.symm),
              haddress.trans ((hu y hy).2.trans hxy.2.symm)⟩
          · intro z hz
            exact ⟨hchannel.trans (hu z hz).1, haddress.trans (hu z hz).2⟩

/-- The aggregate of a share's key has the identity of the share. -/
theorem summarizes_counted {m : TelemetryMap F} {xs : List (RecordedShare F)}
    (h : Tally.Summarizes telemetryKey addShare m xs) {k : Text} {v : TelemetryAggregate F}
    (hv : m.lookup k = some v) {x : RecordedShare F} (hx : x ∈ xs) :
    telemetryKey x = k ↔ CountedIn v.entry x := by
  obtain ⟨y, older, hfilter, -⟩ := h.eq_some hv
  have hkey : ∀ z ∈ xs.filter (fun x => telemetryKey x = k), telemetryKey z = k := by
    intro z hz
    simpa using (List.mem_filter.mp hz).2
  have hidentity := summary_key hkey ((h k).symm.trans hv)
  have hy : y ∈ xs.filter fun x => telemetryKey x = k := by
    rw [hfilter]
    exact List.mem_cons_self
  constructor
  · intro hxk
    have hmem : x ∈ xs.filter fun x => telemetryKey x = k :=
      List.mem_filter.mpr ⟨hx, by simpa using hxk⟩
    obtain ⟨hchannel, haddress⟩ := hidentity x hmem
    exact ⟨congrArg decimal hchannel, haddress⟩
  · rintro ⟨hchannel, haddress⟩
    obtain ⟨hchannel', haddress'⟩ := hidentity y hy
    rw [← hkey y hy]
    refine telemetryKey_eq_iff.mpr ⟨?_, haddress.symm.trans haddress'⟩
    exact (decimal_injective hchannel).symm.trans hchannel'

end Counts

/-! ### What is in a batch -/

/-- The batch of a post is what its shares add up to, and there is at least one. -/
structure Summed {F : Type} [Zero F] [Add F] [Max F] (p : TelemetryPost F) : Prop where
  nonempty : p.shares ≠ []
  batch : ∃ m, Tally.Summarizes telemetryKey addShare m p.shares ∧ p.batch = telemetryBatch m

namespace Summed

variable {F : Type} [Zero F] [Add F] [Max F] {p : TelemetryPost F} {entry : TelemetryEntry F}

/-- An entry has a share, carries the name of the last one, and counts those that agree with it. -/
theorem entry_shares (h : Summed p) (hentry : entry ∈ p.batch) :
    (∃ x ∈ p.shares, CountedIn entry x ∧ entry.username = x.username) ∧
      entry.acceptedShareCount = p.shares.countP (fun x => CountedIn entry x ∧ x.accepted = true) ∧
      entry.rejectedShareCount =
        p.shares.countP (fun x => CountedIn entry x ∧ x.accepted = false) := by
  obtain ⟨m, hm, hbatch⟩ := h.batch
  rw [hbatch] at hentry
  obtain ⟨⟨k, v⟩, hmem, rfl⟩ := List.mem_map.mp hentry
  have hv : m.lookup k = some v := AList.mem_lookup_iff.mpr hmem
  obtain ⟨y, older, hfilter, hvalue⟩ := hm.eq_some hv
  have hy : y ∈ p.shares ∧ telemetryKey y = k := by
    have hmem : y ∈ p.shares.filter fun x => telemetryKey x = k := by
      rw [hfilter]
      exact List.mem_cons_self
    simpa using List.mem_filter.mp hmem
  have hcount : ∀ (f : TelemetryAggregate F → Nat) (b : Bool),
      (∀ old x, f (addShare old x) = old.elim 0 f + if x.accepted == b then 1 else 0) →
      f v = p.shares.countP fun x => CountedIn v.entry x ∧ x.accepted = b := by
    intro f b hf
    have hcounted := Tally.summary_count hf (p.shares.filter fun x => telemetryKey x = k)
    rw [← hm k, hv, Option.elim_some, List.countP_filter] at hcounted
    rw [hcounted]
    refine List.countP_congr ?_
    intro x hx
    have hkey := summarizes_counted hm hv hx
    simp [hkey, and_comm]
  refine ⟨⟨y, hy.1, (summarizes_counted hm hv hy.1).mp hy.2, ?_⟩, ?_, ?_⟩
  · rw [hvalue]
    exact addShare_username _ y
  · exact hcount _ true addShare_accepted
  · exact hcount _ false addShare_rejected

/-- Every share is counted in an entry. -/
theorem exists_entry (h : Summed p) {x : RecordedShare F} (hx : x ∈ p.shares) :
    ∃ entry ∈ p.batch, CountedIn entry x := by
  obtain ⟨m, hm, hbatch⟩ := h.batch
  obtain ⟨v, hv⟩ := hm.exists_lookup hx
  refine ⟨v.entry, ?_, (summarizes_counted hm hv hx).mp rfl⟩
  rw [hbatch]
  exact List.mem_map.mpr ⟨⟨_, v⟩, AList.mem_lookup_iff.mp hv, rfl⟩

end Summed

namespace TelemetryPool

variable {env : Env} {F : Type}

/-- The posts made so far. -/
def sent (s : TelemetryPool env F) : List (TelemetryPost F) :=
  s.posts ++ (s.delivered ++ s.lost)

/-- Answering moves a post. -/
theorem perm_answered {s : TelemetryPool env F} {i : Nat} {p : TelemetryPost F}
    (hp : s.posts[i]? = some p) : (p :: s.posts.eraseIdx i).Perm s.posts := by
  obtain ⟨hi, rfl⟩ := List.getElem?_eq_some_iff.mp hp
  exact List.getElem_cons_eraseIdx_perm hi

theorem sent_handleAnswer (s : TelemetryPool env F) (i : Nat) (result : PostResult) :
    (s.handleAnswer i result).sent.Perm s.sent := by
  unfold handleAnswer sent
  cases hp : s.posts[i]? with
  | none => exact List.Perm.refl _
  | some p =>
      have hperm := (perm_answered hp).append_right (s.delivered ++ s.lost)
      dsimp only
      split
      · exact List.perm_middle.trans hperm
      · refine List.Perm.trans ?_ hperm
        refine List.Perm.trans (List.Perm.append_left _ List.perm_middle) ?_
        exact List.perm_middle

theorem handleAnswer_frame (s : TelemetryPool env F) (i : Nat) (result : PostResult) :
    (s.handleAnswer i result).telemetry = s.telemetry ∧
      (s.handleAnswer i result).window = s.window ∧
      (s.handleAnswer i result).history = s.history := by
  unfold handleAnswer
  cases s.posts[i]? with
  | none => exact ⟨rfl, rfl, rfl⟩
  | some p =>
      dsimp only
      split <;> exact ⟨rfl, rfl, rfl⟩

variable [Zero F] [Add F] [Max F]

/-- The map is what the shares of the open window add up to, and so is every batch. -/
structure Tallied (s : TelemetryPool env F) : Prop where
  window : Tally.Summarizes telemetryKey addShare s.telemetry s.window
  sent : ∀ p ∈ s.sent, Summed p

/-- A share is added to the aggregate of its key. -/
theorem Tallied.handleShare {s : TelemetryPool env F} (h : Tallied s) (k : ChannelKind)
    (d : DownstreamId) (c : ChannelId) (verdict : ShareVerdict F) (now : Nat) :
    Tallied (s.handleShare k d c verdict now) := by
  unfold TelemetryPool.handleShare
  split
  · exact ⟨h.window.record _, h.sent⟩
  · exact h

theorem Tallied.flushTelemetry {s : TelemetryPool env F} (h : Tallied s) :
    Tallied s.flushTelemetry := by
  unfold TelemetryPool.flushTelemetry
  split
  · exact h
  · rename_i hne
    refine ⟨Tally.summarizes_empty, ?_⟩
    intro p hp
    simp only [TelemetryPool.sent, List.append_assoc, List.mem_append, List.mem_singleton] at hp
    rcases hp with hp | rfl | hp | hp
    · exact h.sent p (List.mem_append_left _ hp)
    · refine ⟨?_, s.telemetry, h.window, rfl⟩
      -- an aggregate has a share
      intro hnil
      obtain ⟨⟨k, v⟩, hmem⟩ := List.exists_mem_of_ne_nil _ hne
      obtain ⟨y, older, hfilter, -⟩ := h.window.eq_some (AList.mem_lookup_iff.mpr hmem)
      dsimp only at hnil
      rw [hnil] at hfilter
      cases hfilter
    · exact h.sent p (List.mem_append_right _ (List.mem_append_left _ hp))
    · exact h.sent p (List.mem_append_right _ (List.mem_append_right _ hp))

theorem Tallied.handleAnswer {s : TelemetryPool env F} (h : Tallied s) (i : Nat)
    (result : PostResult) : Tallied (s.handleAnswer i result) := by
  obtain ⟨htelemetry, hwindow, -⟩ := s.handleAnswer_frame i result
  refine ⟨?_, ?_⟩
  · rw [htelemetry, hwindow]
    exact h.window
  · intro p hp
    exact h.sent p ((s.sent_handleAnswer i result).mem_iff.mp hp)

theorem tallied_step {s : TelemetryPool env F} (h : Tallied s) (e : Event F) :
    Tallied (s.step e) := by
  cases e with
  | manage e => exact ⟨h.window, h.sent⟩
  | share k d c verdict now => exact h.handleShare k d c verdict now
  | flush => exact h.flushTelemetry
  | answer i result => exact h.handleAnswer i result

theorem tallied_exec (manager : ChannelManager env.channels) (es : List (Event F)) :
    Tallied (exec step (initial manager) es) :=
  Runs.exec_invariant (I := Tallied) (fun _ e h => tallied_step h e)
    ⟨Tally.summarizes_empty, fun _ hp => by cases hp⟩ es

end TelemetryPool

/-! ### One channel for each entry -/

/-- The shares an entry counts are of one channel of one connection, whose username it carries. -/
def OfOneChannel {F : Type} (shares : List (RecordedShare F)) (entry : TelemetryEntry F) : Prop :=
  ∃ d c, ∀ x ∈ shares, CountedIn entry x →
    x.downstream = d ∧ x.channelId = c ∧ x.username = entry.username

/-- No two shares with the same channel id and payout address differ in connection or username. -/
def SharesApart {F : Type} (shares : List (RecordedShare F)) : Prop :=
  ∀ x ∈ shares, ∀ y ∈ shares, x.channelId = y.channelId → x.payoutAddress = y.payoutAddress →
    x.downstream = y.downstream ∧ x.username = y.username

instance {F : Type} (shares : List (RecordedShare F)) : Decidable (SharesApart shares) :=
  inferInstanceAs (Decidable (∀ x ∈ shares, ∀ y ∈ shares, _ → _ → _ ∧ _))

/-- The entries of every post count its shares, and each entry is of one channel **exactly** when
the shares are apart. -/
theorem one_channel_per_entry_iff {env : Env} {F : Type} [Zero F] [Add F] [Max F]
    {manager : ChannelManager env.channels} {es : List (TelemetryPool.Event F)}
    {p : TelemetryPost F}
    (hp : p ∈ (exec TelemetryPool.step (TelemetryPool.initial manager) es).sent) :
    (∀ entry ∈ p.batch,
      entry.acceptedShareCount = p.shares.countP (fun x => CountedIn entry x ∧ x.accepted = true) ∧
      entry.rejectedShareCount =
        p.shares.countP (fun x => CountedIn entry x ∧ x.accepted = false)) ∧
    ((∀ entry ∈ p.batch, OfOneChannel p.shares entry) ↔ SharesApart p.shares) := by
  have hsummed := (TelemetryPool.tallied_exec manager es).sent p hp
  refine ⟨fun entry hentry => (hsummed.entry_shares hentry).2, ?_, ?_⟩
  · intro hone x hx y hy hchannel haddress
    obtain ⟨entry, hentry, hcounted⟩ := hsummed.exists_entry hx
    obtain ⟨d, c, hof⟩ := hone entry hentry
    have hcounted' : CountedIn entry y := by
      rw [CountedIn, ← hchannel, ← haddress]
      exact hcounted
    obtain ⟨rfl, rfl, hx'⟩ := hof x hx hcounted
    obtain ⟨hd, -, hy'⟩ := hof y hy hcounted'
    exact ⟨hd.symm, hx'.trans hy'.symm⟩
  · intro hapart entry hentry
    obtain ⟨⟨y, hy, hcounted, husername⟩, -⟩ := hsummed.entry_shares hentry
    refine ⟨y.downstream, y.channelId, ?_⟩
    intro x hx hx'
    have hchannel := decimal_injective (hx'.1.symm.trans hcounted.1)
    obtain ⟨hd, hname⟩ := hapart x hx y hy hchannel (hx'.2.symm.trans hcounted.2)
    exact ⟨hd, hchannel, hname.trans husername.symm⟩

/-- Two connections open one channel each, under the given identities, and send one share. -/
def twoConnections (first second : Text) : List (TelemetryPool.Event Nat) :=
  [.manage (.newTemplate (Reference.template 1 true 5000000000) (fun _ => .error "unreachable")
      (fun _ _ => 0)),
    .manage (.setNewPrevHash (Reference.prevHash 1 1)),
    .manage (.connect false false), .manage (.connect false false),
    .manage (.openChannel .extended 1 { Reference.openRequest with userIdentity := first }
      (.ok [1, 2, 3, 4]) 0),
    .manage (.openChannel .extended 2 { Reference.openRequest with userIdentity := second }
      (.ok [1, 2, 3, 5]) 0),
    .share .extended 1 2 (.accepted 8 16 false) 1000,
      .share .extended 2 2 (.accepted 8 32 false) 2000,
    .flush]

/-- The share of a connection's first channel, paid to an address. -/
def firstShare (d : DownstreamId) (payout : ChannelPayout) (achieved now : Nat) :
    RecordedShare Nat where
  channelId := 2
  payoutAddress := payout.payoutAddress
  username := payout.username
  accepted := true
  workDifficulty := 8
  achievedDifficulty := achieved
  feeWork := false
  downstream := d
  now := now

/-- Two connections with addresses of their own are in two entries. -/
theorem two_addresses_two_entries :
    ∃ p, (exec TelemetryPool.step (TelemetryPool.initial Reference.manager)
        (twoConnections Reference.operatorAddress "garage-rig".toList)).sent = [p] ∧
      p.batch.length = 2 ∧ ∀ entry ∈ p.batch, OfOneChannel p.shares entry := by
  have hsent : ∃ p, (exec TelemetryPool.step (TelemetryPool.initial Reference.manager)
      (twoConnections Reference.operatorAddress "garage-rig".toList)).sent = [p] :=
    List.length_eq_one_iff.mp (by decide +kernel)
  obtain ⟨p, hp⟩ := hsent
  have hall : ∀ p ∈ (exec TelemetryPool.step (TelemetryPool.initial Reference.manager)
      (twoConnections Reference.operatorAddress "garage-rig".toList)).sent,
      p.batch.length = 2 ∧ SharesApart p.shares := by decide +kernel
  have hmem : p ∈ (exec TelemetryPool.step (TelemetryPool.initial Reference.manager)
      (twoConnections Reference.operatorAddress "garage-rig".toList)).sent := by
    rw [hp]
    exact List.mem_singleton_self p
  obtain ⟨hlen, hapart⟩ := hall p hmem
  exact ⟨p, hp, hlen, (one_channel_per_entry_iff hmem).2.mpr hapart⟩

/-- One entry for the shares of two connections, under the name of the second. -/
def mergedEntry : TelemetryEntry Nat where
  channelId := ['2']
  payoutAddress := Reference.fallbackAddress
  username := "garage-rig".toList
  windowStart := 1000
  windowEnd := 2000
  acceptedShareCount := 2
  rejectedShareCount := 0
  acceptedWorkDifficulty := 16
  feeWorkDifficulty := 0
  bestDifficulty := 32

def mergedPost : TelemetryPost Nat where
  batch := [mergedEntry]
  shares :=
    [firstShare 2 ⟨Reference.fallbackAddress, "garage-rig".toList⟩ 32 2000,
      firstShare 1 ⟨Reference.fallbackAddress, "attic-rig".toList⟩ 16 1000]

/-- Both connections are paid to the fallback address, and their first channels have one number. -/
theorem two_connections_one_entry :
    (exec TelemetryPool.step (TelemetryPool.initial Reference.manager)
        (twoConnections "attic-rig".toList "garage-rig".toList)).sent = [mergedPost] ∧
      ¬∀ entry ∈ mergedPost.batch, OfOneChannel mergedPost.shares entry := by
  refine ⟨by decide +kernel, ?_⟩
  intro h
  obtain ⟨d, c, hof⟩ := h mergedEntry (List.mem_singleton_self _)
  have hsecond := hof _ List.mem_cons_self ⟨rfl, rfl⟩
  have hfirst := hof _ (List.mem_cons_of_mem _ List.mem_cons_self) ⟨rfl, rfl⟩
  have hboth : (2 : Nat) = 1 := hsecond.1.trans hfirst.1.symm
  cases hboth

end GridPoolSv2.Pool
