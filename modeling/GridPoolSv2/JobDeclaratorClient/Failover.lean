import GridPoolSv2.JobDeclaratorClient.ChannelManager
import GridPoolSv2.Lib.Failover
import GridPoolSv2.Lib.Runs
import GridPoolSv2.Payout.PayoutMode

/-!
# JobDeclaratorClient.Failover: pools, job declarators, and mining alone

The model of `initialize_jd` and of the main loop of `start` (`jd-client/src/lib/mod.rs`), with
`JDMode` (`jd_mode.rs`). The client searches its list for a pool and job declarator that both take
it, again after each loss, and mines alone while it has none.

* `connects n` is what comes of the `n`-th attempt to connect in the life of the client, and
  `cancelled n` what the `n`-th look at the shutdown token shows.
* `mode` is written by the main loop and, when the job declarator accepts the connection, by its
  task (`activate`). `upstreamState` is written by the main loop and by the channel manager.
* The manager's identity is a `OnceLock`: a second `set` panics, and so does a read before the
  first (`readIdentity`). The channel manager reads it when it opens the upstream channel, when the
  pool has opened it, and with each token it asks the job declarator for.
* A fallback makes a new channel manager, which runs before a pair is found and also when none is,
  but the connection to the template provider stays. The answers to requests of the old manager
  (`awaited`) come in at the new one, which asks for a token then. What the main loop does after a
  connection, from `set_user_identity` to `NoChannel`, is one step.

`pairs_in_turn` is about the whole life of a client: an identity is read before it is set by such an
answer only (`AnsweredUnset`), as in `answer_after_fallback_panics`. `solo_forever` is about the
client that has come to the end of its list.

Proof shape: `initializeJd_pass` makes the search an instance of the general one; `Coordinated` is
the invariant of the main loop, kept by each event, and `panicked_step_iff` says of one event under
this invariant what `pairs_in_turn` says of a run.
-/

namespace GridPoolSv2.JobDeclaratorClient

open Failover (Begun Ending Kept Pass Settled Tried attempts)
open Payout (Text)
open Runs (Along exec)

structure UpstreamEntry where
  triedOrFlagged : Bool := false
  userIdentity : Text
  deriving Repr, DecidableEq

structure FailoverEnv where
  connects : Nat → Bool
  cancelled : Nat → Bool

/-- How the attempts at one pair end. -/
inductive Retried where
  | next
  | ok
  | cancelled
  deriving Repr, DecidableEq

def maxRetries : Nat := 3

/-- The attempts that are left at pair `i`; the token is looked at before each one and after one
that fails. -/
def retrySingle (env : FailoverEnv) (i : Nat) :
    Nat → List (Nat × Bool) → Nat → Retried × List (Nat × Bool) × Nat
  | 0, log, checks => (.next, log, checks)
  | left + 1, log, checks =>
      if env.cancelled checks then (.cancelled, log, checks + 1)
      else if env.connects log.length then (.ok, log ++ [(i, true)], checks + 1)
      else if env.cancelled (checks + 1) then (.cancelled, log ++ [(i, false)], checks + 2)
      else retrySingle env i left (log ++ [(i, false)]) (checks + 2)

/-- The result of `initialize_jd`; both failures are `CouldNotInitiateSystem`. -/
inductive InitializedJd where
  | ok (i : Nat) (userIdentity : Text)
  | exhausted
  | cancelled
  deriving Repr, DecidableEq

structure Search where
  result : InitializedJd
  upstreams : List UpstreamEntry
  log : List (Nat × Bool)
  checks : Nat

/-- `initialize_jd`, from the pair with number `i` on. -/
def initializeJd (env : FailoverEnv) :
    Nat → List UpstreamEntry → List (Nat × Bool) → Nat → Search
  | _, [], log, checks => { result := .exhausted, upstreams := [], log, checks }
  | i, e :: es, log, checks =>
      if env.cancelled checks then
        { result := .cancelled, upstreams := e :: es, log, checks := checks + 1 }
      else if e.triedOrFlagged then
        let r := initializeJd env (i + 1) es log (checks + 1)
        { r with upstreams := e :: r.upstreams }
      else
        match retrySingle env i maxRetries log (checks + 1) with
        | (.next, log, checks) =>
            let r := initializeJd env (i + 1) es log checks
            { r with upstreams := { e with triedOrFlagged := true } :: r.upstreams }
        | (.ok, log, checks) =>
            { result := .ok i e.userIdentity
              upstreams := { e with triedOrFlagged := true } :: es
              log
              checks }
        | (.cancelled, log, checks) =>
            { result := .cancelled, upstreams := e :: es, log, checks }

/-- What the main loop shares with the channel manager. -/
structure ManagerCell where
  userIdentity : Option Text := none
  upstreamState : UpstreamState := .soloMining
  /-- The length of `allocate_tokens`. -/
  tokens : Nat := 0
  deriving Repr, DecidableEq

/-- The panics of `set_user_identity` and `user_identity`. -/
inductive IdentityPanic where
  | alreadySet
  | notSet
  deriving Repr, DecidableEq

structure DeclaratorClient where
  upstreams : List UpstreamEntry
  log : List (Nat × Bool) := []
  checks : Nat := 0
  mode : JDMode := .soloMining
  manager : ManagerCell := {}
  serving : Option Nat := none
  /-- The requests for a template's transactions that the template provider has not answered. -/
  awaited : Nat := 0
  stopped : Bool := false
  panicked : Option IdentityPanic := none

namespace DeclaratorClient

/-- The search, and what the main loop does with its result. -/
def connect (env : FailoverEnv) (s : DeclaratorClient) : DeclaratorClient :=
  let r := initializeJd env 0 s.upstreams s.log s.checks
  let s := { s with upstreams := r.upstreams, log := r.log, checks := r.checks }
  match r.result with
  | .ok i identity =>
      if s.manager.userIdentity.isSome then
        { s with panicked := some .alreadySet, stopped := true }
      else
        { s with
          manager := { userIdentity := some identity, upstreamState := .noChannel }
          serving := some i }
  | .exhausted =>
      { s with
        manager := { s.manager with upstreamState := .soloMining }, mode := .soloMining }
  | .cancelled =>
      { s with
        manager := { s.manager with upstreamState := .soloMining }
        mode := .soloMining
        stopped := true }

/-- `start`, up to the main loop. -/
def start (env : FailoverEnv) (configMode : JDMode) (identities : List Text)
    (monitoringStarts : Bool) : DeclaratorClient :=
  let s : DeclaratorClient := { upstreams := identities.map fun u => { userIdentity := u } }
  -- the token is cancelled when the monitoring server does not start
  let env := if monitoringStarts then env else { env with cancelled := fun _ => true }
  let s :=
    if configMode = .soloMining then s
    else if identities = [] then { s with stopped := true }
    else s.connect env
  { s with stopped := s.stopped || !monitoringStarts }

/-- `ChannelManager::user_identity`. A panic of the channel manager's task drops a fallback handler
that is not done, which panics too, so that the process is aborted. -/
def readIdentity (s : DeclaratorClient) : DeclaratorClient :=
  if s.manager.userIdentity.isNone then
    { s with panicked := some .notSet, stopped := true }
  else s

/-- The main loop, after a fallback: the new channel manager has left the upstream. -/
def fallenBack (s : DeclaratorClient) : DeclaratorClient :=
  { s with mode := .soloMining, manager := {}, serving := none }

/-- The search that ends when the token is looked at for the `checks`-th time, if it has not ended
before. -/
def searchUpTo (env : FailoverEnv) (checks : Nat) (s : DeclaratorClient) : Search :=
  initializeJd { env with cancelled := fun n => env.cancelled n || decide (checks ≤ n) } 0
    s.upstreams s.log s.checks

inductive Event where
  /-- The fallback token was cancelled and the old components are gone. -/
  | fallback (managerStarts monitoringStarts : Bool)
  /-- The same, and an answer of the template provider comes in while the pairs are tried. -/
  | answeredFallback (checks : Nat)
  | shutdown
  /-- The job declarator sent `SetupConnectionSuccess`. -/
  | activate
  /-- A downstream asks for a channel. -/
  | openUpstream
  /-- The pool sent `OpenExtendedMiningChannelSuccess`. The channel is `opened` when a downstream
  waits for it and its extranonce can be divided; `template` says whether there is one to
  declare. -/
  | upstreamSuccess (opened template : Bool)
  /-- The job declarator sent `AllocateMiningJobTokenSuccess`. -/
  | tokenAllocated
  /-- A template, a previous hash or the opened channel takes a token for the job it makes. -/
  | spendToken
  /-- The template provider sent a template. -/
  | newTemplate
  | requestTxDataSuccess
  | requestTxDataError
  deriving Repr, DecidableEq

/-- One step of the main loop or of a task, while neither token is cancelled. -/
def turn (env : FailoverEnv) (configMode : JDMode) (s : DeclaratorClient) : Event → DeclaratorClient
  | .fallback managerStarts monitoringStarts =>
      -- the old channel manager has left the upstream and dropped its tokens
      let manager := { s.manager with upstreamState := .soloMining, tokens := 0 }
      if managerStarts then
        let s := s.fallenBack.connect env
        { s with stopped := s.stopped || !monitoringStarts }
      else { s with mode := .soloMining, manager, serving := none, stopped := true }
  | .answeredFallback checks =>
      if s.awaited = 0 then s
      else
        let r := s.searchUpTo env checks
        -- a search that is over by then has been a fallback, and the answer comes after it
        if r.result = .cancelled then
          { s.fallenBack with
            upstreams := r.upstreams
            log := r.log
            checks := r.checks
            awaited := s.awaited - 1 }.readIdentity
        else s
  | .shutdown => { s with stopped := true }
  | .activate => if s.serving.isSome then { s with mode := configMode } else s
  | .openUpstream =>
      if s.manager.upstreamState = .noChannel then
        { s with manager := { s.manager with upstreamState := .pending } }.readIdentity
      else s
  | .upstreamSuccess opened template =>
      if s.mode = .soloMining then s
      else if opened then
        { s with
          manager := { s.manager with upstreamState := .connected }
          awaited := if s.mode = JDMode.fullTemplate ∧ template then s.awaited + 1 else s.awaited
        }.readIdentity
      else { s with manager := { s.manager with upstreamState := .noChannel } }
  | .tokenAllocated =>
      if s.mode = .soloMining then s
      else { s with manager := { s.manager with tokens := s.manager.tokens + 1 } }
  | .spendToken =>
      if s.mode = .coinbaseOnly ∧ s.manager.tokens ≠ 0 then
        { s with manager := { s.manager with tokens := s.manager.tokens - 1 } }.readIdentity
      else s
  | .newTemplate => if s.mode = .fullTemplate then { s with awaited := s.awaited + 1 } else s
  | .requestTxDataSuccess =>
      if s.awaited = 0 then s
      else
        { s with
          manager := { s.manager with tokens := s.manager.tokens - 1 }
          awaited := s.awaited - 1 }.readIdentity
  | .requestTxDataError => { s with awaited := s.awaited - 1 }

def step (env : FailoverEnv) (configMode : JDMode) (s : DeclaratorClient) (e : Event) :
    DeclaratorClient :=
  if s.stopped then s else s.turn env configMode e

end DeclaratorClient

/-- The attempts at one pair. -/
theorem retrySingle_cases (env : FailoverEnv) (i left : Nat) (log : List (Nat × Bool))
    (checks : Nat) :
    (∃ c, retrySingle env i left log checks =
      (.next, log ++ Failover.segment i (List.replicate left false), c)) ∨
    (∃ k c, k < left ∧ retrySingle env i left log checks =
      (.ok, log ++ Failover.segment i (List.replicate k false ++ [true]), c)) ∨
    ∃ k c, k ≤ left ∧ retrySingle env i left log checks =
      (.cancelled, log ++ Failover.segment i (List.replicate k false), c) := by
  induction left generalizing log checks with
  | zero => exact .inl ⟨checks, by simp [retrySingle, Failover.segment]⟩
  | succ left ih =>
      have hsnoc : ∀ as, log ++ [(i, false)] ++ Failover.segment i as =
          log ++ Failover.segment i (false :: as) :=
        fun as => by simp [Failover.segment]
      unfold retrySingle
      split_ifs with hbefore hconnects hafter
      · exact .inr (.inr ⟨0, checks + 1, Nat.zero_le _, by simp [Failover.segment]⟩)
      · exact .inr (.inl ⟨0, checks + 1, Nat.succ_pos _, rfl⟩)
      · exact .inr (.inr ⟨1, checks + 2, Nat.succ_le_succ (Nat.zero_le _), rfl⟩)
      · obtain ⟨c, h⟩ | ⟨k, c, hk, h⟩ | ⟨k, c, hk, h⟩ := ih (log ++ [(i, false)]) (checks + 2)
        · exact .inl ⟨c, by rw [h, hsnoc]; rfl⟩
        · exact .inr (.inl ⟨k + 1, c, Nat.succ_lt_succ hk, by rw [h, hsnoc]; rfl⟩)
        · exact .inr (.inr ⟨k + 1, c, Nat.succ_le_succ hk, by rw [h, hsnoc]; rfl⟩)

/-- How a search ended, as its result says it. -/
def Search.Ends (i : Nat) (es : List UpstreamEntry) (r : Search) : Ending → Prop
  | .connected j => i ≤ j ∧ ∃ e, es[j - i]? = some e ∧ r.result = .ok j e.userIdentity
  | .exhausted => r.result = .exhausted
  | .aborted => r.result = .cancelled

/-- An entry in front moves the indices by one. -/
theorem Search.Ends.cons {i : Nat} {es : List UpstreamEntry} {r r' : Search} {o : Ending}
    (h : r.Ends (i + 1) es o) (e : UpstreamEntry) (hresult : r'.result = r.result) :
    r'.Ends i (e :: es) o := by
  cases o with
  | connected j =>
      obtain ⟨hij, e', he', hr⟩ := h
      have hsub : j - i = j - (i + 1) + 1 := by omega
      refine ⟨Nat.le_of_succ_le hij, e', ?_, hresult.trans hr⟩
      rw [hsub, List.getElem?_cons_succ, he']
  | exhausted => exact hresult.trans h
  | aborted => exact hresult.trans h

/-- `initialize_jd` is a search. -/
theorem initializeJd_pass (env : FailoverEnv) (i : Nat) (es : List UpstreamEntry)
    (log : List (Nat × Bool)) (checks : Nat) :
    let r := initializeJd env i es log checks
    ∃ new o, r.log = log ++ new ∧ r.Ends i es o ∧
      r.upstreams.map (·.userIdentity) = es.map (·.userIdentity) ∧
      Pass maxRetries i (es.map (·.triedOrFlagged)) new o
        (r.upstreams.map (·.triedOrFlagged)) := by
  induction es generalizing i log checks with
  | nil => exact ⟨[], .exhausted, by simp [initializeJd], rfl, rfl, .exhausted i⟩
  | cons e es ih =>
      unfold initializeJd
      by_cases hcancel : env.cancelled checks
      · refine ⟨[], .aborted, by simp [hcancel], ?_, by simp [hcancel], ?_⟩
        · simp [hcancel, Search.Ends]
        · have habort : Pass maxRetries i (e.triedOrFlagged :: es.map (·.triedOrFlagged))
              (Failover.segment i []) .aborted (e.triedOrFlagged :: es.map (·.triedOrFlagged)) :=
            .aborted (Failover.begun_nil maxRetries) fun _ => rfl
          simpa [hcancel, Failover.segment] using habort
      by_cases hflag : e.triedOrFlagged
      · obtain ⟨new, o, hlog, hends, hnames, hpass⟩ := ih (i + 1) log (checks + 1)
        refine ⟨new, o, by simp [hcancel, hflag, hlog], ?_, by simp [hcancel, hflag, hnames], ?_⟩
        · exact hends.cons e (by simp [hcancel, hflag])
        · simpa [hcancel, hflag] using hpass.skipped
      · obtain ⟨c, h⟩ | ⟨k, c, hk, h⟩ | ⟨k, c, hk, h⟩ :=
          retrySingle_cases env i maxRetries log (checks + 1)
        · obtain ⟨new, o, hlog, hends, hnames, hpass⟩ :=
            ih (i + 1) (log ++ Failover.segment i (List.replicate maxRetries false)) c
          refine ⟨Failover.segment i (List.replicate maxRetries false) ++ new, o, ?_, ?_, ?_, ?_⟩
          · simp [hcancel, hflag, h, hlog]
          · exact hends.cons e (by simp [hcancel, hflag, h])
          · simp [hcancel, hflag, h, hnames]
          · simpa [hcancel, hflag, h] using hpass.failed
        · refine ⟨Failover.segment i (List.replicate k false ++ [true]), .connected i, ?_, ?_, ?_,
            ?_⟩
          · simp [hcancel, hflag, h]
          · exact ⟨Nat.le_refl i, e, by simp, by simp [hcancel, hflag, h]⟩
          · simp [hcancel, hflag, h]
          · simpa [hcancel, hflag, h] using Pass.connected hk
        · refine ⟨Failover.segment i (List.replicate k false), .aborted, ?_, ?_, ?_, ?_⟩
          · simp [hcancel, hflag, h]
          · simp [hcancel, hflag, h, Search.Ends]
          · simp [hcancel, hflag, h]
          · simpa [hcancel, hflag, h] using
              Pass.aborted (f := false) (Failover.begun_replicate hk) (fun hf => by cases hf)

namespace DeclaratorClient

variable {env : FailoverEnv} {configMode : JDMode} {identities : List Text} {s : DeclaratorClient}

/-- What holds at every point of the main loop. -/
structure Coordinated (configMode : JDMode) (identities : List Text) (s : DeclaratorClient) :
    Prop where
  names : s.upstreams.map (·.userIdentity) = identities
  tried : Tried maxRetries s.log
  kept : s.stopped = false → Kept maxRetries (s.upstreams.map (·.triedOrFlagged)) s.log
  serving : ∀ i, s.serving = some i → s.log.getLast? = some (i, true) ∧
    ∃ u, identities[i]? = some u ∧ s.manager.userIdentity = some u
  mode : s.mode ≠ .soloMining → s.mode = configMode ∧ s.serving.isSome
  upstream : s.manager.upstreamState ≠ .soloMining → s.serving.isSome
  tokens : s.manager.tokens ≠ 0 → s.serving.isSome
  unset : s.stopped = false → s.serving = none → s.manager.userIdentity = none
  spent : s.stopped = false → s.serving = none → configMode ≠ .soloMining →
    ∀ f ∈ s.upstreams.map (·.triedOrFlagged), f = true
  setOnce : s.panicked ≠ some .alreadySet

/-- Where a pair is in use, the identity is set. -/
theorem Coordinated.identity (h : Coordinated configMode identities s)
    (hserving : s.serving.isSome) :
    s.manager.userIdentity.isNone = false := by
  obtain ⟨i, hi⟩ := Option.isSome_iff_exists.mp hserving
  obtain ⟨-, u, -, hu⟩ := h.serving i hi
  rw [hu]
  rfl

theorem readIdentity_of_set (hset : s.manager.userIdentity.isNone = false) :
    s.readIdentity = s := by
  simp [readIdentity, hset]

theorem readIdentity_of_unset (hunset : s.manager.userIdentity = none) :
    s.readIdentity = { s with panicked := some .notSet, stopped := true } := by
  simp [readIdentity, hunset]

/-- A search with a new manager. -/
theorem coordinated_connect (hnames : s.upstreams.map (·.userIdentity) = identities)
    (hkept : Kept maxRetries (s.upstreams.map (·.triedOrFlagged)) s.log)
    (hmode : s.mode = .soloMining) (hmanager : s.manager = {}) (hserving : s.serving = none)
    (hset : s.panicked ≠ some .alreadySet) : Coordinated configMode identities (s.connect env) := by
  obtain ⟨new, o, hlog, hends, hnames', hpass⟩ :=
    initializeJd_pass env 0 s.upstreams s.log s.checks
  obtain ⟨htried, hkept', hlast, hflags⟩ := hkept.pass hpass
  unfold connect
  generalize initializeJd env 0 s.upstreams s.log s.checks = r
    at hlog hends hnames' hpass hflags hkept' ⊢
  rw [← hlog] at htried hkept' hlast
  cases o with
  | connected j =>
      obtain ⟨-, e, he, hresult⟩ := hends
      simp only [hresult, hmanager, Option.isSome_none]
      refine ⟨hnames'.trans hnames, htried, fun _ => hkept' (by simp), ?_, fun h => absurd hmode h,
        fun _ => rfl, fun _ => rfl, (fun _ h => by cases h), (fun _ h => by cases h), hset⟩
      intro i hi
      obtain rfl : j = i := Option.some.inj hi
      refine ⟨hlast j rfl, e.userIdentity, ?_, rfl⟩
      rw [← hnames, List.getElem?_map, ← Nat.sub_zero j, he, Option.map_some]
  | exhausted =>
      have hresult : r.result = .exhausted := hends
      simp only [hresult, hmanager]
      refine ⟨hnames'.trans hnames, htried, fun _ => hkept' (by simp), ?_, fun h => absurd rfl h,
        fun h => absurd rfl h, fun h => absurd rfl h, fun _ _ => rfl, fun _ _ _ => ?_, hset⟩
      · intro i hi
        exact absurd (hserving.symm.trans hi) (by simp)
      · rw [hflags rfl]
        exact fun f hf => List.eq_of_mem_replicate hf
  | aborted =>
      have hresult : r.result = .cancelled := hends
      simp only [hresult, hmanager]
      refine ⟨hnames'.trans hnames, htried, (fun h => by cases h), ?_, fun h => absurd rfl h,
        fun h => absurd rfl h, fun h => absurd rfl h, (fun h => by cases h), (fun h => by cases h),
        hset⟩
      intro i hi
      exact absurd (hserving.symm.trans hi) (by simp)

/-- A component that does not start stops the client. -/
theorem Coordinated.stop (h : Coordinated configMode identities s) (starts : Bool) :
    Coordinated configMode identities { s with stopped := s.stopped || !starts } := by
  have hweaken : (s.stopped || !starts) = false → s.stopped = false :=
    fun hs => (Bool.or_eq_false_iff.mp hs).1
  exact ⟨h.names, h.tried, fun hs => h.kept (hweaken hs), h.serving, h.mode, h.upstream, h.tokens,
    fun hs => h.unset (hweaken hs), fun hs => h.spent (hweaken hs), h.setOnce⟩

theorem coordinated_start (env : FailoverEnv) (configMode : JDMode) (identities : List Text)
    (monitoringStarts : Bool) :
    Coordinated configMode identities (start env configMode identities monitoringStarts) := by
  unfold start
  have hnames : (identities.map fun u => ({ userIdentity := u } : UpstreamEntry)).map
      (·.userIdentity) = identities := by
    simp [Function.comp_def]
  have hkept : Kept maxRetries ((identities.map fun u =>
      ({ userIdentity := u } : UpstreamEntry)).map (·.triedOrFlagged)) [] := by
    simpa [Function.comp_def, List.map_const'] using
      Failover.kept_start maxRetries identities.length
  refine Coordinated.stop ?_ monitoringStarts
  split_ifs with hsolo hempty
  · exact ⟨hnames, hkept.tried, fun _ => hkept, (fun _ h => by cases h), fun h => absurd rfl h,
      fun h => absurd rfl h, fun h => absurd rfl h, fun _ _ => rfl, fun _ _ h => absurd hsolo h,
      by simp⟩
  · exact ⟨hnames, hkept.tried, (fun h => by cases h), (fun _ h => by cases h),
      fun h => absurd rfl h, fun h => absurd rfl h, fun h => absurd rfl h, (fun h => by cases h),
      (fun h => by cases h), by simp⟩
  · exact coordinated_connect hnames hkept rfl rfl rfl (by simp)
  · exact coordinated_connect hnames hkept rfl rfl rfl (by simp)

/-- A search that the panic of the manager cuts off. -/
theorem Coordinated.cutOff (h : Coordinated configMode identities s) (hruns : s.stopped = false)
    (checks : Nat) :
    let r := s.searchUpTo env checks
    Coordinated configMode identities
      { s.fallenBack with
        upstreams := r.upstreams, log := r.log, checks := r.checks, awaited := s.awaited - 1,
        panicked := some .notSet, stopped := true } := by
  intro r
  obtain ⟨new, o, hlog, -, hnames, hpass⟩ := initializeJd_pass
    { env with cancelled := fun n => env.cancelled n || decide (checks ≤ n) } 0 s.upstreams s.log
    s.checks
  obtain ⟨htried, -⟩ := (h.kept hruns).pass hpass
  have hlog' : r.log = s.log ++ new := hlog
  exact ⟨hnames.trans h.names, hlog' ▸ htried, (fun hs => by cases hs), (fun _ hs => by cases hs),
    fun hs => absurd rfl hs, fun hs => absurd rfl hs, fun hs => absurd rfl hs,
    (fun hs => by cases hs), (fun hs => by cases hs), by simp⟩

/-- What a task writes while a pair is in use. -/
theorem Coordinated.write (h : Coordinated configMode identities s) (hserving : s.serving.isSome)
    {upstreamState : UpstreamState} {tokens awaited : Nat} :
    Coordinated configMode identities
      { s with manager := { s.manager with upstreamState, tokens }, awaited } :=
  ⟨h.names, h.tried, h.kept, h.serving, h.mode, fun _ => hserving, fun _ => hserving,
    fun _ hnone => absurd hserving (by simp [show s.serving = none from hnone]), h.spent, h.setOnce⟩

/-- Every event of a client that runs keeps the invariant. -/
theorem Coordinated.turn (h : Coordinated configMode identities s) (hruns : s.stopped = false)
    (e : Event) : Coordinated configMode identities (s.turn env configMode e) := by
  cases e with
  | fallback managerStarts monitoringStarts =>
      cases managerStarts with
      | true =>
          have hnew : Coordinated configMode identities (s.fallenBack.connect env) :=
            coordinated_connect h.names (h.kept hruns) rfl rfl rfl h.setOnce
          exact hnew.stop monitoringStarts
      | false =>
          exact ⟨h.names, h.tried, (fun hs => by cases hs), (fun _ hs => by cases hs),
            fun hs => absurd rfl hs, fun hs => absurd rfl hs, fun hs => absurd rfl hs,
            (fun hs => by cases hs),
            (fun hs => by cases hs), h.setOnce⟩
  | answeredFallback checks =>
      unfold DeclaratorClient.turn
      dsimp only
      split
      case isTrue => exact h
      case isFalse =>
        split
        case isTrue =>
          rw [readIdentity_of_unset rfl]
          exact h.cutOff hruns checks
        case isFalse => exact h
  | shutdown =>
      exact ⟨h.names, h.tried, (fun hs => by cases hs), h.serving, h.mode, h.upstream, h.tokens,
        (fun hs => by cases hs), (fun hs => by cases hs), h.setOnce⟩
  | activate =>
      show Coordinated _ _ (if _ then _ else _)
      split
      case isTrue hserving =>
        exact ⟨h.names, h.tried, h.kept, h.serving, fun _ => ⟨rfl, hserving⟩, h.upstream, h.tokens,
          h.unset, h.spent, h.setOnce⟩
      case isFalse => exact h
  | openUpstream =>
      show Coordinated _ _ (if _ then _ else _)
      split
      case isTrue hno =>
        have hserving := h.upstream (by simp [hno])
        rw [readIdentity_of_set]
        · exact h.write hserving
        · exact h.identity hserving
      case isFalse => exact h
  | upstreamSuccess opened template =>
      show Coordinated _ _ (if _ then _ else if _ then _ else _)
      split
      case isTrue => exact h
      case isFalse hmode =>
        have hserving := (h.mode hmode).2
        split
        case isTrue =>
          rw [readIdentity_of_set]
          · exact h.write hserving
          · exact h.identity hserving
        case isFalse => exact h.write hserving
  | tokenAllocated =>
      show Coordinated _ _ (if _ then _ else _)
      split
      case isTrue => exact h
      case isFalse hmode => exact h.write (h.mode hmode).2
  | spendToken =>
      show Coordinated _ _ (if _ then _ else _)
      split
      case isTrue htoken =>
        have hserving := h.tokens htoken.2
        rw [readIdentity_of_set]
        · exact h.write hserving
        · exact h.identity hserving
      case isFalse => exact h
  | newTemplate =>
      show Coordinated _ _ (if _ then _ else _)
      split
      case isTrue hmode =>
        exact h.write (h.mode (by simp [hmode])).2
      case isFalse => exact h
  | requestTxDataSuccess =>
      show Coordinated _ _ (if _ then _ else _)
      split
      case isTrue => exact h
      case isFalse =>
        by_cases hserving : s.serving.isSome
        · rw [readIdentity_of_set]
          · exact h.write hserving
          · exact h.identity hserving
        · rw [readIdentity_of_unset]
          · exact ⟨h.names, h.tried, (fun hs => by cases hs), h.serving, h.mode, h.upstream,
              fun htokens => h.tokens fun hzero => htokens (by simp [hzero]),
              (fun hs => by cases hs), (fun hs => by cases hs), by simp⟩
          · exact h.unset hruns (Option.not_isSome_iff_eq_none.mp hserving)
  | requestTxDataError =>
      exact ⟨h.names, h.tried, h.kept, h.serving, h.mode, h.upstream, h.tokens, h.unset, h.spent,
        h.setOnce⟩

/-- A client that has stopped stays as it is. -/
theorem Coordinated.step (h : Coordinated configMode identities s) (e : Event) :
    Coordinated configMode identities (s.step env configMode e) := by
  unfold DeclaratorClient.step
  split
  case isTrue => exact h
  case isFalse hruns => exact h.turn (by simpa using hruns) e

theorem coordinated_after (env : FailoverEnv) (configMode : JDMode) (identities : List Text)
    (monitoringStarts : Bool) (es : List Event) :
    Coordinated configMode identities
      (exec (step env configMode) (start env configMode identities monitoringStarts) es) :=
  Runs.exec_invariant (fun _ e h => h.step e)
    (coordinated_start env configMode identities monitoringStarts) es

/-- The client has tried all pairs and mines alone. -/
structure Spent (log : List (Nat × Bool)) (s : DeclaratorClient) : Prop where
  flags : ∀ f ∈ s.upstreams.map (·.triedOrFlagged), f = true
  log : s.log = log
  mode : s.mode = .soloMining
  serving : s.serving = none

theorem Spent.connect {log : List (Nat × Bool)} (h : Spent log s) : Spent log (s.connect env) := by
  obtain ⟨new, o, hlog, hends, -, hpass⟩ :=
    initializeJd_pass env 0 s.upstreams s.log s.checks
  obtain ⟨rfl, hsame, hne⟩ := hpass.of_flagged h.flags
  unfold DeclaratorClient.connect
  generalize initializeJd env 0 s.upstreams s.log s.checks = r at hlog hends hsame ⊢
  have hflags : ∀ f ∈ r.upstreams.map (·.triedOrFlagged), f = true := hsame ▸ h.flags
  have hkept : r.log = log := by rw [hlog, List.append_nil, h.log]
  cases o with
  | connected j => exact absurd rfl (hne j)
  | exhausted =>
      have hresult : r.result = .exhausted := hends
      simp only [hresult]
      exact ⟨hflags, hkept, rfl, h.serving⟩
  | aborted =>
      have hresult : r.result = .cancelled := hends
      simp only [hresult]
      exact ⟨hflags, hkept, rfl, h.serving⟩

theorem Spent.readIdentity {log : List (Nat × Bool)} (h : Spent log s) :
    Spent log s.readIdentity := by
  unfold DeclaratorClient.readIdentity
  split
  case isTrue => exact ⟨h.flags, h.log, h.mode, h.serving⟩
  case isFalse => exact h

/-- A search of a client that has tried all pairs makes no attempt, wherever it is cut off. -/
theorem Spent.searchUpTo (env : FailoverEnv) {log : List (Nat × Bool)} (h : Spent log s)
    (checks : Nat) :
    let r := s.searchUpTo env checks
    (∀ f ∈ r.upstreams.map (·.triedOrFlagged), f = true) ∧ r.log = log := by
  intro r
  obtain ⟨new, o, hlog, -, -, hpass⟩ := initializeJd_pass
    { env with cancelled := fun n => env.cancelled n || decide (checks ≤ n) } 0 s.upstreams s.log
    s.checks
  obtain ⟨rfl, hsame, -⟩ := hpass.of_flagged h.flags
  have hlog' : r.log = s.log ++ [] := hlog
  have hflags : r.upstreams.map (·.triedOrFlagged) = s.upstreams.map (·.triedOrFlagged) := hsame
  exact ⟨hflags ▸ h.flags, by rw [hlog', List.append_nil, h.log]⟩

/-- The log grows by the attempts of the event. -/
theorem Spent.turn {log : List (Nat × Bool)} (h : Spent log s) (e : Event) :
    Spent log (s.turn env configMode e) := by
  cases e with
  | fallback managerStarts monitoringStarts =>
      cases managerStarts with
      | true =>
          have hnew : Spent log s.fallenBack := ⟨h.flags, h.log, rfl, rfl⟩
          have hconnected : Spent log (s.fallenBack.connect env) := hnew.connect
          exact ⟨hconnected.flags, hconnected.log, hconnected.mode, hconnected.serving⟩
      | false => exact ⟨h.flags, h.log, rfl, rfl⟩
  | answeredFallback checks =>
      show Spent log (if _ then _ else if _ then _ else _)
      split_ifs
      · exact h
      · obtain ⟨hflags, hlog⟩ := h.searchUpTo env checks
        exact Spent.readIdentity ⟨hflags, hlog, rfl, rfl⟩
      · exact h
  | shutdown => exact ⟨h.flags, h.log, h.mode, h.serving⟩
  | activate => simpa [DeclaratorClient.turn, h.serving] using h
  | openUpstream =>
      show Spent log (if _ then _ else _)
      split
      case isTrue => exact Spent.readIdentity ⟨h.flags, h.log, h.mode, h.serving⟩
      case isFalse => exact h
  | upstreamSuccess opened template =>
      simpa [DeclaratorClient.turn, h.mode] using h
  | tokenAllocated => simpa [DeclaratorClient.turn, h.mode] using h
  | spendToken => simpa [DeclaratorClient.turn, h.mode] using h
  | newTemplate => simpa [DeclaratorClient.turn, h.mode] using h
  | requestTxDataSuccess =>
      show Spent log (if _ then _ else _)
      split
      case isTrue => exact h
      case isFalse => exact Spent.readIdentity ⟨h.flags, h.log, h.mode, h.serving⟩
  | requestTxDataError => exact ⟨h.flags, h.log, h.mode, h.serving⟩

theorem Spent.step {log : List (Nat × Bool)} (h : Spent log s) (e : Event) :
    Spent log (s.step env configMode e) := by
  unfold DeclaratorClient.step
  split
  case isTrue => exact h
  case isFalse => exact h.turn e

/-! ### When the identity is read too early

`AnsweredUnset` is one event: an answer to a request of the old manager reaches a new one that has
no identity yet. -/

/-- An answer of the template provider to an older request comes in while no pair is in use: none
was found after the fallback, or none is yet. -/
def AnsweredUnset (env : FailoverEnv) (s : DeclaratorClient) : Event → Prop
  | .requestTxDataSuccess => s.stopped = false ∧ s.awaited ≠ 0 ∧ s.serving = none
  | .answeredFallback checks =>
      s.stopped = false ∧ s.awaited ≠ 0 ∧ (s.searchUpTo env checks).result = .cancelled
  | _ => False

/-- A search sets the identity of a manager that has none, and reads nothing. -/
theorem panicked_connect (hunset : s.manager.userIdentity = none) :
    (s.connect env).panicked = s.panicked := by
  unfold connect
  dsimp only
  split
  · rw [hunset]
    rfl
  · rfl
  · rfl

theorem panicked_start (env : FailoverEnv) (configMode : JDMode) (identities : List Text)
    (monitoringStarts : Bool) :
    (start env configMode identities monitoringStarts).panicked = none := by
  unfold start
  dsimp only
  split
  · rfl
  · split
    · rfl
    · exact panicked_connect rfl

/-- A step of a running client makes it panic exactly if it is such an answer. -/
theorem panicked_turn_iff (h : Coordinated configMode identities s) (hruns : s.stopped = false)
    (e : Event) :
    (s.turn env configMode e).panicked = none ↔
      s.panicked = none ∧ ¬ s.AnsweredUnset env e := by
  cases e with
  | fallback managerStarts monitoringStarts =>
      simp only [AnsweredUnset, not_false_eq_true, and_true]
      cases managerStarts with
      | true =>
          have hsame : (s.fallenBack.connect env).panicked = s.panicked := panicked_connect rfl
          exact Iff.of_eq (congrArg (· = none) hsame)
      | false => exact Iff.rfl
  | answeredFallback checks =>
      rw [AnsweredUnset]
      show (if _ then _ else if _ then _ else _ : DeclaratorClient).panicked = none ↔ _
      split_ifs with hawaited hcut
      · simp [hawaited]
      · rw [readIdentity_of_unset rfl]
        simp [hruns, hawaited, hcut]
      · simp [hcut]
  | shutdown => simp [AnsweredUnset, DeclaratorClient.turn]
  | activate =>
      simp only [AnsweredUnset, not_false_eq_true, and_true]
      show (if _ then _ else _ : DeclaratorClient).panicked = none ↔ _
      split <;> exact Iff.rfl
  | openUpstream =>
      simp only [AnsweredUnset, not_false_eq_true, and_true]
      show (if _ then _ else _ : DeclaratorClient).panicked = none ↔ _
      split
      case isTrue hno =>
        rw [readIdentity_of_set]
        exact h.identity (h.upstream (by simp [hno]))
      case isFalse => exact Iff.rfl
  | upstreamSuccess opened template =>
      simp only [AnsweredUnset, not_false_eq_true, and_true]
      show (if _ then _ else if _ then _ else _ : DeclaratorClient).panicked = none ↔ _
      split
      case isTrue => exact Iff.rfl
      case isFalse hmode =>
        split
        case isTrue =>
          rw [readIdentity_of_set]
          exact h.identity (h.mode hmode).2
        case isFalse => exact Iff.rfl
  | tokenAllocated =>
      simp only [AnsweredUnset, not_false_eq_true, and_true]
      show (if _ then _ else _ : DeclaratorClient).panicked = none ↔ _
      split <;> exact Iff.rfl
  | spendToken =>
      simp only [AnsweredUnset, not_false_eq_true, and_true]
      show (if _ then _ else _ : DeclaratorClient).panicked = none ↔ _
      split
      case isTrue htoken =>
        rw [readIdentity_of_set]
        exact h.identity (h.tokens htoken.2)
      case isFalse => exact Iff.rfl
  | newTemplate =>
      simp only [AnsweredUnset, not_false_eq_true, and_true]
      show (if _ then _ else _ : DeclaratorClient).panicked = none ↔ _
      split <;> exact Iff.rfl
  | requestTxDataSuccess =>
      rw [AnsweredUnset]
      show (if _ then _ else _ : DeclaratorClient).panicked = none ↔ _
      split_ifs with hawaited
      · simp [hawaited]
      · by_cases hserving : s.serving.isSome
        · rw [readIdentity_of_set]
          · simp [Option.isSome_iff_ne_none.mp hserving]
          · exact h.identity hserving
        · have hnone : s.serving = none := Option.not_isSome_iff_eq_none.mp hserving
          rw [readIdentity_of_unset]
          · simp [hruns, hawaited, hnone]
          · exact h.unset hruns hnone
  | requestTxDataError => simp [AnsweredUnset, DeclaratorClient.turn]

/-- One event panics exactly if it is an answer that comes too early. -/
theorem panicked_step_iff (h : Coordinated configMode identities s) (e : Event) :
    (s.step env configMode e).panicked = none ↔
      s.panicked = none ∧ ¬ s.AnsweredUnset env e := by
  unfold DeclaratorClient.step
  split
  case isTrue hstopped =>
    have hdone : ¬ s.AnsweredUnset env e := by
      cases e <;> simp [AnsweredUnset, hstopped]
    exact (and_iff_left hdone).symm
  case isFalse hruns => exact panicked_turn_iff h (by simpa using hruns) e

end DeclaratorClient

/-- Over the whole life of the client: the attempts are in order, at most three at each pair and
none after one that connected; the identity in force is that of the pair in use, the last one that
connected; the configured mode is in force only, and a channel is opened or open at the pool only,
while a pair is in use; the identity is never set twice, and it is read before it is set exactly if
the answer to an older request comes in while no pair is in use; and a client that was configured
for a pool and has none has tried every pair to the end. -/
theorem pairs_in_turn (env : FailoverEnv) (configMode : JDMode) (identities : List Text)
    (monitoringStarts : Bool) (es : List DeclaratorClient.Event) :
    let s := exec (DeclaratorClient.step env configMode)
      (DeclaratorClient.start env configMode identities monitoringStarts) es
    s.log.Pairwise (fun a b => a.1 ≤ b.1) ∧
      (∀ i, Begun maxRetries (attempts i s.log)) ∧
      (∀ i, s.serving = some i → s.log.getLast? = some (i, true) ∧
        ∃ u, identities[i]? = some u ∧ s.manager.userIdentity = some u) ∧
      (s.mode ≠ .soloMining → s.mode = configMode ∧ s.serving.isSome) ∧
      (s.manager.upstreamState ≠ .soloMining → s.serving.isSome) ∧
      s.panicked ≠ some .alreadySet ∧
      (s.panicked = none ↔ Along (DeclaratorClient.step env configMode)
        (fun t e => ¬ t.AnsweredUnset env e)
        (DeclaratorClient.start env configMode identities monitoringStarts) es) ∧
      (configMode ≠ .soloMining → s.stopped = false → s.serving = none →
        ∀ i < identities.length, Settled maxRetries (attempts i s.log)) := by
  intro s
  have h := DeclaratorClient.coordinated_after env configMode identities monitoringStarts es
  have hstart := DeclaratorClient.panicked_start env configMode identities monitoringStarts
  have hpanics : s.panicked = none ↔
      (DeclaratorClient.start env configMode identities monitoringStarts).panicked = none ∧
        Along (DeclaratorClient.step env configMode) (fun t e => ¬ t.AnsweredUnset env e)
          (DeclaratorClient.start env configMode identities monitoringStarts) es :=
    Runs.exec_iff_along (P := fun t : DeclaratorClient => t.panicked = none)
      (fun _ e h => DeclaratorClient.panicked_step_iff h e) (fun _ e h => h.step e)
      (DeclaratorClient.coordinated_start env configMode identities monitoringStarts) es
  refine ⟨h.tried.sorted_log, h.tried.begun_attempts, h.serving, h.mode, h.upstream, h.setOnce,
    hpanics.trans (and_iff_right hstart), ?_⟩
  intro hconfig hruns hnone i hi
  refine (h.kept hruns).settled_attempts ?_
  have hlt : i < (s.upstreams.map (·.triedOrFlagged)).length := by
    rwa [List.length_map, ← List.length_map (f := (·.userIdentity)), h.names]
  rw [List.getElem?_eq_getElem hlt]
  exact congrArg some (h.spent hruns hnone hconfig _ (List.getElem_mem hlt))

/-- A client that runs without a pair although it was configured for one mines alone for the rest
of its life: it never tries a pair again. -/
theorem solo_forever (env : FailoverEnv) {configMode : JDMode} (identities : List Text)
    (monitoringStarts : Bool) (es fs : List DeclaratorClient.Event)
    (hconfig : configMode ≠ .soloMining)
    (hruns : (exec (DeclaratorClient.step env configMode)
      (DeclaratorClient.start env configMode identities monitoringStarts) es).stopped = false)
    (hnone : (exec (DeclaratorClient.step env configMode)
      (DeclaratorClient.start env configMode identities monitoringStarts) es).serving = none) :
    let s := exec (DeclaratorClient.step env configMode)
      (DeclaratorClient.start env configMode identities monitoringStarts) es
    let t := exec (DeclaratorClient.step env configMode)
      (DeclaratorClient.start env configMode identities monitoringStarts) (es ++ fs)
    t.log = s.log ∧ t.mode = .soloMining ∧ t.serving = none := by
  intro s t
  have h := DeclaratorClient.coordinated_after env configMode identities monitoringStarts es
  have hsolo : s.mode = .soloMining := by
    by_contra hne
    have hserving := (h.mode hne).2
    rw [hnone] at hserving
    simp at hserving
  have hs : DeclaratorClient.Spent s.log s := ⟨h.spent hruns hnone hconfig, rfl, hsolo, hnone⟩
  have ht : DeclaratorClient.Spent s.log t := by
    have heq : t = exec (DeclaratorClient.step env configMode) s fs := Runs.exec_append ..
    rw [heq]
    exact Runs.exec_invariant (fun _ e h => h.step e) hs fs
  exact ⟨ht.log, ht.mode, ht.serving⟩

/-- A pair is lost and none is left when the transactions of a template come in: the channel manager
asks for a token in the name of nobody, and the client that should mine alone is gone. -/
theorem answer_after_fallback_panics :
    let s := exec (DeclaratorClient.step ⟨fun n => n = 0, fun _ => false⟩ .fullTemplate)
      (DeclaratorClient.start ⟨fun n => n = 0, fun _ => false⟩ .fullTemplate [['a']] true)
      [.activate, .newTemplate, .fallback true true, .requestTxDataSuccess]
    s.panicked = some .notSet ∧ s.stopped = true := by
  decide

/-- Two pairs: the first one connects and is lost, the second one never connects. -/
def twoPairs : FailoverEnv where
  connects n := n = 1
  cancelled _ := false

theorem solo_forever_twoPairs :
    let s := exec (DeclaratorClient.step twoPairs .fullTemplate)
      (DeclaratorClient.start twoPairs .fullTemplate [['a'], ['b']] true)
      [.activate, .fallback true true]
    let t := exec (DeclaratorClient.step twoPairs .fullTemplate)
      (DeclaratorClient.start twoPairs .fullTemplate [['a'], ['b']] true)
      ([.activate, .fallback true true] ++ [.activate, .fallback true true])
    s.log = [(0, false), (0, true), (1, false), (1, false), (1, false)] ∧
      t.log = s.log ∧ t.mode = .soloMining ∧ t.serving = none := by
  refine ⟨by decide, ?_⟩
  exact solo_forever twoPairs [['a'], ['b']] true _ _ (by decide) (by decide) (by decide)

end GridPoolSv2.JobDeclaratorClient
