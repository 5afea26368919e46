import GridPoolSv2.Lib.Failover
import GridPoolSv2.Lib.Runs
import GridPoolSv2.Translator.UserIdentity

/-!
# Translator.Failover: which upstream the translator uses

The model of `initialize_upstream` and of the main loop of `start`
(`translator/src/lib/mod.rs`). At the start, and whenever the fallback token is cancelled, the
translator makes a new `ChannelManager` and a new `Sv1Server` and searches its upstreams for one
that takes it.

* `answers n` is what comes of the `n`-th attempt to connect in the life of the translator.
* The log has the number of the upstream and the outcome of every attempt.
* The manager's payout distribution and the server's identity are `OnceLock`s; a second `set`
  panics (`Parts`).

`upstreams_in_turn` says what the main loop makes of the list over a whole life: the search rule
of `Lib.Failover`, the parts that belong to the upstream in use, and why the translator stops.
-/

namespace GridPoolSv2.Translator

open Consensus (Bytes)
open Failover (Begun Ending Kept Pass Settled Tried attempts)
open Payout (Text PayoutMode)
open Runs (exec)

structure UpstreamEntry where
  triedOrFlagged : Bool := false
  userIdentity : Text
  deriving Repr, DecidableEq

/-- What comes of `try_initialize_upstream`, and of the start of the SV1 server after it. -/
inductive ConnectAnswer where
  | failed
  | connected (sv1Starts : Bool)
  deriving Repr, DecidableEq

structure FailoverEnv where
  scriptFromAddress : Text → Except String Bytes
  verifyPayout : Bool
  answers : Nat → ConnectAnswer

def FailoverEnv.payoutMode (env : FailoverEnv) (identity : Text) :
    Except PayoutSettingError (Option PayoutMode) :=
  expectedPayoutDistribution env.scriptFromAddress env.verifyPayout identity

/-- What a search sets in the new manager and the new server; `none` is not set. -/
structure Parts where
  expectedPayoutDistribution : Option (Option PayoutMode) := none
  userIdentity : Option Text := none
  deriving Repr, DecidableEq

namespace Parts

/-- `none`: the `expect` panics. -/
def setExpectedPayoutDistribution (p : Parts) (mode : Option PayoutMode) : Option Parts :=
  if p.expectedPayoutDistribution.isSome then none
  else some { p with expectedPayoutDistribution := some mode }

def setUserIdentity (p : Parts) (identity : Text) : Option Parts :=
  if p.userIdentity.isSome then none else some { p with userIdentity := some identity }

end Parts

inductive InitError where
  | invalidUserIdentity (e : PayoutSettingError)
  | sv1Server
  | couldNotInitiateSystem
  | panicked
  deriving Repr, DecidableEq

/-- How the attempts at one upstream end. -/
inductive Retried where
  | next
  | ok
  | err (e : InitError)
  deriving Repr, DecidableEq

def maxRetries : Nat := 3

/-- The attempts that are left at upstream `i`. -/
def retryUpstream (env : FailoverEnv) (i : Nat) (identity : Text) (p : Parts) :
    Nat → List (Nat × Bool) → Retried × List (Nat × Bool) × Parts
  | 0, log => (.next, log, p)
  | left + 1, log =>
      match env.answers log.length with
      | .failed => retryUpstream env i identity p left (log ++ [(i, false)])
      | .connected sv1Starts =>
          let log := log ++ [(i, true)]
          match env.payoutMode identity with
          | .error e => (.err (.invalidUserIdentity e), log, p)
          | .ok mode =>
              match (p.setExpectedPayoutDistribution mode).bind (·.setUserIdentity identity) with
              | none => (.err .panicked, log, p)
              | some p => if sv1Starts then (.ok, log, p) else (.err .sv1Server, log, p)

structure Initialized where
  result : Except InitError Nat
  upstreams : List UpstreamEntry
  log : List (Nat × Bool)
  parts : Parts

/-- `initialize_upstream`, from the upstream with number `i` on. -/
def initializeUpstream (env : FailoverEnv) :
    Nat → List UpstreamEntry → List (Nat × Bool) → Parts → Initialized
  | _, [], log, p => { result := .error .couldNotInitiateSystem, upstreams := [], log, parts := p }
  | i, e :: es, log, p =>
      if e.triedOrFlagged then
        let r := initializeUpstream env (i + 1) es log p
        { r with upstreams := e :: r.upstreams }
      else
        match retryUpstream env i e.userIdentity p maxRetries log with
        | (.next, log, p) =>
            let r := initializeUpstream env (i + 1) es log p
            { r with upstreams := { e with triedOrFlagged := true } :: r.upstreams }
        | (.ok, log, p) =>
            { result := .ok i, upstreams := { e with triedOrFlagged := true } :: es, log,
              parts := p }
        | (.err x, log, p) => { result := .error x, upstreams := e :: es, log, parts := p }

/-- Why the main loop was left. -/
inductive StopCause where
  | shutdown
  | noUpstream (e : InitError)
  | monitoring
  deriving Repr, DecidableEq

structure TranslatorSv2 where
  upstreams : List UpstreamEntry
  log : List (Nat × Bool) := []
  parts : Parts := {}
  serving : Option Nat := none
  stopped : Option StopCause := none

namespace TranslatorSv2

/-- New parts, a search, and the tasks that use its result. -/
def launch (env : FailoverEnv) (monitoringStarts : Bool) (s : TranslatorSv2) : TranslatorSv2 :=
  let r := initializeUpstream env 0 s.upstreams s.log {}
  { upstreams := r.upstreams
    log := r.log
    parts := r.parts
    serving := r.result.toOption
    stopped :=
      match r.result with
      | .error e => some (.noUpstream e)
      | .ok _ => if monitoringStarts then none else some .monitoring }

inductive Event where
  /-- The fallback token was cancelled and the old components are gone. -/
  | fallback (monitoringStarts : Bool)
  | shutdown
  deriving Repr, DecidableEq

def step (env : FailoverEnv) (s : TranslatorSv2) : Event → TranslatorSv2
  | .fallback monitoringStarts =>
      if s.stopped.isSome then s else s.launch env monitoringStarts
  | .shutdown => if s.stopped.isSome then s else { s with stopped := some .shutdown }

/-- `start`, up to the main loop; `identities` are those of the configured upstreams. -/
def start (env : FailoverEnv) (identities : List Text) (monitoringStarts : Bool) : TranslatorSv2 :=
  launch env monitoringStarts
    { upstreams := identities.map fun u => { userIdentity := u } }

end TranslatorSv2

variable {env : FailoverEnv}

/-- New parts take both values. -/
theorem setParts_new (mode : Option PayoutMode) (identity : Text) :
    (({} : Parts).setExpectedPayoutDistribution mode).bind (·.setUserIdentity identity) =
      some { expectedPayoutDistribution := some mode, userIdentity := some identity } := rfl

/-- What the parts are for. -/
def Parts.For (env : FailoverEnv) (p : Parts) (identity : Text) : Prop :=
  ∃ mode, env.payoutMode identity = .ok mode ∧
    p = { expectedPayoutDistribution := some mode, userIdentity := some identity }

/-- The attempts at one upstream with new parts. -/
theorem retryUpstream_cases (env : FailoverEnv) (i : Nat) (identity : Text) (left : Nat)
    (log : List (Nat × Bool)) :
    retryUpstream env i identity {} left log =
      (.next, log ++ Failover.segment i (List.replicate left false), {}) ∨
    ∃ k r p, k < left ∧ retryUpstream env i identity {} left log =
        (r, log ++ Failover.segment i (List.replicate k false ++ [true]), p) ∧
      ((r = .ok ∧ p.For env identity) ∨
        ∃ e, r = .err e ∧ e ≠ .panicked ∧ e ≠ .couldNotInitiateSystem) := by
  induction left generalizing log with
  | zero => exact .inl (by simp [retryUpstream, Failover.segment])
  | succ left ih =>
      unfold retryUpstream
      cases env.answers log.length with
      | failed =>
          have hsnoc : ∀ as, log ++ [(i, false)] ++ Failover.segment i as =
              log ++ Failover.segment i (false :: as) :=
            fun as => by simp [Failover.segment]
          obtain h | ⟨k, r, p, hk, h, hr⟩ := ih (log ++ [(i, false)])
          · exact .inl (by rw [h, hsnoc]; rfl)
          · refine .inr ⟨k + 1, r, p, Nat.succ_lt_succ hk, ?_, hr⟩
            rw [h, hsnoc]
            rfl
      | connected sv1Starts =>
          refine .inr ⟨0, ?_⟩
          dsimp only
          cases hmode : env.payoutMode identity with
          | error e => exact ⟨_, _, Nat.succ_pos _, rfl, .inr ⟨_, rfl, by simp, by simp⟩⟩
          | ok mode =>
              simp only [setParts_new]
              cases sv1Starts with
              | true => exact ⟨_, _, Nat.succ_pos _, rfl, .inl ⟨rfl, mode, hmode, rfl⟩⟩
              | false => exact ⟨_, _, Nat.succ_pos _, rfl, .inr ⟨_, rfl, by simp, by simp⟩⟩

/-- How a search ended, as its result says it. -/
def Initialized.Ends (env : FailoverEnv) (i : Nat) (es : List UpstreamEntry) (r : Initialized) :
    Ending → Prop
  | .connected j => r.result = .ok j ∧ i ≤ j ∧
      ∃ e, es[j - i]? = some e ∧ r.parts.For env e.userIdentity
  | .exhausted => r.result = .error .couldNotInitiateSystem
  | .aborted => ∃ e, r.result = .error e ∧ e ≠ .panicked ∧ e ≠ .couldNotInitiateSystem

/-- An entry in front moves the indices by one. -/
theorem Initialized.Ends.cons {i : Nat} {es : List UpstreamEntry} {r r' : Initialized} {o : Ending}
    (h : r.Ends env (i + 1) es o) (e : UpstreamEntry) (hresult : r'.result = r.result)
    (hparts : r'.parts = r.parts) : r'.Ends env i (e :: es) o := by
  cases o with
  | connected j =>
      obtain ⟨hr, hij, e', he', hp⟩ := h
      have hsub : j - i = j - (i + 1) + 1 := by omega
      refine ⟨hresult.trans hr, Nat.le_of_succ_le hij, e', ?_, hparts ▸ hp⟩
      rw [hsub, List.getElem?_cons_succ, he']
  | exhausted => exact hresult.trans h
  | aborted =>
      obtain ⟨x, hx, hne⟩ := h
      exact ⟨x, hresult.trans hx, hne⟩

/-- `initialize_upstream` is a search. -/
theorem initializeUpstream_pass (env : FailoverEnv) (i : Nat) (es : List UpstreamEntry)
    (log : List (Nat × Bool)) :
    let r := initializeUpstream env i es log {}
    ∃ new o, r.log = log ++ new ∧ r.Ends env i es o ∧
      r.upstreams.map (·.userIdentity) = es.map (·.userIdentity) ∧
      Pass maxRetries i (es.map (·.triedOrFlagged)) new o
        (r.upstreams.map (·.triedOrFlagged)) := by
  induction es generalizing i log with
  | nil => exact ⟨[], .exhausted, by simp [initializeUpstream], rfl, rfl, .exhausted i⟩
  | cons e es ih =>
      unfold initializeUpstream
      by_cases hflag : e.triedOrFlagged
      · obtain ⟨new, o, hlog, hends, hnames, hpass⟩ := ih (i + 1) log
        refine ⟨new, o, by simp [hflag, hlog], ?_, by simp [hflag, hnames], ?_⟩
        · exact hends.cons e (by simp [hflag]) (by simp [hflag])
        · simpa [hflag] using hpass.skipped
      · obtain h | ⟨k, r, p, hk, h, ⟨rfl, hp⟩ | ⟨x, rfl, hx⟩⟩ :=
          retryUpstream_cases env i e.userIdentity maxRetries log
        · obtain ⟨new, o, hlog, hends, hnames, hpass⟩ :=
            ih (i + 1) (log ++ Failover.segment i (List.replicate maxRetries false))
          refine ⟨Failover.segment i (List.replicate maxRetries false) ++ new, o, ?_, ?_, ?_, ?_⟩
          · simp [hflag, h, hlog]
          · exact hends.cons e (by simp [hflag, h]) (by simp [hflag, h])
          · simp [hflag, h, hnames]
          · simpa [hflag, h] using hpass.failed
        · refine ⟨Failover.segment i (List.replicate k false ++ [true]), .connected i, ?_, ?_, ?_,
            ?_⟩
          · simp [hflag, h]
          · refine ⟨by simp [hflag, h], Nat.le_refl i, e, by simp, ?_⟩
            simpa [hflag, h] using hp
          · simp [hflag, h]
          · simpa [hflag, h] using Pass.connected hk
        · refine ⟨Failover.segment i (List.replicate k false ++ [true]), .aborted, ?_, ?_, ?_, ?_⟩
          · simp [hflag, h]
          · exact ⟨x, by simp [hflag, h], hx⟩
          · simp [hflag, h]
          · have hbegun : Begun maxRetries (List.replicate k false ++ [true]) :=
              Settled.begun (.inr ⟨k, hk, rfl⟩)
            simpa [hflag, h] using Pass.aborted hbegun (f := false) (fun hf => nomatch hf)

namespace TranslatorSv2

/-- What holds at every point of the main loop. -/
structure Coordinated (env : FailoverEnv) (identities : List Text) (s : TranslatorSv2) : Prop where
  names : s.upstreams.map (·.userIdentity) = identities
  tried : Tried maxRetries s.log
  kept : s.stopped = none → Kept maxRetries (s.upstreams.map (·.triedOrFlagged)) s.log
  serving : ∀ i, s.serving = some i → s.log.getLast? = some (i, true) ∧
    ∃ u, identities[i]? = some u ∧ s.parts.For env u
  stopped : ∀ e, s.stopped = some (.noUpstream e) → e ≠ .panicked ∧
    (e = .couldNotInitiateSystem →
      ∀ i < identities.length, Settled maxRetries (attempts i s.log))

/-- A search leaves the parts of the upstream it ends with. -/
theorem coordinated_launch {identities : List Text} {s : TranslatorSv2}
    (hnames : s.upstreams.map (·.userIdentity) = identities)
    (hkept : Kept maxRetries (s.upstreams.map (·.triedOrFlagged)) s.log) (monitoringStarts : Bool) :
    Coordinated env identities (s.launch env monitoringStarts) := by
  obtain ⟨new, o, hlog, hends, hnames', hpass⟩ := initializeUpstream_pass env 0 s.upstreams s.log
  obtain ⟨htried, hkept', hlast, hflags⟩ := hkept.pass hpass
  unfold launch
  generalize initializeUpstream env 0 s.upstreams s.log {} = r
    at hlog hends hnames' hpass hflags hkept' ⊢
  dsimp only
  rw [← hlog] at htried hkept' hlast
  have hlen : s.upstreams.length = identities.length := by rw [← hnames, List.length_map]
  cases o with
  | connected j =>
      obtain ⟨hresult, -, e, he, hp⟩ := hends
      have hserving : ∀ i, r.result.toOption = some i → r.log.getLast? = some (i, true) ∧
          ∃ u, identities[i]? = some u ∧ r.parts.For env u := by
        intro i hi
        rw [hresult] at hi
        obtain rfl : j = i := Option.some.inj hi
        refine ⟨hlast j rfl, e.userIdentity, ?_, hp⟩
        rw [← hnames, List.getElem?_map, ← Nat.sub_zero j, he, Option.map_some]
      refine ⟨hnames'.trans hnames, htried, fun _ => hkept' (by simp), hserving, fun x hx => ?_⟩
      rw [hresult] at hx
      cases monitoringStarts <;> simp at hx
  | exhausted =>
      have hresult : r.result = .error .couldNotInitiateSystem := hends
      refine ⟨hnames'.trans hnames, htried, fun _ => hkept' (by simp), fun i hi => ?_,
        fun x hx => ?_⟩
      · rw [hresult] at hi
        exact absurd hi (by simp [Except.toOption])
      · rw [hresult] at hx
        obtain rfl : InitError.couldNotInitiateSystem = x := by simpa using hx
        refine ⟨by simp, fun _ i hi => (hkept' (by simp)).settled_attempts ?_⟩
        rw [hflags rfl, List.getElem?_replicate, List.length_map, hlen, if_pos hi]
  | aborted =>
      obtain ⟨e, hresult, hpanic, hcould⟩ := hends
      refine ⟨hnames'.trans hnames, htried, fun hs => ?_, fun i hi => ?_, fun x hx => ?_⟩
      · rw [hresult] at hs
        exact absurd hs (by simp)
      · rw [hresult] at hi
        exact absurd hi (by simp [Except.toOption])
      · rw [hresult] at hx
        obtain rfl : e = x := by simpa using hx
        exact ⟨hpanic, fun h => absurd h hcould⟩

theorem Coordinated.step {identities : List Text} {s : TranslatorSv2}
    (h : Coordinated env identities s) (e : Event) : Coordinated env identities (s.step env e) := by
  by_cases hs : s.stopped.isSome
  · cases e <;> simpa [TranslatorSv2.step, hs] using h
  · have hnone : s.stopped = none := by simpa using hs
    cases e with
    | fallback monitoringStarts =>
        simp only [TranslatorSv2.step, hs]
        exact coordinated_launch h.names (h.kept hnone) monitoringStarts
    | shutdown =>
        simp only [TranslatorSv2.step, hs]
        exact ⟨h.names, h.tried, fun hc => absurd hc (by simp), h.serving,
          fun x hx => absurd hx (by simp)⟩

end TranslatorSv2

/-- Over the whole life of the translator, whatever the upstreams answer and whenever it falls back:
each upstream gets its attempts in one go, at most three, none after one that connected and none
after those of a later upstream; the identity and the payout distribution in force are those of the
upstream in use, the last one that connected; a `set` never panics; and when the translator stops
for want of an upstream, every upstream has connected or failed three times. -/
theorem upstreams_in_turn (env : FailoverEnv) (identities : List Text) (monitoringStarts : Bool)
    (es : List TranslatorSv2.Event) :
    let s := exec (TranslatorSv2.step env) (TranslatorSv2.start env identities monitoringStarts) es
    s.log.Pairwise (fun a b => a.1 ≤ b.1) ∧
      (∀ i, Begun maxRetries (attempts i s.log)) ∧
      (∀ i, s.serving = some i → s.log.getLast? = some (i, true) ∧
        ∃ u, identities[i]? = some u ∧ s.parts.For env u) ∧
      s.stopped ≠ some (.noUpstream .panicked) ∧
      (s.stopped = some (.noUpstream .couldNotInitiateSystem) →
        ∀ i < identities.length, Settled maxRetries (attempts i s.log)) := by
  intro s
  have hstart : TranslatorSv2.Coordinated env identities
      (TranslatorSv2.start env identities monitoringStarts) := by
    refine TranslatorSv2.coordinated_launch ?_ ?_ monitoringStarts
    · simp [Function.comp_def]
    · simpa [Function.comp_def, List.map_const'] using
        Failover.kept_start maxRetries identities.length
  have h : TranslatorSv2.Coordinated env identities s :=
    Runs.exec_invariant (fun _ e h => h.step e) hstart es
  exact ⟨h.tried.sorted_log, h.tried.begun_attempts, h.serving,
    fun hp => (h.stopped _ hp).1 rfl, fun he => (h.stopped _ he).2 rfl⟩

end GridPoolSv2.Translator
