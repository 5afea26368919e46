import GridPoolSv2.Extensions.Handlers
import Mathlib.Algebra.Group.Nat.Even
import Mathlib.Tactic.Tauto

/-!
# Extensions.Negotiation: which extensions two roles speak

The dialogue of the two halves of `Extensions.Handlers`, over every run. `requestAt` says what the
request number `n` of a connection asks for, whatever comes between: from the second one on the
client asks in turn for the server's extensions that it does not require and for those that it does.
No such request is ever granted to the client's satisfaction, so a negotiation succeeds with the
first request, fails, or goes on for ever (`Endless`). With the pool at most two requests are made
(`pool_requests_le`): it takes the second one for a fault.

The proof is a dialogue in the sense of `Lib.Link`: `Inv` is what the parties and the two
directions of the line satisfy together, `dialogue` checks it against each turn, and the
results are read off it at rest.

`Shared` is the part of the invariant about what has been stored, `Waits` the part about the
client that waits for an answer, and `InFlight` the request or reply that is on the line, of
which there is one at most.
-/

namespace GridPoolSv2.Extensions

open Visit Handler
open Runs (exec exec_append exec_cons exec_nil)

/-! ### What is requested

The request with number `n` depends on the two configurations and on `n` alone, so the invariant can
name the request that is on the line by its number. -/

/-- What the request number `n` of a connection asks for. -/
def requestAt (cc sc : Config) : Nat → List Extension
  | 0 => cc.requiredExtensions
  | n + 1 => missing sc (requestAt cc sc n)

/-- After the first request the client asks in turn for the server's extensions that it did not
require itself, and for those that it did. -/
theorem mem_requestAt_succ {cc sc : Config} {n : Nat} {e : Extension} :
    e ∈ requestAt cc sc (n + 1) ↔
      e ∈ sc.requiredExtensions ∧ (e ∈ cc.requiredExtensions ↔ ¬ Even n) := by
  induction n with
  | zero => simp [requestAt, mem_missing]
  | succ n ih =>
      rw [requestAt, mem_missing, ih, Nat.even_add_one]
      tauto

/-- The first request is granted, with everything the client requires. -/
structure Agreed (cc sc : Config) : Prop where
  requires : cc.requiredExtensions ≠ []
  fits : cc.requiredExtensions.length ≤ 65535
  supported : ∀ e ∈ cc.requiredExtensions, e ∈ sc.supportedExtensions
  requested : ∀ e ∈ sc.requiredExtensions, e ∈ cc.requiredExtensions

/-- Every request is refused and tried again. -/
structure Endless (cc sc : Config) : Prop where
  fits : cc.requiredExtensions.length ≤ 65535
  client : ∀ e ∈ cc.requiredExtensions, e ∈ sc.supportedExtensions
  server : ∀ e ∈ sc.requiredExtensions, e ∈ cc.supportedExtensions
  shared : ∃ e ∈ sc.requiredExtensions, e ∈ cc.requiredExtensions
  other : ∃ e ∈ sc.requiredExtensions, e ∉ cc.requiredExtensions

section Requests

variable {cc sc : Config} {n : Nat}

/-- What was agreed on is granted with the first request. -/
theorem Agreed.grants (h : Agreed cc sc) : Grants sc (requestAt cc sc 0) := by
  obtain ⟨e, he⟩ := List.exists_mem_of_ne_nil _ h.requires
  exact ⟨⟨e, he, h.supported e he⟩, h.requested⟩

/-- A granted first request is never tried again. -/
theorem Agreed.eq_zero (h : Agreed cc sc) (hretried : ∀ i < n, Retries cc sc (requestAt cc sc i)) :
    n = 0 := by
  rcases Nat.eq_zero_or_pos n with hn | hn
  · exact hn
  · exact absurd (grants_iff.mp h.grants).2 (hretried 0 hn).1

/-- What a client accepts is what it asked for in its first request. -/
theorem Agreed.of_accepted (hrequires : cc.requiredExtensions ≠ [])
    (hfits : cc.requiredExtensions.length ≤ 65535)
    (hretried : ∀ i < n, Retries cc sc (requestAt cc sc i))
    (hgrants : Grants sc (requestAt cc sc n))
    (haccepts : ∀ e ∈ cc.requiredExtensions,
      e ∈ requestAt cc sc n ∧ e ∈ sc.supportedExtensions) : n = 0 ∧ Agreed cc sc := by
  suffices hn : n = 0 by
    subst hn
    exact ⟨rfl, hrequires, hfits, fun e he => (haccepts e he).2, hgrants.2⟩
  cases n with
  | zero => rfl
  | succ n =>
      obtain ⟨e, he⟩ := List.exists_mem_of_ne_nil _ hrequires
      have hodd := (mem_requestAt_succ.mp (haccepts e he).1).2.mp he
      -- then everything that the server requires was in the first request already
      refine absurd (missing_eq_nil_iff.mpr fun e he => ?_) (hretried 0 n.succ_pos).1
      have hrequested := mem_requestAt_succ.mp (hgrants.2 e he)
      exact hrequested.2.mpr hodd

theorem Endless.retries (h : Endless cc sc) (n : Nat) : Retries cc sc (requestAt cc sc n) := by
  refine ⟨fun hnil => ?_, fun e he => ?_, fun e he _ => h.client e he⟩
  · rw [show missing sc (requestAt cc sc n) = requestAt cc sc (n + 1) from rfl] at hnil
    obtain ⟨e, he, hshared⟩ := h.shared
    obtain ⟨f, hf, hother⟩ := h.other
    by_cases hn : Even n
    · have hmem : f ∈ requestAt cc sc (n + 1) := mem_requestAt_succ.mpr ⟨hf, by tauto⟩
      rw [hnil] at hmem
      cases hmem
    · have hmem : e ∈ requestAt cc sc (n + 1) := mem_requestAt_succ.mpr ⟨he, by tauto⟩
      rw [hnil] at hmem
      cases hmem
  · exact h.server e (mem_missing.mp he).1

theorem Endless.not_grants (h : Endless cc sc) (n : Nat) : ¬ Grants sc (requestAt cc sc n) :=
  fun hgrants => (h.retries n).1 (missing_eq_nil_iff.mpr hgrants.2)

theorem Endless.requires (h : Endless cc sc) : cc.requiredExtensions ≠ [] := by
  obtain ⟨e, -, he⟩ := h.shared
  exact List.ne_nil_of_mem he

/-- Two retries are enough to tell that every request will be tried again. -/
theorem Endless.of_retries (hfits : cc.requiredExtensions.length ≤ 65535)
    (h0 : Retries cc sc (requestAt cc sc 0)) (h1 : Retries cc sc (requestAt cc sc 1)) :
    Endless cc sc := by
  obtain ⟨e, he⟩ := List.exists_mem_of_ne_nil _ h0.1
  obtain ⟨f, hf⟩ := List.exists_mem_of_ne_nil _ h1.1
  have hother := mem_missing.mp he
  have hshared : f ∈ sc.requiredExtensions ∧ f ∈ cc.requiredExtensions := by
    have h := mem_requestAt_succ.mp (show f ∈ requestAt cc sc (1 + 1) from hf)
    exact ⟨h.1, h.2.mpr (by decide)⟩
  refine ⟨hfits, fun e he => h0.2.2 e he he, fun e he => ?_, ⟨f, hshared⟩, ⟨e, hother⟩⟩
  -- an extension of the server is missing in the first request or in the second one
  by_cases hc : e ∈ cc.requiredExtensions
  · exact h1.2.1 e (mem_missing.mpr ⟨he, fun hmem => (mem_missing.mp hmem).2 hc⟩)
  · exact h0.2.1 e (mem_missing.mpr ⟨he, hc⟩)

end Requests

/-! ### The invariant -/

/-- What became of the server when it had refused the requests before number `n`. -/
def faultBefore (server : ServerRole) (cc sc : Config) : Nat → Option Fault
  | 0 => none
  | n + 1 => server.onMissingRequired (requestAt cc sc (n + 1))

/-- The server goes on after an error and can list whatever it requires. -/
def Forgives (server : ServerRole) (sc : Config) : Prop :=
  (∀ missing, server.onMissingRequired missing = none) ∧ sc.requiredExtensions.length ≤ 65535

/-- What holds wherever the dialogue is. -/
structure Shared (server : ServerRole) (cc sc : Config) (c : Client) (s : Server)
    (us : List Upward) : Prop where
  clientConfig : c.manager.config = cc
  serverConfig : s.downstream.config = sc
  read : s.unread = 0
  identified : .share true ∈ us → workerHashrateTracking ∈ c.manager.negotiatedExtensions
  agree : c.manager.negotiatedExtensions = [] ∨
    c.manager.negotiatedExtensions = s.downstream.negotiatedExtensions
  accepted : c.manager.negotiatedExtensions ≠ [] →
    Agreed cc sc ∧ c.manager.negotiatedExtensions = cc.requiredExtensions
  requested : c.requests ≠ 0 → cc.requiredExtensions ≠ [] ∧ cc.requiredExtensions.length ≤ 65535
  retried : ∀ n, n + 1 < c.requests →
    Retries cc sc (requestAt cc sc n) ∧ faultBefore server cc sc n = none

/-- A client that waits for the reply to its request number `n`. -/
structure Waits (c : Client) (n : Nat) : Prop where
  alive : c.failed = none
  nothing : c.manager.negotiatedExtensions = []
  requests : c.requests = n + 1

/-- Where the dialogue is, by the control frame in flight. If no frame was lost, a connection that
is at rest has agreed where it could, and does not rest where it goes on for ever. -/
def InFlight (server : ServerRole) (cc sc : Config) (whole : Prop) (c : Client) (s : Server) :
    Option (RequestExtensions ⊕ Reply) → Prop
  | some (.inl m) => ∃ n, Waits c n ∧ m.requestedExtensions.intoInner = requestAt cc sc n ∧
      s.failed = faultBefore server cc sc n
  | some (.inr (.success m)) => ∃ n, Waits c n ∧ Grants sc (requestAt cc sc n) ∧
      m.supportedExtensions.intoInner =
        ((requestAt cc sc n).filter fun e => sc.supportedExtensions.contains e) ∧
      s.downstream.negotiatedExtensions = m.supportedExtensions.intoInner
  | some (.inr (.error m)) => ∃ n, Waits c n ∧ ¬ Grants sc (requestAt cc sc n) ∧
      m.unsupportedExtensions.intoInner =
        ((requestAt cc sc n).filter fun e => !sc.supportedExtensions.contains e) ∧
      m.requiredExtensions.intoInner = missing sc (requestAt cc sc n) ∧
      faultBefore server cc sc n = none ∧
      (missing sc (requestAt cc sc n) ≠ [] → s.failed = faultBefore server cc sc (n + 1))
  | none => whole → c.manager.senderOpen → s.downstream.senderOpen →
      (c.manager.negotiatedExtensions = [] → ¬ Agreed cc sc) ∧
        (Forgives server sc → ¬ Endless cc sc)

/-- The invariant of a negotiation. `whole` says that no frame was lost. -/
def Inv (server : ServerRole) (cc sc : Config) (whole : Prop)
    (t : Option (RequestExtensions ⊕ Reply)) (c : Client) (s : Server) (us : List Upward)
    (_ : List Downward) : Prop :=
  Shared server cc sc c s us ∧ InFlight server cc sc whole c s t

section Invariant

variable {server : ServerRole} {client : ClientRole} {cc sc : Config} {whole : Prop} {c c' : Client}
  {s s' : Server} {us : List Upward} {n : Nat}

/-- The server may store other extensions while the client has none. -/
theorem Shared.server_stores (h : Shared server cc sc c s us)
    (hc : c.manager.negotiatedExtensions = [])
    (hconfig : s'.downstream.config = sc) (hunread : s'.unread = s.unread) :
    Shared server cc sc c s' us :=
  { h with
    serverConfig := hconfig
    read := hunread.trans h.read
    agree := .inl hc }

/-- A client that waits for the answer to request `n` has retried all requests before. -/
theorem Shared.retried_lt (h : Shared server cc sc c s us) (hw : Waits c n) :
    ∀ i < n, Retries cc sc (requestAt cc sc i) := fun i hi =>
  (h.retried i (by rw [hw.requests]; omega)).1

theorem Shared.requires (h : Shared server cc sc c s us) (hw : Waits c n) :
    cc.requiredExtensions ≠ [] ∧ cc.requiredExtensions.length ≤ 65535 :=
  h.requested (by rw [hw.requests]; omega)

/-- The client failed, or had nothing left to do: it keeps what it had. -/
theorem Shared.client_settles (h : Shared server cc sc c s us) (hmanager : c'.manager = c.manager)
    (hrequests : c'.requests = c.requests) : Shared server cc sc c' s us :=
  { h with
    clientConfig := by rw [hmanager, h.clientConfig]
    identified := by rw [hmanager]; exact h.identified
    agree := by rw [hmanager]; exact h.agree
    accepted := by rw [hmanager]; exact h.accepted
    requested := by rw [hrequests]; exact h.requested
    retried := by rw [hrequests]; exact h.retried }

theorem faultBefore_of_forgives (h : Forgives server sc) :
    ∀ n, faultBefore server cc sc n = none
  | 0 => rfl
  | _ + 1 => h.1 _

theorem inv_request {ds : List Downward} {u : Upward} {q : RequestExtensions}
    (hu : requestOf u = some q) (h : Inv server cc sc whole (some (.inl q)) c s us ds) :
    ∃ t : Option Reply, (serverReceives server s u).2.filterMap replyOf = t.toList ∧
      Inv server cc sc whole (t.map .inr) c (serverReceives server s u).1 us
        (ds ++ Link.others replyOf (serverReceives server s u).2) := by
  cases u with
  | share b => cases hu
  | request m =>
      obtain rfl : m = q := Option.some.inj hu
      obtain ⟨hshared, n, hw, hrequest, halive⟩ := h
      have hretried := hshared.retried_lt hw
      by_cases hfailed : s.failed.isSome
      · -- a server that failed does not read the request
        rw [show serverReceives server s (.request m) = (s, []) by simp [serverReceives, hfailed]]
        rw [halive] at hfailed
        refine ⟨none, rfl, hshared, fun _ _ _ => ⟨fun _ hagreed => ?_, fun hforgives => ?_⟩⟩
        · rw [hagreed.eq_zero hretried] at hfailed
          cases hfailed
        · rw [faultBefore_of_forgives hforgives] at hfailed
          cases hfailed
      · rw [show serverReceives server s (.request m) =
          s.took (handleRequestExtensions server s.downstream m) by simp [serverReceives, hfailed]]
        have hanswered : Answered server s.downstream m
            (handleRequestExtensions server s.downstream m) := handleRequestExtensions_answered m
        generalize handleRequestExtensions server s.downstream m = o at hanswered
        have hconfig := hshared.serverConfig
        cases hanswered with
        | granted granted hgrants hgranted =>
            rw [hconfig, hrequest] at hgrants hgranted
            exact ⟨some (.success _), rfl, hshared.server_stores hw.nothing hconfig rfl, n, hw,
              hgrants, hgranted, rfl⟩
        | refused unsupported required fault hgrants hunsupported hrequired hfault =>
            rw [hconfig, hrequest] at hgrants hunsupported hrequired hfault
            rw [Option.not_isSome_iff_eq_none, halive] at hfailed
            exact ⟨some (.error _), rfl, hshared.server_stores hw.nothing hconfig rfl, n, hw,
              hgrants, hunsupported, hrequired, hfailed, hfault⟩
        | silent d' fault hd hsender hsilent =>
            refine ⟨none, rfl, hshared.server_stores hw.nothing (hd.trans hconfig) rfl,
              fun _ _ hopen => ?_⟩
            obtain ⟨hgrants, hlong⟩ := hsilent (hsender.symm.trans hopen)
            rw [hconfig, hrequest] at hgrants
            rw [hconfig] at hlong
            refine ⟨fun _ hagreed => ?_, fun hforgives => ?_⟩
            · rw [hagreed.eq_zero hretried] at hgrants
              exact hgrants hagreed.grants
            · have := hforgives.2
              omega

variable (client) in
/-- A success that arrives: the client stores what was granted. -/
theorem inv_success {ds : List Downward} {m : RequestExtensionsSuccess}
    (h : Inv server cc sc whole (some (.inr (.success m))) c s us ds) :
    Inv server cc sc whole none
      (c.took (handleRequestExtensionsSuccess client c.manager m)).1 s us ds ∧
      (handleRequestExtensionsSuccess client c.manager m).notes = [] := by
  obtain ⟨hshared, n, hw, hgrants, hsupported, hserver⟩ := h
  obtain ⟨hrequires, hfits⟩ := hshared.requires hw
  have hretried := hshared.retried_lt hw
  unfold handleRequestExtensionsSuccess
  dsimp only
  by_cases hmissing : (c.manager.config.requiredExtensions.filter fun ext =>
      !m.supportedExtensions.intoInner.contains ext).isEmpty = true
  · rw [if_pos hmissing]
    have haccepts : ∀ e ∈ cc.requiredExtensions,
        e ∈ requestAt cc sc n ∧ e ∈ sc.supportedExtensions := by
      intro e he
      rw [hshared.clientConfig, hsupported, List.isEmpty_iff, List.filter_eq_nil_iff] at hmissing
      simpa using hmissing e he
    obtain ⟨rfl, hagreed⟩ := Agreed.of_accepted hrequires hfits hretried hgrants haccepts
    have hall : m.supportedExtensions.intoInner = cc.requiredExtensions := by
      rw [hsupported]
      exact List.filter_eq_self.mpr fun e he => by simpa using hagreed.supported e he
    refine ⟨⟨{ hshared with
      identified := fun hmem => ?_
      agree := .inr hserver.symm
      accepted := fun _ => ⟨hagreed, hall⟩ }, fun _ _ _ => ⟨fun hnil => ?_, fun _ hendless =>
        hendless.not_grants 0 hgrants⟩⟩, rfl⟩
    · have hnil := hshared.identified hmem
      rw [hw.nothing] at hnil
      cases hnil
    · exact absurd (hall.symm.trans hnil) hrequires
  · rw [if_neg hmissing]
    refine ⟨⟨hshared.client_settles rfl rfl, fun _ _ _ => ⟨fun _ hagreed => hmissing ?_,
      fun _ hendless => hendless.not_grants n hgrants⟩⟩, rfl⟩
    obtain rfl := hagreed.eq_zero hretried
    rw [hshared.clientConfig, hsupported, List.isEmpty_iff, List.filter_eq_nil_iff]
    intro e he
    simpa using ⟨he, hagreed.supported e he⟩

/-- An error that arrives: the client retries, or fails. -/
theorem inv_error {ds : List Downward} {m : RequestExtensionsError}
    (h : Inv server cc sc whole (some (.inr (.error m))) c s us ds) :
    ∃ t : Option RequestExtensions, (handleRequestExtensionsError c.manager m).notes = t.toList ∧
      Inv server cc sc whole (t.map .inl)
        (c.took (handleRequestExtensionsError c.manager m)).1 s us ds := by
  obtain ⟨hshared, n, hw, hgrants, hunsupported, hrequired, halive, hfailed⟩ := h
  have hretried := hshared.retried_lt hw
  by_cases hretries : Retries cc sc (requestAt cc sc n)
  · rw [handleRequestExtensionsError_of_retries hunsupported hrequired
      (by rw [hshared.clientConfig]; exact hretries)]
    by_cases hopen : c.manager.senderOpen = true
    · rw [if_pos hopen]
      refine ⟨some ⟨m.requestId + 1, m.requiredExtensions⟩, rfl, { hshared with
        requested := fun _ => hshared.requires hw
        retried := fun i hi => ?_ }, n + 1, ⟨rfl, hw.nothing, ?_⟩, hrequired,
        hfailed hretries.1⟩
      · have hlt : i < n + 1 := by
          simp only [Client.took, say_notes, hw.requests, List.length_singleton] at hi
          omega
        rcases Nat.lt_succ_iff_lt_or_eq.mp hlt with hlt | rfl
        · exact hshared.retried i (by rw [hw.requests]; omega)
        · exact ⟨hretries, halive⟩
      · simp [Client.took, hw.requests]
    · rw [if_neg hopen]
      exact ⟨none, rfl, hshared.client_settles rfl rfl, fun _ hopen' => absurd hopen' hopen⟩
  · obtain ⟨hvalue, hnotes⟩ := handleRequestExtensionsError_of_not_retries hunsupported hrequired
      (by rw [hshared.clientConfig]; exact hretries)
    refine ⟨none, hnotes, hshared.client_settles hvalue (by simp [Client.took, hnotes]),
      fun _ _ _ => ⟨fun _ hagreed => ?_, fun _ hendless => hretries (hendless.retries n)⟩⟩
    obtain rfl := hagreed.eq_zero hretried
    exact hgrants hagreed.grants

/-- A share whose user identity is attached comes to a server that reads it. -/
theorem serverReceives_share {b : Bool} (h : Shared server cc sc c s (.share b :: us)) :
    serverReceives server s (.share b) = (s, []) := by
  unfold serverReceives
  split
  · rfl
  · cases b with
    | false => rfl
    | true =>
        have hclient := h.identified List.mem_cons_self
        have hserver : workerHashrateTracking ∈ s.downstream.negotiatedExtensions := by
          rcases h.agree with hnil | hagree
          · rw [hnil] at hclient
            cases hclient
          · rwa [← hagree]
        simp [hserver]

theorem Shared.tail {u : Upward} (h : Shared server cc sc c s (u :: us)) :
    Shared server cc sc c s us :=
  { h with identified := fun hmem => h.identified (List.mem_cons_of_mem _ hmem) }

theorem Waits.senderLost (h : Waits c n) : Waits (clientActs .senderLost c).1 n :=
  ⟨h.alive, h.nothing, h.requests⟩

/-- What the client does by itself sends no request. -/
theorem inv_clientActs {t : Option (RequestExtensions ⊕ Reply)} {ds : List Downward} (a : ClientAct)
    (h : Inv server cc sc whole t c s us ds) :
    (clientActs a c).2.filterMap requestOf = [] ∧
      Inv server cc sc whole t (clientActs a c).1 s (us ++ (clientActs a c).2) ds := by
  obtain ⟨hshared, hflight⟩ := h
  cases a with
  | submitShare tlv =>
      unfold clientActs
      dsimp only
      split
      · refine ⟨rfl, { hshared with identified := fun hmem => ?_ }, hflight⟩
        rcases List.mem_append.mp hmem with hmem | hmem
        · exact hshared.identified hmem
        · have htlv := List.mem_singleton.mp hmem
          simp only [Upward.share.injEq, Bool.true_eq, Bool.and_eq_true, List.contains_eq_mem,
            decide_eq_true_eq] at htlv
          exact htlv.2
      · rw [List.append_nil]
        exact ⟨rfl, hshared, hflight⟩
  | senderLost =>
      refine ⟨rfl, ?_, ?_⟩
      · rw [show (clientActs .senderLost c).2 = [] from rfl, List.append_nil]
        exact { hshared with }
      · match t with
        | none => exact fun _ hopen => absurd hopen Bool.false_ne_true
        | some (.inl m) =>
            obtain ⟨n, hw, hrest⟩ := hflight
            exact ⟨n, hw.senderLost, hrest⟩
        | some (.inr (.success m)) =>
            obtain ⟨n, hw, hrest⟩ := hflight
            exact ⟨n, hw.senderLost, hrest⟩
        | some (.inr (.error m)) =>
            obtain ⟨n, hw, hrest⟩ := hflight
            exact ⟨n, hw.senderLost, hrest⟩

/-- What the server does by itself sends no reply. -/
theorem inv_serverActs {t : Option (RequestExtensions ⊕ Reply)} {ds : List Downward} (b : ServerAct)
    (h : Inv server cc sc whole t c s us ds) :
    (serverActs b s).2.filterMap replyOf = [] ∧
      Inv server cc sc whole t c (serverActs b s).1 us (ds ++ (serverActs b s).2) := by
  obtain ⟨hshared, hflight⟩ := h
  cases b with
  | sendMining =>
      unfold serverActs
      dsimp only
      split
      · exact ⟨rfl, hshared, hflight⟩
      · exact ⟨rfl, hshared, hflight⟩
  | senderLost =>
      refine ⟨rfl, { hshared with }, ?_⟩
      match t with
      | none => exact fun _ _ hopen => absurd hopen Bool.false_ne_true
      | some (.inl m) => exact hflight
      | some (.inr (.success m)) => exact hflight
      | some (.inr (.error m)) => exact hflight

/-- The two parties keep the invariant at every turn. -/
theorem dialogue (server : ServerRole) (client : ClientRole) (cc sc : Config) (whole : Prop) :
    Link.Dialogue requestOf replyOf (parties server client) (Inv server cc sc whole) where
  request _ _ _ _ _ _ hu h := inv_request hu h
  reply c s us ds d r hd h := by
    cases d with
    | mining => cases hd
    | reply m =>
        obtain rfl : m = r := Option.some.inj hd
        have halive : c.failed = none := by
          cases m with
          | success m =>
              obtain ⟨-, n, hw, -⟩ := h
              exact hw.alive
          | error m =>
              obtain ⟨-, n, hw, -⟩ := h
              exact hw.alive
        have hrequests (ns : List RequestExtensions) :
            (ns.map Upward.request).filterMap requestOf = ns ∧
              Link.others requestOf (ns.map Upward.request) = [] := by
          induction ns with
          | nil => exact ⟨rfl, rfl⟩
          | cons n ns ih => exact ⟨congrArg (n :: ·) ih.1, ih.2⟩
        cases m with
        | success m =>
            obtain ⟨hinv, hnotes⟩ := inv_success client h
            refine ⟨none, ?_, ?_⟩
            · simp [parties, clientReceives, halive, Client.took, hnotes]
            · simp only [parties, clientReceives, halive, Option.isSome_none, Bool.false_eq_true,
                if_false, Client.took, (hrequests _).2, List.append_nil]
              exact hinv
        | error m =>
            obtain ⟨t, hnotes, hinv⟩ := inv_error h
            refine ⟨t, ?_, ?_⟩
            · simp [parties, clientReceives, halive, Client.took, (hrequests _).1, hnotes]
            · simp only [parties, clientReceives, halive, Option.isSome_none, Bool.false_eq_true,
                if_false, Client.took, (hrequests _).2, List.append_nil]
              exact hinv
  fromClient t c s us ds u hu h := by
    cases u with
    | request m => cases hu
    | share b =>
        obtain ⟨hshared, hflight⟩ := h
        rw [show (parties server client).serverReceives = serverReceives server from rfl,
          serverReceives_share hshared, List.append_nil]
        exact ⟨rfl, hshared.tail, hflight⟩
  fromServer t c s us ds d hd h := by
    cases d with
    | reply m => cases hd
    | mining =>
        have hsame : clientReceives client c .mining = (c, []) := by
          unfold clientReceives
          split <;> rfl
        rw [show (parties server client).clientReceives = clientReceives client from rfl, hsame,
          List.append_nil]
        exact ⟨rfl, h⟩
  clientActs _ _ _ _ _ a h := inv_clientActs a h
  serverActs _ _ _ _ _ b h := inv_serverActs b h

theorem holds_start (server : ServerRole) (client : ClientRole) (cc sc : Config) (whole : Prop) :
    Link.Holds requestOf replyOf (Inv server cc sc whole) (start client cc sc) := by
  unfold start sendRequestExtensions
  by_cases hnil : cc.requiredExtensions.isEmpty = true
  · rw [if_pos hnil]
    have hnil := List.isEmpty_iff.mp hnil
    refine ⟨none, rfl, ?_, fun _ _ _ => ⟨fun _ h => h.requires hnil, fun _ h => h.requires hnil⟩⟩
    exact ⟨rfl, rfl, rfl, (nomatch ·), .inl rfl, (absurd rfl ·), (absurd rfl ·),
      fun _ h => absurd h (Nat.not_lt_zero _)⟩
  · rw [if_neg hnil]
    cases hnew : Seq064K.new cc.requiredExtensions with
    | none =>
        have hlong := Seq064K.new_eq_none hnew
        refine ⟨none, rfl, ?_, fun _ _ _ => ⟨fun _ h => ?_, fun _ h => ?_⟩⟩
        · exact ⟨rfl, rfl, rfl, (nomatch ·), .inl rfl, (absurd rfl ·), (absurd rfl ·),
            fun _ h => absurd h (Nat.not_lt_zero _)⟩
        · have := h.fits
          omega
        · have := h.fits
          omega
    | some requested =>
        have hrequested := Seq064K.new_eq_some hnew
        refine ⟨some (.inl ⟨client.firstRequestId, requested⟩), rfl, ?_, 0, ⟨rfl, rfl, rfl⟩,
          hrequested, rfl⟩
        refine ⟨rfl, rfl, rfl, (nomatch ·), .inl rfl, (absurd rfl ·), fun _ => ⟨?_, ?_⟩,
          fun n h => ?_⟩
        · simpa using hnil
        · rw [← hrequested]
          exact requested.property
        · have : n + 1 < 0 + 1 := h
          omega

end Invariant

/-! ### Runs

The results: what the two sides have stored always agrees, at rest a negotiation has succeeded
exactly if it was agreed on, and the requests of a connection are bounded except in an endless
negotiation. -/

section Runs

variable (server : ServerRole) (client : ClientRole) (cc sc : Config)

theorem shared_run (es : List Event) :
    let s := run server client cc sc es
    ∃ us, Shared server cc sc s.client s.server us := by
  obtain ⟨t, -, hshared, -⟩ := (dialogue server client cc sc False).exec
    (fun t c s us ds h => ⟨{ h.1 with identified := (nomatch ·) }, (nomatch ·)⟩)
    (holds_start server client cc sc False) es
  exact ⟨_, hshared⟩

/-- Whatever is sent, delivered and lost, a client speaks no extensions, or the ones it requires,
which are then the ones the server speaks. No user identity comes to a server that does not read
it. -/
theorem negotiated_agree (es : List Event) :
    let s := run server client cc sc es
    (s.client.manager.negotiatedExtensions = [] ∨
      s.client.manager.negotiatedExtensions = cc.requiredExtensions ∧
        s.server.downstream.negotiatedExtensions = cc.requiredExtensions) ∧
      s.server.unread = 0 := by
  obtain ⟨us, h⟩ := shared_run server client cc sc es
  refine ⟨?_, h.read⟩
  by_cases hnil : (run server client cc sc es).client.manager.negotiatedExtensions = []
  · exact .inl hnil
  · have haccepted := (h.accepted hnil).2
    rcases h.agree with hagree | hagree
    · exact absurd hagree hnil
    · exact .inr ⟨haccepted, hagree.symm.trans haccepted⟩

/-- The connection is there and so are the writers of both parties. -/
structure Whole (s : State) : Prop where
  connected : s.connected = true
  client : s.client.manager.senderOpen = true
  server : s.server.downstream.senderOpen = true

/-- No request and no reply is on its way. -/
def AtRest (s : State) : Prop := Link.control requestOf replyOf s = []

variable {server client cc sc}

theorem holds_run {es : List Event} (h : Whole (run server client cc sc es)) :
    Link.Holds requestOf replyOf (Inv server cc sc True) (run server client cc sc es) :=
  (dialogue server client cc sc True).exec_uncut (holds_start server client cc sc True)
    (Link.cut_not_mem_of_connected h.connected)

/-- At rest the client has its extensions exactly when the first request asked for enough and for
nothing that the server does not support: a retry never helps. -/
theorem negotiated_iff_agreed {es : List Event} (h : Whole (run server client cc sc es))
    (hrest : AtRest (run server client cc sc es)) :
    (run server client cc sc es).client.manager.negotiatedExtensions ≠ [] ↔ Agreed cc sc := by
  obtain ⟨t, hcontrol, hshared, hflight⟩ := holds_run h
  refine ⟨fun hne => (hshared.accepted hne).1, fun hagreed hnil => ?_⟩
  rw [AtRest] at hrest
  rw [hrest] at hcontrol
  cases t with
  | none => exact (hflight trivial h.client h.server).1 hnil hagreed
  | some t => cases hcontrol

theorem negotiated_iff_agreed_tracking :
    (run .pool .translator ⟨[2], [2]⟩ ⟨[1, 2], [2]⟩
        [.client (.submitShare true), .deliverUp, .deliverUp,
          .deliverDown]).client.manager.negotiatedExtensions ≠ [] ↔
      Agreed ⟨[2], [2]⟩ ⟨[1, 2], [2]⟩ :=
  negotiated_iff_agreed ⟨rfl, rfl, rfl⟩ rfl

/-- A server that does not drop the client is never done with one that keeps asking. -/
theorem Endless.not_atRest (hendless : Endless cc sc) (hforgives : Forgives server sc)
    {es : List Event} (h : Whole (run server client cc sc es)) :
    ¬ AtRest (run server client cc sc es) := by
  obtain ⟨t, hcontrol, hshared, hflight⟩ := holds_run h
  intro hrest
  rw [AtRest] at hrest
  rw [hrest] at hcontrol
  cases t with
  | none => exact (hflight trivial h.client h.server).2 hforgives hendless
  | some t => cases hcontrol

/-- A third request is sent only where there is no last one, and not to a server that drops the
client. -/
theorem endless_of_requests {es : List Event}
    (h : 2 < (run server client cc sc es).client.requests) :
    Endless cc sc ∧ faultBefore server cc sc 1 = none := by
  obtain ⟨us, hshared⟩ := shared_run server client cc sc es
  have h0 := hshared.retried 0 (by omega)
  have h1 := hshared.retried 1 (by omega)
  exact ⟨.of_retries (hshared.requested (by omega)).2 h0.1 h1.1, h1.2⟩

/-- The pool takes the second request for a fault, so there is no third one. -/
theorem pool_requests_le (es : List Event) : (run .pool client cc sc es).client.requests ≤ 2 := by
  by_contra hlt
  have hfault := (endless_of_requests (Nat.lt_of_not_le hlt)).2
  cases hfault

/-- The request number `n` is the only frame in flight, and both parties can go on. -/
structure Asking (cc sc : Config) (n : Nat) (s : State) : Prop where
  connected : s.connected = true
  frames : ∃ m, s.up = [.request m] ∧ m.requestedExtensions.intoInner = requestAt cc sc n
  down : s.down = []
  waits : Waits s.client n
  client : s.client.manager.config = cc ∧ s.client.manager.senderOpen = true
  server : s.server.downstream.config = sc ∧ s.server.downstream.senderOpen = true ∧
    s.server.failed = none

/-- One round of an endless negotiation: the request is answered with an error, and the next one is
sent. -/
theorem Asking.round (hendless : Endless cc sc) (hforgives : Forgives server sc) {n : Nat}
    {s : State} (h : Asking cc sc n s) :
    Asking cc sc (n + 1)
      (exec (Link.step (parties server client)) s [.deliverUp, .deliverDown]) := by
  obtain ⟨m, hup, hrequest⟩ := h.frames
  obtain ⟨hcc, hclient⟩ := h.client
  obtain ⟨hsc, hserver, halive⟩ := h.server
  have hanswered : Answered server s.server.downstream m
      (handleRequestExtensions server s.server.downstream m) := handleRequestExtensions_answered m
  have hreceives : serverReceives server s.server (.request m) =
      s.server.took (handleRequestExtensions server s.server.downstream m) := by
    simp [serverReceives, halive]
  generalize handleRequestExtensions server s.server.downstream m = o at hanswered hreceives
  cases hanswered with
  | granted granted hgrants _ =>
      rw [hsc, hrequest] at hgrants
      exact absurd hgrants (hendless.not_grants n)
  | silent d' fault _ _ hsilent =>
      obtain ⟨-, hlong⟩ := hsilent hserver
      rw [hsc] at hlong
      have := hforgives.2
      omega
  | refused unsupported required fault _ hunsupported hrequired hfault =>
      rw [hsc, hrequest] at hunsupported hrequired hfault
      rw [hforgives.1] at hfault
      obtain rfl := hfault (hendless.retries n).1
      have hagain : handleRequestExtensionsError s.client.manager
          ⟨m.requestId, unsupported, required⟩ =
          if s.client.manager.senderOpen then say [⟨m.requestId + 1, required⟩] s.client.manager
          else .fail s.client.manager ⟨.fallback, .channelErrorSender⟩ :=
        handleRequestExtensionsError_of_retries hunsupported hrequired
          (by rw [hcc]; exact hendless.retries n)
      rw [if_pos hclient] at hagain
      have hhears : clientReceives client s.client
          (.reply (.error ⟨m.requestId, unsupported, required⟩)) =
          s.client.took (say [⟨m.requestId + 1, required⟩] s.client.manager) := by
        simp [clientReceives, h.waits.alive, hagain]
      have hrefused := Link.step_deliverUp (p := parties server client) h.connected hup
      rw [h.down, List.nil_append,
        show (parties server client).serverReceives = serverReceives server from rfl,
        hreceives] at hrefused
      have hretried := Link.step_deliverDown (p := parties server client) (s := Link.step
        (parties server client) s .deliverUp) (by rw [hrefused]; exact h.connected)
        (by rw [hrefused]; rfl)
      rw [exec_cons, exec_cons, exec_nil, hretried, hrefused,
        show (parties server client).clientReceives = clientReceives client from rfl]
      dsimp only
      rw [hhears]
      exact ⟨h.connected, ⟨_, rfl, hrequired⟩, rfl,
        ⟨rfl, h.waits.nothing, by simp [Client.took, h.waits.requests]⟩, ⟨hcc, hclient⟩,
        hsc, hserver, rfl⟩

theorem asking_start (hendless : Endless cc sc) : Asking cc sc 0 (start client cc sc) := by
  have hnil : cc.requiredExtensions.isEmpty = false :=
    List.isEmpty_eq_false_iff.mpr hendless.requires
  have hnew : Seq064K.new cc.requiredExtensions = some ⟨_, hendless.fits⟩ := dif_pos hendless.fits
  simp only [start, sendRequestExtensions, hnil, hnew, Bool.false_eq_true, if_false, if_true]
  exact ⟨rfl, ⟨_, rfl, rfl⟩, rfl, ⟨rfl, rfl, rfl⟩, ⟨rfl, rfl⟩, rfl, rfl, rfl⟩

variable (client) in
/-- An endless negotiation can get to any number of requests. -/
theorem Endless.asking (hendless : Endless cc sc) (hforgives : Forgives server sc) (n : Nat) :
    ∃ es, Asking cc sc n (run server client cc sc es) := by
  induction n with
  | zero => exact ⟨[], asking_start hendless⟩
  | succ n ih =>
      obtain ⟨es, h⟩ := ih
      refine ⟨es ++ [.deliverUp, .deliverDown], ?_⟩
      rw [run, exec_append]
      exact h.round hendless hforgives

/-- A JD client and its miner end the negotiation after two requests at the latest, or never: then
one of the two has always something to say, and there is no bound on the requests. -/
theorem jdClient_requests (hfits : sc.requiredExtensions.length ≤ 65535) :
    (¬ Endless cc sc → ∀ es, (run .jdClient client cc sc es).client.requests ≤ 2) ∧
      (Endless cc sc →
        (∀ es, Whole (run .jdClient client cc sc es) → ¬ AtRest (run .jdClient client cc sc es)) ∧
          ∀ k, ∃ es, k < (run .jdClient client cc sc es).client.requests) := by
  have hforgives : Forgives .jdClient sc := ⟨fun _ => rfl, hfits⟩
  refine ⟨fun hends es => ?_, fun hendless => ⟨fun es h => hendless.not_atRest hforgives h,
    fun k => ?_⟩⟩
  · by_contra hlt
    exact hends (endless_of_requests (Nat.lt_of_not_le hlt)).1
  · obtain ⟨es, hasking⟩ := hendless.asking client hforgives k
    exact ⟨es, by rw [hasking.waits.requests]; omega⟩

theorem jdClient_requests_tracking :
    (¬ Endless ⟨[1, 2], [1]⟩ ⟨[1, 2], [1, 2]⟩ → ∀ es,
        (run .jdClient .translator ⟨[1, 2], [1]⟩ ⟨[1, 2], [1, 2]⟩ es).client.requests ≤ 2) ∧
      (Endless ⟨[1, 2], [1]⟩ ⟨[1, 2], [1, 2]⟩ →
        (∀ es, Whole (run .jdClient .translator ⟨[1, 2], [1]⟩ ⟨[1, 2], [1, 2]⟩ es) →
          ¬ AtRest (run .jdClient .translator ⟨[1, 2], [1]⟩ ⟨[1, 2], [1, 2]⟩ es)) ∧
          ∀ k, ∃ es,
            k < (run .jdClient .translator ⟨[1, 2], [1]⟩ ⟨[1, 2], [1, 2]⟩ es).client.requests) :=
  jdClient_requests (by decide)

/-- A miner that requires one of the two extensions that the JD client requires. -/
example : Endless ⟨[1, 2], [1]⟩ ⟨[1, 2], [1, 2]⟩ :=
  ⟨by decide, by simp, by simp, by decide, by decide⟩

end Runs

end GridPoolSv2.Extensions
