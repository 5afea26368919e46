import GridPoolSv2.JobDeclarator.Isolation

/-!
# JobDeclarator.Tokens: tokens are used once

A token is meant to be used once in each of its two lives: the **allocated** token is
activated by one declaration, while its client still holds it, and the **active** token is
consumed by one custom job.

* `Ledger` is the declarator together with two **ghost** lists: its activations, each with
  whether the client held the allocated token at that moment, and the active tokens that a
  `SetCustomMiningJob` succeeded with. No handler reads them.
* `TokenEffect` says once what a step does to the tokens: it lets some go, hands one out,
  activates one or consumes one. The ledger's invariant `Accounted` is derived from it.
* A declaration that waits for missing transactions is resumed **without** asking again
  whether its token is still allocated. `Held` is the condition on the steps of a run:
  a resumed declaration names a token its client holds, and the token of a declaration in
  flight is not taken away by a disconnect or by the janitor.
-/

namespace GridPoolSv2.JobDeclarator

open Runs Declarator
open Consensus (Bytes)
open Function (update)

/-! ### The ledger

The ledger steps exactly as the declarator does. The two ghost lists record the activations and the
accepted custom jobs. -/

/-- One `DeclareMiningJob.Success`: the allocated token, the active one that replaces it, and
whether the client held the allocated token when it was activated. -/
structure Activation where
  allocated : JdToken
  active : JdToken
  client : DownstreamId
  held : Bool
  deriving Repr, DecidableEq

/-- The activation a step makes. -/
def activation? (s : Declarator) : Event → Option Activation
  | .nodeAnswer response =>
      match s.inFlight with
      | none => none
      | some f =>
          match (s.engine.finish s.clock f.token f.declaration f.retry f.previous response).2 with
          | .success =>
              some ⟨f.token, s.tokenManager.tokenFactory, f.client,
                s.tokenManager.isAllocated f.token f.client⟩
          | _ => none
  | _ => none

/-- The active token a step consumes with success. -/
def success? (hash : Bytes → Bytes) (s : Declarator) : Event → Option JdToken
  | .setCustomMiningJob m =>
      match (s.handleSetCustomMiningJob hash m).2 with
      | .ok () => parseToken m.token
      | .error _ => none
  | _ => none

/-- The declarator with what its tokens were used for, newest first. -/
structure Ledger where
  declarator : Declarator
  activations : List Activation := []
  successes : List JdToken := []

namespace Ledger

def step (hash : Bytes → Bytes) (l : Ledger) (e : Event) : Ledger where
  declarator := l.declarator.step hash e
  activations := (activation? l.declarator e).toList ++ l.activations
  successes := (success? hash l.declarator e).toList ++ l.successes

def initial (script : Bytes) : Ledger where
  declarator := Declarator.initial script

end Ledger

/-- The client and the new token of each `DeclareMiningJob.Success` sent. -/
def declareSuccesses (outbox : List (DownstreamId × Reply)) : List (DownstreamId × JdToken) :=
  outbox.filterMap fun x =>
    match x.2 with
    | .declareMiningJobSuccess _ active => some (x.1, active)
    | _ => none

/-! ### What a step does to the tokens -/

/-- The tokens of `tm'` are among those of `tm`. -/
structure Shrinks (tm tm' : TokenManager) : Prop where
  factory : tm'.tokenFactory = tm.tokenFactory
  allocated : ∀ t x, tm'.allocatedTokens t = some x → tm.allocatedTokens t = some x
  active : ∀ a x, tm'.activeTokens a = some x → tm.activeTokens a = some x

/-- What a step does to the tokens, with the activation and the success it makes. -/
inductive TokenEffect (s s' : Declarator) : Option Activation → Option JdToken → Prop
  | shrink (htokens : Shrinks s.tokenManager s'.tokenManager)
      (hout : declareSuccesses s'.outbox = declareSuccesses s.outbox) :
      TokenEffect s s' none none
  | allocate (c : DownstreamId)
      (htokens : s'.tokenManager = (s.tokenManager.allocate s.clock c).1)
      (hout : declareSuccesses s'.outbox = declareSuccesses s.outbox) :
      TokenEffect s s' none none
  | activate (t : JdToken) (c : DownstreamId)
      (htokens : s'.tokenManager = (s.tokenManager.activate s.clock t c).1)
      (hout : declareSuccesses s'.outbox =
        (c, s.tokenManager.tokenFactory) :: declareSuccesses s.outbox) :
      TokenEffect s s'
        (some ⟨t, s.tokenManager.tokenFactory, c, s.tokenManager.isAllocated t c⟩) none
  | consume (a : JdToken) (hactive : (s.tokenManager.activeTokens a).isSome)
      (htokens : s'.tokenManager = s.tokenManager.deactivate a)
      (hout : declareSuccesses s'.outbox = declareSuccesses s.outbox) :
      TokenEffect s s' none (some a)

section Shrinks

variable {tm : TokenManager}

/-- What is left after a removal was there before, under another key. -/
theorem eq_some_of_update_none {κ α : Type*} [DecidableEq κ] {f : κ → Option α} {t t' : κ} {x : α}
    (h : update f t none t' = some x) : t' ≠ t ∧ f t' = some x := by
  by_cases ht : t' = t
  · rw [ht, Function.update_self] at h
    cases h
  · exact ⟨ht, by rwa [Function.update_of_ne ht] at h⟩

theorem Shrinks.refl (tm : TokenManager) : Shrinks tm tm :=
  ⟨rfl, fun _ _ => id, fun _ _ => id⟩

theorem shrinks_deallocate (t : JdToken) : Shrinks tm (tm.deallocate t) where
  factory := rfl
  allocated := fun _ _ h => (eq_some_of_update_none h).2
  active := fun _ _ => id

theorem shrinks_deactivate (a : JdToken) : Shrinks tm (tm.deactivate a) where
  factory := rfl
  allocated := fun _ _ => id
  active := fun _ _ h => (eq_some_of_update_none h).2

theorem shrinks_removeDownstream (c : DownstreamId) : Shrinks tm (tm.removeDownstream c) where
  factory := rfl
  allocated := fun _ _ h => (Option.filter_eq_some_iff.mp h).1
  active := fun _ _ => id

theorem shrinks_janitor (now : Nat) : Shrinks tm (tm.janitor now) where
  factory := rfl
  allocated := fun _ _ h => (Option.filter_eq_some_iff.mp h).1
  active := fun _ _ h => (Option.filter_eq_some_iff.mp h).1

end Shrinks

section Effect

variable {s : Declarator}

/-- A step that sends nothing and leaves the tokens alone. -/
theorem TokenEffect.frame {s' : Declarator} (htokens : s'.tokenManager = s.tokenManager)
    (hout : s'.outbox = s.outbox) : TokenEffect s s' none none :=
  .shrink (htokens ▸ .refl _) (by rw [hout])

theorem tokenEffect_cleanupDownstream (c : DownstreamId) :
    TokenEffect s (s.cleanupDownstream c) none none :=
  .shrink (shrinks_removeDownstream c) rfl

/-- A handler runs at most once per message, or the client is cleaned up after. -/
theorem tokenEffect_jdpMessage {c : DownstreamId} {handler : Client → Declarator}
    (h : ∀ client, TokenEffect s (handler client) none none) :
    TokenEffect s (s.jdpMessage c handler) none none := by
  unfold Declarator.jdpMessage
  split
  · split
    · exact tokenEffect_cleanupDownstream c
    · exact h _
  · exact .frame rfl rfl

theorem tokenEffect_startValidation {s₀ : Declarator} (htokens : s.tokenManager = s₀.tokenManager)
    (hout : s.outbox = s₀.outbox) (c : DownstreamId) (t : JdToken) (d : DeclareMiningJob)
    (retry : Bool) : TokenEffect s₀ (s.startValidation c t d retry) none none := by
  unfold Declarator.startValidation
  split
  · exact .frame htokens hout
  · refine .shrink ?_ ?_
    · rw [← htokens]
      exact shrinks_deallocate t
    · rw [← hout]
      rfl
  · exact .frame htokens hout

theorem tokenEffect_handleDeclareMiningJob (c : DownstreamId) (d : DeclareMiningJob) :
    TokenEffect s (s.handleDeclareMiningJob c d) none none := by
  unfold Declarator.handleDeclareMiningJob
  split
  · exact .shrink (.refl _) rfl
  · split
    · exact tokenEffect_startValidation rfl rfl c _ d false
    · exact .shrink (.refl _) rfl

theorem tokenEffect_handleProvideMissingTransactionsSuccess (c : DownstreamId) (client : Client)
    (r : RequestId) :
    TokenEffect s (s.handleProvideMissingTransactionsSuccess c client r) none none := by
  unfold Declarator.handleProvideMissingTransactionsSuccess
  split
  · exact .frame rfl rfl
  · dsimp only
    split
    · exact .frame rfl rfl
    · apply tokenEffect_startValidation <;> rfl

/-- Without a success, the answer of the node takes at most tokens away. -/
theorem tokenEffect_settle {s₀ : Declarator} (htokens : s.tokenManager = s₀.tokenManager)
    (hout : s.outbox = s₀.outbox) (f : InFlight) (response : JdResponse)
    {result : DeclareMiningJobResult} (hres : result ≠ .success) :
    TokenEffect s₀ (s.settle f response result) none none := by
  have hdealloc : ∀ code, TokenEffect s₀
      (Declarator.reply { s with tokenManager := s.tokenManager.deallocate f.token } f.client
        (.declareMiningJobError f.declaration.requestId code)) none none := by
    intro code
    refine .shrink ?_ (by rw [← hout]; rfl)
    rw [← htokens]
    exact shrinks_deallocate f.token
  cases result with
  | success => exact absurd rfl hres
  | error code => exact hdealloc code
  | missingTransactions missing =>
      unfold Declarator.settle
      dsimp only
      split
      · exact hdealloc .missingTxs
      · split
        · refine .shrink ?_ (by rw [← hout]; rfl)
          rw [← htokens]
          exact shrinks_removeDownstream f.client
        · refine .shrink ?_ (by rw [← hout]; rfl)
          rw [← htokens]
          exact .refl _

theorem tokenEffect_nodeAnswer (hash : Bytes → Bytes) (response : JdResponse) :
    TokenEffect s (s.step hash (.nodeAnswer response)) (activation? s (.nodeAnswer response))
      none := by
  simp only [Declarator.step, activation?]
  cases hf : s.inFlight with
  | none => exact .frame rfl rfl
  | some f =>
      simp only [Declarator.handleNodeAnswer]
      cases hres : (s.engine.finish s.clock f.token f.declaration f.retry f.previous response).2
        with
      | success => exact .activate f.token f.client rfl rfl
      | error code =>
          refine tokenEffect_settle ?_ ?_ f response ?_
          · rfl
          · rfl
          · intro hsuccess
            cases hsuccess
      | missingTransactions missing =>
          refine tokenEffect_settle ?_ ?_ f response ?_
          · rfl
          · rfl
          · intro hsuccess
            cases hsuccess

/-- A custom job lets its active token go, accepted or not. -/
theorem tokenEffect_setCustomMiningJob (hash : Bytes → Bytes) (m : SetCustomMiningJob) :
    TokenEffect s (s.handleSetCustomMiningJob hash m).1 none
      (success? hash s (.setCustomMiningJob m)) := by
  simp only [success?, Declarator.handleSetCustomMiningJob]
  cases hm : parseToken m.token with
  | none => exact .frame rfl rfl
  | some a =>
      simp only
      cases ha : s.tokenManager.allocatedFromActive a with
      | none => exact .frame rfl rfl
      | some t =>
          simp only
          cases hres : (s.engine.handleSetCustomMiningJob hash m t).2 with
          | ok _ =>
              refine .consume a ?_ rfl rfl
              obtain ⟨x, hx, _⟩ := Option.map_eq_some_iff.mp ha
              rw [hx]
              rfl
          | error code => exact .shrink (shrinks_deactivate a) rfl

/-- One effect for each event; the activation and the consumed token are the ones of the ledger. -/
theorem tokenEffect_step (hash : Bytes → Bytes) (s : Declarator) (e : Event) :
    TokenEffect s (s.step hash e) (activation? s e) (success? hash s e) := by
  cases e with
  | advance secs => exact .frame rfl rfl
  | connect c =>
      simp only [Declarator.step, activation?, success?]
      split <;> exact .frame rfl rfl
  | disconnect c => exact tokenEffect_cleanupDownstream c
  | allocateMiningJobToken c r =>
      simp only [Declarator.step, activation?, success?, Declarator.jdpMessage]
      split
      · split
        · exact tokenEffect_cleanupDownstream c
        · exact .allocate c rfl rfl
      · exact .frame rfl rfl
  | declareMiningJob c d =>
      exact tokenEffect_jdpMessage fun _ => tokenEffect_handleDeclareMiningJob c d
  | provideMissingTransactionsSuccess c r =>
      exact tokenEffect_jdpMessage fun client =>
        tokenEffect_handleProvideMissingTransactionsSuccess c client r
  | nodeAnswer response => exact tokenEffect_nodeAnswer hash response
  | setCustomMiningJob m => exact tokenEffect_setCustomMiningJob hash m
  | tokenJanitor => exact .shrink (shrinks_janitor s.clock) rfl
  | engineJanitor => exact .frame rfl rfl
  | pendingJanitor c =>
      simp only [Declarator.step, activation?, success?, Declarator.pendingJanitor]
      split <;> exact .frame rfl rfl

end Effect

/-! ### Declarations in flight

Between the message of the client and the answer of the node the allocated token can be lost.
`Backed` says that it was not. -/

/-- The declaration in flight, if any, names a token its client holds. -/
def Backed (s : Declarator) : Prop :=
  ∀ f, s.inFlight = some f → s.tokenManager.isAllocated f.token f.client = true

/-- The token of the declaration a client resumes. -/
def pendingToken (s : Declarator) (c : DownstreamId) (r : RequestId) : Option JdToken :=
  (s.clients c).bind fun client =>
    (client.pendingDeclareMiningJobs r).bind fun x => parseToken x.2.miningJobToken

/-- The condition on a step. A resumed declaration names a token that is still allocated to its
client; the client of a declaration in flight stays, and its token does not expire meanwhile. -/
def Held (s : Declarator) : Event → Prop
  | .provideMissingTransactionsSuccess c r =>
      ∀ t ∈ pendingToken s c r, s.tokenManager.isAllocated t c = true
  | .disconnect c => ∀ f ∈ s.inFlight, f.client ≠ c
  | .tokenJanitor =>
      ∀ f ∈ s.inFlight, ∀ x ∈ s.tokenManager.allocatedTokens f.token,
        s.clock - x.1 ≤ allocatedTokenTimeoutSecs
  | _ => True

instance (s : Declarator) : ∀ e, Decidable (Held s e)
  | .provideMissingTransactionsSuccess c r =>
      inferInstanceAs (Decidable (∀ t ∈ pendingToken s c r, s.tokenManager.isAllocated t c = true))
  | .disconnect c => inferInstanceAs (Decidable (∀ f ∈ s.inFlight, f.client ≠ c))
  | .tokenJanitor =>
      inferInstanceAs (Decidable (∀ f ∈ s.inFlight, ∀ x ∈ s.tokenManager.allocatedTokens f.token,
        s.clock - x.1 ≤ allocatedTokenTimeoutSecs))
  | .advance _ | .connect _ | .allocateMiningJobToken _ _ | .declareMiningJob _ _ | .nodeAnswer _
  | .setCustomMiningJob _ | .engineJanitor | .pendingJanitor _ => isTrue trivial

section Backed

variable {s s' : Declarator}

/-- The token is in the table, under this client. -/
theorem isAllocated_iff {tm : TokenManager} {t : JdToken} {c : DownstreamId} :
    tm.isAllocated t c = true ↔ ∃ x, tm.allocatedTokens t = some x ∧ x.2 = c := by
  simp [TokenManager.isAllocated, Option.any_eq_true]

theorem Backed.frame (h : Backed s) (htokens : s'.tokenManager = s.tokenManager)
    (hflight : s'.inFlight = s.inFlight) : Backed s' := by
  intro f hf
  rw [htokens]
  exact h f (hflight ▸ hf)

theorem backed_idle (h : s'.inFlight = none) : Backed s' := by
  intro f hf
  rw [h] at hf
  cases hf

theorem Backed.cleanupDownstream (h : Backed s) {c : DownstreamId}
    (hc : ∀ f ∈ s.inFlight, f.client ≠ c) : Backed (s.cleanupDownstream c) := by
  intro f hf
  obtain ⟨x, hx, hclient⟩ := isAllocated_iff.mp (h f hf)
  refine isAllocated_iff.mpr ⟨x, Option.filter_eq_some_iff.mpr ⟨hx, ?_⟩, hclient⟩
  simpa [hclient] using hc f hf

/-- The janitor of the tokens does not take the token of the declaration in flight. -/
theorem Backed.janitor (h : Backed s) (hc : Held s .tokenJanitor) :
    Backed { s with tokenManager := s.tokenManager.janitor s.clock } := by
  intro f hf
  obtain ⟨x, hx, hclient⟩ := isAllocated_iff.mp (h f hf)
  refine isAllocated_iff.mpr ⟨x, Option.filter_eq_some_iff.mpr ⟨hx, ?_⟩, hclient⟩
  simpa using hc f hf x hx

/-- A message is handled only while nothing is in flight. -/
theorem Backed.jdpMessage (h : Backed s) {c : DownstreamId} {handler : Client → Declarator}
    (hhandler : ∀ client, s.clients c = some client → s.inFlight = none → Backed (handler client)) :
    Backed (s.jdpMessage c handler) := by
  unfold Declarator.jdpMessage
  split
  · rename_i hidle
    have hnone : s.inFlight = none := by simp_all
    split
    · exact backed_idle hnone
    · exact hhandler _ (by assumption) hnone
  · exact h

/-- A declaration whose token is held goes into flight. -/
theorem backed_startValidation {c : DownstreamId} {t : JdToken} {d : DeclareMiningJob}
    {retry : Bool} (hnone : s.inFlight = none) (ht : s.tokenManager.isAllocated t c = true) :
    Backed (s.startValidation c t d retry) := by
  unfold Declarator.startValidation
  split
  · exact backed_idle hnone
  · exact backed_idle hnone
  · intro f hf
    obtain rfl := Option.some.inj hf
    exact ht

theorem backed_handleDeclareMiningJob {c : DownstreamId} {d : DeclareMiningJob}
    (hnone : s.inFlight = none) : Backed (s.handleDeclareMiningJob c d) := by
  unfold Declarator.handleDeclareMiningJob
  split
  · exact backed_idle hnone
  · split
    · rename_i t _ ht
      exact backed_startValidation hnone ht
    · exact backed_idle hnone

/-- This is where the source does not ask: the token is known to be held by the condition only. -/
theorem backed_handleProvideMissingTransactionsSuccess {c : DownstreamId} {client : Client}
    {r : RequestId} (hclient : s.clients c = some client) (hnone : s.inFlight = none)
    (hheld : Held s (.provideMissingTransactionsSuccess c r)) :
    Backed (s.handleProvideMissingTransactionsSuccess c client r) := by
  unfold Declarator.handleProvideMissingTransactionsSuccess
  split
  · exact backed_idle hnone
  · rename_i insertedAt d hpending
    dsimp only
    split
    · exact backed_idle hnone
    · rename_i t ht
      refine backed_startValidation hnone ?_
      apply hheld t
      simp [pendingToken, hclient, hpending, ht]

/-- A custom job touches neither the allocated tokens nor the declaration in flight. -/
theorem setCustomMiningJob_allocated (hash : Bytes → Bytes) (m : SetCustomMiningJob) :
    (s.handleSetCustomMiningJob hash m).1.inFlight = s.inFlight ∧
      (s.handleSetCustomMiningJob hash m).1.tokenManager.allocatedTokens =
        s.tokenManager.allocatedTokens := by
  unfold Declarator.handleSetCustomMiningJob
  split
  · exact ⟨rfl, rfl⟩
  · dsimp only
    split <;> exact ⟨rfl, rfl⟩

/-- A step that meets `Held` keeps the declaration in flight backed. -/
theorem backed_step {hash : Bytes → Bytes} (h : Backed s) (e : Event) (hc : Held s e) :
    Backed (s.step hash e) := by
  cases e with
  | advance secs => exact h.frame rfl rfl
  | connect c =>
      simp only [Declarator.step]
      split
      · exact h
      · exact h.frame rfl rfl
  | disconnect c => exact h.cleanupDownstream hc
  | allocateMiningJobToken c r => exact h.jdpMessage fun _ _ hnone => backed_idle hnone
  | declareMiningJob c d => exact h.jdpMessage fun _ _ hnone => backed_handleDeclareMiningJob hnone
  | provideMissingTransactionsSuccess c r =>
      exact h.jdpMessage fun _ hclient hnone =>
        backed_handleProvideMissingTransactionsSuccess hclient hnone hc
  | nodeAnswer response =>
      simp only [Declarator.step]
      split
      · exact h
      · exact backed_idle (settle_frame _ _ _).2
  | setCustomMiningJob m =>
      obtain ⟨hflight, halloc⟩ := setCustomMiningJob_allocated (s := s) hash m
      intro f hf
      have hold := h f (hflight ▸ hf)
      simpa only [TokenManager.isAllocated, Declarator.step, halloc] using hold
  | tokenJanitor => exact h.janitor hc
  | engineJanitor => exact h.frame rfl rfl
  | pendingJanitor c =>
      simp only [Declarator.step, Declarator.pendingJanitor]
      split
      · exact h
      · exact h.frame rfl rfl

/-- What is activated while declarations in flight are backed was held by its client. -/
theorem Backed.activation (h : Backed s) {e : Event} {x : Activation}
    (hx : activation? s e = some x) : x.held = true ∧ s.tokenManager.isAllocated x.allocated
    x.client := by
  cases e with
  | nodeAnswer response =>
      simp only [activation?] at hx
      split at hx
      · cases hx
      · rename_i f hf
        split at hx
        · obtain rfl := Option.some.inj hx
          exact ⟨h f hf, h f hf⟩
        · cases hx
  | _ => cases hx

end Backed

/-! ### The invariant of the ledger

`Accounted` relates the tables of tokens with the two lists: a token that was activated is allocated
no more, one that was consumed is active no more, and fresh tokens are in neither list. -/

/-- The ledger's entries and the tokens there are account for one another. -/
structure Accounted (l : Ledger) : Prop where
  handedOut : ∀ t x, l.declarator.tokenManager.allocatedTokens t = some x →
    t < l.declarator.tokenManager.tokenFactory
  bound : ∀ x ∈ l.activations, x.allocated < l.declarator.tokenManager.tokenFactory ∧
    x.active < l.declarator.tokenManager.tokenFactory
  /-- An activated token is not allocated again. -/
  spent : ∀ x ∈ l.activations, l.declarator.tokenManager.allocatedTokens x.allocated = none
  held : ∀ x ∈ l.activations, x.held = true
  allocated : (l.activations.map (·.allocated)).Nodup
  active : (l.activations.map (·.active)).Nodup
  /-- Every active token was issued by an activation. -/
  issued : ∀ a x, l.declarator.tokenManager.activeTokens a = some x →
    a ∈ l.activations.map (·.active)
  /-- A token that was consumed was issued, and is active no more. -/
  consumed : ∀ a ∈ l.successes, a ∈ l.activations.map (·.active) ∧
    l.declarator.tokenManager.activeTokens a = none
  successes : l.successes.Nodup
  replies : declareSuccesses l.declarator.outbox = l.activations.map fun x => (x.client, x.active)

theorem accounted_initial (script : Bytes) : Accounted (Ledger.initial script) where
  handedOut := nofun
  bound := nofun
  spent := nofun
  held := nofun
  allocated := List.nodup_nil
  active := List.nodup_nil
  issued := nofun
  consumed := nofun
  successes := List.nodup_nil
  replies := rfl

section Accounted

variable {s s' : Declarator} {acts : List Activation} {done : List JdToken}

theorem none_of_shrinks {α : Type*} {f f' : JdToken → Option α}
    (h : ∀ t x, f' t = some x → f t = some x) {t : JdToken} (ht : f t = none) : f' t = none :=
  Option.eq_none_iff_forall_ne_some.mpr fun x hx => by
    rw [h t x hx] at ht
    cases ht

theorem Accounted.shrink (h : Accounted ⟨s, acts, done⟩)
    (htokens : Shrinks s.tokenManager s'.tokenManager)
    (hout : declareSuccesses s'.outbox = declareSuccesses s.outbox) :
    Accounted ⟨s', acts, done⟩ where
  handedOut := by
    intro t x hx
    rw [htokens.factory]
    exact h.handedOut t x (htokens.allocated t x hx)
  bound := by
    rw [htokens.factory]
    exact h.bound
  spent := fun x hx => none_of_shrinks htokens.allocated (h.spent x hx)
  held := h.held
  allocated := h.allocated
  active := h.active
  issued := fun a x hx => h.issued a x (htokens.active a x hx)
  consumed := fun a ha => ⟨(h.consumed a ha).1, none_of_shrinks htokens.active (h.consumed a ha).2⟩
  successes := h.successes
  replies := hout.trans h.replies

/-- A token that is handed out is new. -/
theorem Accounted.allocate (h : Accounted ⟨s, acts, done⟩) {c : DownstreamId}
    (htokens : s'.tokenManager = (s.tokenManager.allocate s.clock c).1)
    (hout : declareSuccesses s'.outbox = declareSuccesses s.outbox) :
    Accounted ⟨s', acts, done⟩ where
  handedOut := by
    intro t x hx
    simp only [htokens, TokenManager.allocate] at hx ⊢
    by_cases ht : t = s.tokenManager.tokenFactory
    · exact ht ▸ Nat.lt_succ_self _
    · rw [Function.update_of_ne ht] at hx
      exact Nat.lt_succ_of_lt (h.handedOut t x hx)
  bound := by
    intro x hx
    simp only [htokens, TokenManager.allocate]
    exact ⟨Nat.lt_succ_of_lt (h.bound x hx).1, Nat.lt_succ_of_lt (h.bound x hx).2⟩
  spent := by
    intro x hx
    simp only [htokens, TokenManager.allocate]
    rw [Function.update_of_ne (Nat.ne_of_lt (h.bound x hx).1)]
    exact h.spent x hx
  held := h.held
  allocated := h.allocated
  active := h.active
  issued := by
    intro a x hx
    rw [htokens] at hx
    exact h.issued a x hx
  consumed := by
    intro a ha
    rw [htokens]
    exact h.consumed a ha
  successes := h.successes
  replies := hout.trans h.replies

/-- A token that is held was not activated before, and the token that replaces it is new. -/
theorem Accounted.activate (h : Accounted ⟨s, acts, done⟩) {t : JdToken} {c : DownstreamId}
    (hheld : s.tokenManager.isAllocated t c = true)
    (htokens : s'.tokenManager = (s.tokenManager.activate s.clock t c).1)
    (hout : declareSuccesses s'.outbox =
      (c, s.tokenManager.tokenFactory) :: declareSuccesses s.outbox) :
    Accounted ⟨s', ⟨t, s.tokenManager.tokenFactory, c, s.tokenManager.isAllocated t c⟩ :: acts,
      done⟩ := by
  obtain ⟨owner, howner, _⟩ := isAllocated_iff.mp hheld
  have hnew : t ∉ acts.map (·.allocated) := by
    intro hmem
    obtain ⟨x, hx, rfl⟩ := List.mem_map.mp hmem
    have hnone := h.spent x hx
    rw [howner] at hnone
    cases hnone
  have hfactory : s.tokenManager.tokenFactory ∉ acts.map (·.active) := by
    intro hmem
    obtain ⟨x, hx, hx'⟩ := List.mem_map.mp hmem
    exact Nat.lt_irrefl _ (hx' ▸ (h.bound x hx).2)
  refine ⟨?_, ?_, ?_, ?_, ?_, ?_, ?_, ?_, h.successes, ?_⟩
  · intro t' x hx
    simp only [htokens, TokenManager.activate] at hx ⊢
    exact Nat.lt_succ_of_lt (h.handedOut t' x (eq_some_of_update_none hx).2)
  · simp only [htokens, TokenManager.activate, List.forall_mem_cons]
    refine ⟨⟨Nat.lt_succ_of_lt (h.handedOut t owner howner), Nat.lt_succ_self _⟩, ?_⟩
    intro x hx
    exact ⟨Nat.lt_succ_of_lt (h.bound x hx).1, Nat.lt_succ_of_lt (h.bound x hx).2⟩
  · simp only [htokens, TokenManager.activate, List.forall_mem_cons]
    refine ⟨Function.update_self _ _ _, ?_⟩
    intro x hx
    exact none_of_shrinks (shrinks_deallocate t).allocated (h.spent x hx)
  · exact List.forall_mem_cons.mpr ⟨hheld, h.held⟩
  · exact List.nodup_cons.mpr ⟨hnew, h.allocated⟩
  · exact List.nodup_cons.mpr ⟨hfactory, h.active⟩
  · intro a x hx
    simp only [htokens, TokenManager.activate] at hx
    by_cases ha : a = s.tokenManager.tokenFactory
    · exact List.mem_cons.mpr (.inl ha)
    · rw [Function.update_of_ne ha] at hx
      exact List.mem_cons_of_mem _ (h.issued a x hx)
  · intro a ha
    obtain ⟨hmem, hnone⟩ := h.consumed a ha
    refine ⟨List.mem_cons_of_mem _ hmem, ?_⟩
    have hne : a ≠ s.tokenManager.tokenFactory := by
      rintro rfl
      exact hfactory hmem
    simp only [htokens, TokenManager.activate]
    rw [Function.update_of_ne hne]
    exact hnone
  · rw [hout, h.replies, List.map_cons]

/-- A token that is still active was not consumed before. -/
theorem Accounted.consume (h : Accounted ⟨s, acts, done⟩) {a : JdToken}
    (hactive : (s.tokenManager.activeTokens a).isSome)
    (htokens : s'.tokenManager = s.tokenManager.deactivate a)
    (hout : declareSuccesses s'.outbox = declareSuccesses s.outbox) :
    Accounted ⟨s', acts, a :: done⟩ := by
  obtain ⟨x, hx⟩ := Option.isSome_iff_exists.mp hactive
  have hnew : a ∉ done := by
    intro hmem
    have hnone := (h.consumed a hmem).2
    rw [hx] at hnone
    cases hnone
  have hshrink := h.shrink (htokens ▸ shrinks_deactivate a) hout
  refine { hshrink with consumed := ?_, successes := List.nodup_cons.mpr ⟨hnew, h.successes⟩ }
  refine List.forall_mem_cons.mpr ⟨⟨h.issued a x hx, ?_⟩, hshrink.consumed⟩
  rw [htokens]
  exact Function.update_self _ _ _

theorem accounted_step {hash : Bytes → Bytes} {l : Ledger} (h : Accounted l)
    (hbacked : Backed l.declarator) (e : Event) : Accounted (l.step hash e) := by
  obtain ⟨s, acts, done⟩ := l
  have heffect := tokenEffect_step hash s e
  have hheld : ∀ x, activation? s e = some x → s.tokenManager.isAllocated x.allocated
    x.client = true :=
    fun x hx => (hbacked.activation hx).2
  unfold Ledger.step
  generalize activation? s e = act at heffect hheld ⊢
  generalize success? hash s e = suc at heffect ⊢
  cases heffect with
  | shrink htokens hout => exact h.shrink htokens hout
  | allocate c htokens hout => exact h.allocate htokens hout
  | activate t c htokens hout => exact h.activate (hheld _ rfl) htokens hout
  | consume a hactive htokens hout => exact h.consume hactive htokens hout

end Accounted

/-! ### The result -/

/-- In every run whose steps meet `Held`: each activation was of a token the activating client held,
no allocated token is activated twice, no active token leads to two successes, and every success
stems from exactly one activation, which is the one `DeclareMiningJob.Success` that announced it. -/
theorem tokens_used_once {hash : Bytes → Bytes} {script : Bytes} {es : List Event}
    (hc : Along (Ledger.step hash) (fun l e => Held l.declarator e) (Ledger.initial script) es) :
    let l := exec (Ledger.step hash) (Ledger.initial script) es
    (∀ x ∈ l.activations, x.held = true) ∧
      (l.activations.map (·.allocated)).Nodup ∧
      l.successes.Nodup ∧
      ∀ a ∈ l.successes, (∃! x, x ∈ l.activations ∧ x.active = a) ∧
        (declareSuccesses l.declarator.outbox).countP (·.2 = a) = 1 := by
  intro l
  have hinv : Accounted l ∧ Backed l.declarator := by
    refine exec_induct (I := fun l => Accounted l ∧ Backed l.declarator) ?_ ?_ hc
    · rintro l e ⟨hacc, hbacked⟩ hheld
      exact ⟨accounted_step hacc hbacked e, backed_step hbacked e hheld⟩
    · exact ⟨accounted_initial script, backed_idle rfl⟩
  obtain ⟨h, _⟩ := hinv
  refine ⟨h.held, h.allocated, h.successes, ?_⟩
  intro a ha
  have hmem := (h.consumed a ha).1
  obtain ⟨x, hx, rfl⟩ := List.mem_map.mp hmem
  refine ⟨⟨x, ⟨hx, rfl⟩, ?_⟩, ?_⟩
  · rintro y ⟨hy, hyx⟩
    exact List.inj_on_of_nodup_map h.active hy hx hyx
  · calc (declareSuccesses l.declarator.outbox).countP (·.2 = x.active)
        = (l.activations.map (·.active)).count x.active := by
          rw [h.replies, List.countP_map, List.count, List.countP_map]
          rfl
      _ = 1 := List.count_eq_one_of_mem h.active hmem

/-- A declaration with one transaction the node does not know. -/
def sampleIncomplete (requestId : RequestId) (token : JdToken) : DeclareMiningJob :=
  { sampleDeclaration requestId token [0x51] with wtxidList := [List.replicate 32 7] }

def sampleMissing : JdResponse := .missingTransactions [List.replicate 32 7] sampleContext

def sampleComplete : JdResponse := .success sampleContext [List.replicate 32 8]

/-- One declaration waits for a transaction while a second one succeeds and is used; then the first
is resumed. -/
def singleUse : List Event :=
  [.connect 1, .allocateMiningJobToken 1 1, .allocateMiningJobToken 1 2,
    .declareMiningJob 1 (sampleIncomplete 5 0), .nodeAnswer sampleMissing,
    .declareMiningJob 1 (sampleDeclaration 6 1 [0x51]), .nodeAnswer (.success sampleContext []),
    .setCustomMiningJob (sampleCustomJob 2), .provideMissingTransactionsSuccess 1 5,
    .nodeAnswer sampleComplete]

theorem single_use_of_two_tokens :
    let l := exec (Ledger.step Sha256.digestTwice) (Ledger.initial [0x51]) singleUse
    l.activations = [⟨0, 3, 1, true⟩, ⟨1, 2, 1, true⟩] ∧ l.successes = [2] ∧
      (declareSuccesses l.declarator.outbox).countP (·.2 = 2) = 1 := by
  have hc : Along (Ledger.step Sha256.digestTwice) (fun l e => Held l.declarator e)
      (Ledger.initial [0x51]) singleUse := by decide +kernel
  refine ⟨by decide +kernel, by decide +kernel, ?_⟩
  exact ((tokens_used_once hc).2.2.2 2 (by decide +kernel)).2

/-- Two declarations under one token wait for a transaction, and both are resumed. -/
def resumedTwice : List Event :=
  [.connect 1, .allocateMiningJobToken 1 1,
    .declareMiningJob 1 (sampleIncomplete 5 0), .nodeAnswer sampleMissing,
    .declareMiningJob 1 (sampleIncomplete 6 0), .nodeAnswer sampleMissing,
    .provideMissingTransactionsSuccess 1 5, .nodeAnswer sampleComplete,
    .provideMissingTransactionsSuccess 1 6, .nodeAnswer sampleComplete]

/-- Token 0 is activated for both declarations that were resumed with it. -/
theorem token_activated_twice :
    let l := exec (Ledger.step Sha256.digestTwice) (Ledger.initial [0x51]) resumedTwice
    l.activations = [⟨0, 2, 1, false⟩, ⟨0, 1, 1, true⟩] ∧
      ¬(l.activations.map (·.allocated)).Nodup ∧ ¬∀ x ∈ l.activations, x.held = true :=
  ⟨by decide +kernel, by decide +kernel, by decide +kernel⟩

end GridPoolSv2.JobDeclarator
