import GridPoolSv2.JobDeclarator.Tokens

/-!
# JobDeclarator.ErrorCleanup: what a rejected declaration leaves behind

After a `DeclareMiningJob.Error` nothing should remain of the declaration: not its token
with the token manager, nor the two entries the engine may have made of it in an earlier
round. The cleanup is divided: the message handler deallocates the token on every exit but
the one for an invalid token, and the engine forgets its entries when the node rejects the
declaration or the context has drifted.

* `Rejected` is a step that answers a declaration with an error, and `CleanedUp` what
  should hold after it.
* On the other exits the engine is not told. A retry that still misses transactions is even
  **stored anew** before the handler rejects it.
* `cleanedUp_iff` gives the condition, on the state before the step, for each exit. The
  owner of a token never changes (`Attributed`), which is what the exit for an invalid token
  rests on.
-/

namespace GridPoolSv2.JobDeclarator

open Runs Declarator
open Consensus (Bytes)
open Function (update)

/-! ### The property

`subject?` is the declaration a step is about, by the event alone; `Rejected` asks that the reply to
it is an error. The property speaks of the state after that step. -/

/-- The client and the declaration an event is about. -/
def subject? (s : Declarator) : Event → Option (DownstreamId × DeclareMiningJob)
  | .declareMiningJob c d => some (c, d)
  | .provideMissingTransactionsSuccess c r =>
      (s.clients c).bind fun client => (client.pendingDeclareMiningJobs r).map fun x => (c, x.2)
  | .nodeAnswer _ => s.inFlight.map fun f => (f.client, f.declaration)
  | _ => none

/-- A declaration of a client waits for missing transactions under a request id. -/
def Pending (s : Declarator) (c : DownstreamId) (r : RequestId) (d : DeclareMiningJob) : Prop :=
  ∃ client x, s.clients c = some client ∧ client.pendingDeclareMiningJobs r = some x ∧ x.2 = d

/-- A client has declared a job under a token: it holds the token now, or an earlier round of the
declaration waits for transactions or for the node. -/
def DeclaredUnder (s : Declarator) (c : DownstreamId) (d : DeclareMiningJob) (t : JdToken) : Prop :=
  s.tokenManager.isAllocated t c = true ∨ (∃ r, Pending s c r d) ∨
    ∃ f, s.inFlight = some f ∧ f.client = c ∧ f.declaration = d

/-- The step answers the declaration with an error. -/
structure Rejected (hash : Bytes → Bytes) (s : Declarator) (e : Event) (c : DownstreamId)
    (d : DeclareMiningJob) (t : JdToken) : Prop where
  subject : subject? s e = some (c, d)
  token : parseToken d.miningJobToken = some t
  declared : DeclaredUnder s c d t
  error : ∃ code, (s.step hash e).outbox = (c, .declareMiningJobError d.requestId code) :: s.outbox

/-- The engine has no entry for the token and no job of the declaration. -/
structure Forgotten (e : Engine) (d : DeclareMiningJob) (t : JdToken) : Prop where
  token : e.allocatedTokenEntries.lookup t = none
  job : ∀ job, e.declaredCustomJobs d.requestId = some job → job.declareMiningJob ≠ d

/-- Nothing is left of a declaration. -/
structure CleanedUp (s : Declarator) (d : DeclareMiningJob) (t : JdToken) : Prop where
  allocated : s.tokenManager.allocatedTokens t = none
  engine : Forgotten s.engine d t

/-- The condition for each exit. The node's error cleans up; so does a retry on a drifted context,
and no other retry that misses transactions; elsewhere the engine must have had nothing before. -/
def Cleans (s : Declarator) (d : DeclareMiningJob) (t : JdToken) : Event → Prop
  | .nodeAnswer (.error _ _) => True
  | .nodeAnswer (.missingTransactions _ ctx) =>
      ∃ f, s.inFlight = some f ∧ f.previous.any (validationContextDrifted · ctx) = true
  | _ => Forgotten s.engine d t

/-! ### Owners of tokens

A token belongs to the client it was handed to for as long as it is allocated. Only `allocate_token`
makes an owner, and tokens are never handed out twice. -/

/-- A token that was handed out, to no one else than the client. -/
def Registered (tm : TokenManager) (t : JdToken) (c : DownstreamId) : Prop :=
  t < tm.tokenFactory ∧ ∀ x, tm.allocatedTokens t = some x → x.2 = c

/-- Every token the declarator works with is registered for its client. -/
structure Attributed (s : Declarator) : Prop where
  allocated : ∀ t x, s.tokenManager.allocatedTokens t = some x → t < s.tokenManager.tokenFactory
  inFlight : ∀ f, s.inFlight = some f →
    parseToken f.declaration.miningJobToken = some f.token ∧
      Registered s.tokenManager f.token f.client
  pending : ∀ c r d, Pending s c r d →
    ∃ t, parseToken d.miningJobToken = some t ∧ Registered s.tokenManager t c

section Owners

variable {s s' : Declarator}

theorem registered_of_isAllocated (h : Attributed s) {t : JdToken} {c : DownstreamId}
    (ht : s.tokenManager.isAllocated t c = true) : Registered s.tokenManager t c := by
  obtain ⟨x, hx, rfl⟩ := isAllocated_iff.mp ht
  refine ⟨h.allocated t x hx, ?_⟩
  intro y hy
  rw [Option.some.inj (hx.symm.trans hy)]

/-- A new token is none of the registered ones. -/
theorem TokenEffect.registered {activation : Option Activation} {success : Option JdToken}
    (he : TokenEffect s s' activation success) {t : JdToken} {c : DownstreamId}
    (h : Registered s.tokenManager t c) : Registered s'.tokenManager t c := by
  obtain ⟨hlt, howner⟩ := h
  cases he with
  | shrink htokens hout =>
      refine ⟨by rw [htokens.factory]; exact hlt, ?_⟩
      intro x hx
      exact howner x (htokens.allocated t x hx)
  | allocate c' htokens hout =>
      rw [htokens]
      refine ⟨Nat.lt_succ_of_lt hlt, ?_⟩
      intro x hx
      simp only [TokenManager.allocate, Function.update_of_ne (Nat.ne_of_lt hlt)] at hx
      exact howner x hx
  | activate t' c' htokens hout =>
      rw [htokens]
      refine ⟨Nat.lt_succ_of_lt hlt, ?_⟩
      intro x hx
      exact howner x (eq_some_of_update_none hx).2
  | consume a hactive htokens hout =>
      rw [htokens]
      exact ⟨hlt, howner⟩

theorem TokenEffect.allocated_lt {activation : Option Activation} {success : Option JdToken}
    (he : TokenEffect s s' activation success)
    (h : ∀ t x, s.tokenManager.allocatedTokens t = some x → t < s.tokenManager.tokenFactory)
    (t : JdToken) (x : Nat × DownstreamId) (hx : s'.tokenManager.allocatedTokens t = some x) :
    t < s'.tokenManager.tokenFactory := by
  cases he with
  | shrink htokens hout =>
      rw [htokens.factory]
      exact h t x (htokens.allocated t x hx)
  | allocate c' htokens hout =>
      rw [htokens] at hx ⊢
      by_cases ht : t = s.tokenManager.tokenFactory
      · rw [ht]
        exact Nat.lt_succ_self _
      · simp only [TokenManager.allocate, Function.update_of_ne ht] at hx
        exact Nat.lt_succ_of_lt (h t x hx)
  | activate t' c' htokens hout =>
      rw [htokens] at hx ⊢
      exact Nat.lt_succ_of_lt (h t x (eq_some_of_update_none hx).2)
  | consume a hactive htokens hout =>
      rw [htokens] at hx ⊢
      exact h t x hx

/-- Where the declarations of the next state come from: a new one in flight has a token that its
client holds or that an earlier round had, and a new pending one was in flight. -/
structure Continues (s s' : Declarator) : Prop where
  inFlight : ∀ f, s'.inFlight = some f → s.inFlight = some f ∨
    parseToken f.declaration.miningJobToken = some f.token ∧
      (s.tokenManager.isAllocated f.token f.client = true ∨ ∃ r, Pending s f.client r f.declaration)
  pending : ∀ c r d, Pending s' c r d → Pending s c r d ∨
    ∃ f, s.inFlight = some f ∧ f.client = c ∧ f.declaration = d

/-- The step lemma, from the effect on the tokens and on the declarations under way. -/
theorem Attributed.step (h : Attributed s) {activation : Option Activation}
    {success : Option JdToken} (he : TokenEffect s s' activation success)
    (hc : Continues s s') : Attributed s' where
  allocated := he.allocated_lt h.allocated
  inFlight := by
    intro f hf
    rcases hc.inFlight f hf with hold | ⟨htoken, hheld | ⟨r, hpending⟩⟩
    · obtain ⟨htoken, hreg⟩ := h.inFlight f hold
      exact ⟨htoken, he.registered hreg⟩
    · exact ⟨htoken, he.registered (registered_of_isAllocated h hheld)⟩
    · obtain ⟨t, ht, hreg⟩ := h.pending _ _ _ hpending
      obtain rfl := Option.some.inj (htoken.symm.trans ht)
      exact ⟨htoken, he.registered hreg⟩
  pending := by
    intro c r d hd
    rcases hc.pending c r d hd with hold | ⟨f, hf, rfl, rfl⟩
    · obtain ⟨t, ht, hreg⟩ := h.pending c r d hold
      exact ⟨t, ht, he.registered hreg⟩
    · obtain ⟨htoken, hreg⟩ := h.inFlight f hf
      exact ⟨f.token, htoken, he.registered hreg⟩

/-- Replacing one client by one whose pending declarations are among the old ones. -/
theorem pending_of_update {c₀ : DownstreamId} {new : Option Client}
    (hclients : s'.clients = update s.clients c₀ new)
    (hnew : ∀ client r x, new = some client → client.pendingDeclareMiningJobs r = some x →
      Pending s c₀ r x.2) {c : DownstreamId} {r : RequestId} {d : DeclareMiningJob}
    (h : Pending s' c r d) : Pending s c r d := by
  obtain ⟨client, x, hclient, hx, rfl⟩ := h
  rw [hclients] at hclient
  by_cases hc : c = c₀
  · subst hc
    rw [Function.update_self] at hclient
    exact hnew client r x hclient hx
  · rw [Function.update_of_ne hc] at hclient
    exact ⟨client, x, hclient, hx, rfl⟩

/-- Taking a declaration out of the pending ones. -/
theorem pending_taken {c : DownstreamId} {client : Client} (hclient : s.clients c = some client)
    (r : RequestId) (c' : DownstreamId) (r' : RequestId) (d : DeclareMiningJob)
    (h : Pending
      { s with clients := update s.clients c (some { client with
          pendingDeclareMiningJobs := update client.pendingDeclareMiningJobs r none }) } c' r' d) :
    Pending s c' r' d := by
  refine pending_of_update rfl ?_ h
  intro client' r' x hnew hx
  obtain rfl := Option.some.inj hnew
  exact ⟨client, x, hclient, (eq_some_of_update_none hx).2, rfl⟩

/-- Everything but the answer of the node. -/
def ClientSide : Event → Prop
  | .nodeAnswer _ => False
  | _ => True

/-- What a step other than the node's answer does about declarations: none becomes pending, and one
may go to the node when none is in flight. -/
inductive ClientStep (s s' : Declarator) : Prop where
  | stays (hflight : s'.inFlight = s.inFlight)
      (hpending : ∀ c r d, Pending s' c r d → Pending s c r d)
  | starts (f : InFlight) (hidle : s.inFlight = none) (hflight : s'.inFlight = some f)
      (htoken : parseToken f.declaration.miningJobToken = some f.token)
      (hfound : f.retry = false ∧ s.tokenManager.isAllocated f.token f.client = true ∨
        f.retry = true ∧ ∃ r, Pending s f.client r f.declaration)
      (hpending : ∀ c r d, Pending s' c r d → Pending s c r d)

theorem ClientStep.frame (hflight : s'.inFlight = s.inFlight) (hclients : s'.clients = s.clients) :
    ClientStep s s' := by
  refine .stays hflight ?_
  rintro c r d ⟨client, x, hclient, hx, hd⟩
  exact ⟨client, x, hclients ▸ hclient, hx, hd⟩

theorem clientStep_cleanupDownstream (c : DownstreamId) : ClientStep s (s.cleanupDownstream c) :=
  .stays rfl fun _ _ _ h => pending_of_update rfl (fun _ _ _ hnew => by cases hnew) h

theorem clientStep_jdpMessage {c : DownstreamId} {handler : Client → Declarator}
    (h : s.inFlight = none → ∀ client, s.clients c = some client → ClientStep s (handler client)) :
    ClientStep s (s.jdpMessage c handler) := by
  unfold Declarator.jdpMessage
  by_cases hidle : (s.jdpAlive && s.inFlight.isNone) = true
  · rw [if_pos hidle]
    simp only [Bool.and_eq_true, Option.isNone_iff_eq_none] at hidle
    cases hclient : s.clients c with
    | none => exact clientStep_cleanupDownstream c
    | some client => exact h hidle.2 client hclient
  · rw [if_neg hidle]
    exact .frame rfl rfl

/-- A validation starts when nothing is in flight, with a token that a handler has found. -/
theorem clientStep_startValidation {s₀ : Declarator} (hidle : s₀.inFlight = none)
    (hflight : s.inFlight = s₀.inFlight)
    (hpending : ∀ c r d, Pending s c r d → Pending s₀ c r d) {c : DownstreamId} {t : JdToken}
    {d : DeclareMiningJob} {retry : Bool} (htoken : parseToken d.miningJobToken = some t)
    (hfound : retry = false ∧ s₀.tokenManager.isAllocated t c = true ∨
      retry = true ∧ ∃ r, Pending s₀ c r d) :
    ClientStep s₀ (s.startValidation c t d retry) := by
  unfold Declarator.startValidation
  cases Engine.precheck d with
  | error fault => exact .stays hflight hpending
  | ok code =>
      cases code with
      | some code => exact .stays hflight hpending
      | none => exact .starts _ hidle rfl htoken hfound hpending

theorem clientStep_handleDeclareMiningJob (hidle : s.inFlight = none) (c : DownstreamId)
    (d : DeclareMiningJob) : ClientStep s (s.handleDeclareMiningJob c d) := by
  unfold Declarator.handleDeclareMiningJob
  cases ht : parseToken d.miningJobToken with
  | none => exact .frame rfl rfl
  | some t =>
      dsimp only
      split
      · rename_i hheld
        exact clientStep_startValidation hidle rfl (fun _ _ _ => id) ht (.inl ⟨rfl, hheld⟩)
      · exact .frame rfl rfl

theorem clientStep_handleProvideMissingTransactionsSuccess (hidle : s.inFlight = none)
    {c : DownstreamId} {client : Client} (hclient : s.clients c = some client) (r : RequestId) :
    ClientStep s (s.handleProvideMissingTransactionsSuccess c client r) := by
  unfold Declarator.handleProvideMissingTransactionsSuccess
  cases hd : client.pendingDeclareMiningJobs r with
  | none => exact .frame rfl rfl
  | some x =>
      have htaken := pending_taken hclient r
      dsimp only
      cases ht : parseToken x.2.miningJobToken with
      | none => exact .stays rfl htaken
      | some t =>
          refine clientStep_startValidation hidle ?_ htaken ht ?_
          · rfl
          · exact .inr ⟨rfl, r, client, x, hclient, hd, rfl⟩

/-- What a message of a client does to its own declarations. -/
theorem clientStep_step (hash : Bytes → Bytes) (s : Declarator) {e : Event} (he : ClientSide e) :
    ClientStep s (s.step hash e) := by
  cases e with
  | advance secs => exact .frame rfl rfl
  | connect c =>
      simp only [Declarator.step]
      cases s.clients c with
      | some client => exact .frame rfl rfl
      | none =>
          refine .stays rfl fun _ _ _ h => pending_of_update rfl ?_ h
          intro client r x hnew hx
          obtain rfl := Option.some.inj hnew
          cases hx
  | disconnect c => exact clientStep_cleanupDownstream c
  | allocateMiningJobToken c r => exact clientStep_jdpMessage fun _ _ _ => .frame rfl rfl
  | declareMiningJob c d =>
      exact clientStep_jdpMessage fun hidle _ _ => clientStep_handleDeclareMiningJob hidle c d
  | provideMissingTransactionsSuccess c r =>
      exact clientStep_jdpMessage fun hidle _ hclient =>
        clientStep_handleProvideMissingTransactionsSuccess hidle hclient r
  | nodeAnswer response => exact absurd he id
  | setCustomMiningJob m =>
      simp only [Declarator.step, Declarator.handleSetCustomMiningJob]
      split
      · exact .frame rfl rfl
      · split <;> exact .frame rfl rfl
  | tokenJanitor => exact .frame rfl rfl
  | engineJanitor => exact .frame rfl rfl
  | pendingJanitor c =>
      simp only [Declarator.step, Declarator.pendingJanitor]
      split
      · exact .frame rfl rfl
      · rename_i client hclient
        refine .stays rfl fun _ _ _ h => pending_of_update rfl ?_ h
        intro client' r x hnew hx
        obtain rfl := Option.some.inj hnew
        exact ⟨client, x, hclient, (Option.filter_eq_some_iff.mp hx).1, rfl⟩

theorem ClientStep.continues (h : ClientStep s s') : Continues s s' := by
  cases h with
  | stays hflight hpending =>
      exact ⟨fun f hf => .inl (hflight ▸ hf), fun c r d hd => .inl (hpending c r d hd)⟩
  | starts f hidle hflight htoken hfound hpending =>
      refine ⟨?_, fun c r d hd => .inl (hpending c r d hd)⟩
      intro g hg
      obtain rfl := Option.some.inj (hflight.symm.trans hg)
      exact .inr ⟨htoken, hfound.imp And.right And.right⟩

/-- What follows a validation makes at most the declaration itself pending, in place of another
under its request id: in its first round, when transactions are missing. -/
theorem pending_settle {f : InFlight} {response : JdResponse} {result : DeclareMiningJobResult}
    {c : DownstreamId} {r : RequestId} {d : DeclareMiningJob}
    (h : Pending (s.settle f response result) c r d) :
    (Pending s c r d ∧ ∀ missing, result = .missingTransactions missing → f.retry = false →
      c = f.client → r ≠ f.declaration.requestId) ∨
    c = f.client ∧ r = f.declaration.requestId ∧ d = f.declaration ∧ f.retry = false ∧
      ∃ missing, result = .missingTransactions missing := by
  cases result with
  | success => exact .inl ⟨h, fun _ hresult => by cases hresult⟩
  | error code => exact .inl ⟨h, fun _ hresult => by cases hresult⟩
  | missingTransactions missing =>
      unfold Declarator.settle at h
      dsimp only at h
      cases hretry : f.retry with
      | true =>
          rw [hretry] at h
          exact .inl ⟨h, fun _ _ hnot => by cases hnot⟩
      | false =>
          rw [hretry] at h
          cases hclient : s.clients f.client with
          | none =>
              rw [hclient] at h
              refine .inl ⟨pending_of_update rfl (fun _ _ _ hnew => by cases hnew) h, ?_⟩
              rintro - - - rfl
              obtain ⟨client, x, hgone, -⟩ := h
              simp [Declarator.cleanupDownstream] at hgone
          | some client =>
              rw [hclient] at h
              obtain ⟨client', x, hclient', hx, rfl⟩ := h
              by_cases hc : c = f.client
              · subst hc
                simp only [Declarator.reply, Bool.false_eq_true, if_false, Function.update_self]
                  at hclient'
                obtain rfl := Option.some.inj hclient'
                by_cases hr : r = f.declaration.requestId
                · rw [hr] at hx
                  simp only [Function.update_self] at hx
                  obtain rfl := Option.some.inj hx
                  exact .inr ⟨rfl, hr, rfl, rfl, missing, rfl⟩
                · simp only [Function.update_of_ne hr] at hx
                  exact .inl ⟨⟨client, x, hclient, hx, rfl⟩, fun _ _ _ _ => hr⟩
              · simp only [Declarator.reply, Bool.false_eq_true, if_false,
                  Function.update_of_ne hc] at hclient'
                exact .inl ⟨⟨client', x, hclient', hx, rfl⟩, fun _ _ _ hsame => absurd hsame hc⟩

/-- After an answer the declaration is pending, or settled. -/
theorem continues_settle {s₀ : Declarator} {f : InFlight} (hf : s₀.inFlight = some f)
    (hidle : s.inFlight = none) (hclients : s.clients = s₀.clients) (response : JdResponse)
    (result : DeclareMiningJobResult) : Continues s₀ (s.settle f response result) := by
  refine ⟨?_, ?_⟩
  · intro g hg
    rw [(settle_frame f response result).2, hidle] at hg
    cases hg
  · intro c r d h
    rcases pending_settle h with ⟨⟨client, x, hclient, hx, hd⟩, -⟩ | ⟨rfl, -, rfl, -⟩
    · exact .inl ⟨client, x, hclients ▸ hclient, hx, hd⟩
    · exact .inr ⟨f, hf, rfl, rfl⟩

theorem continues_step (hash : Bytes → Bytes) (s : Declarator) (e : Event) :
    Continues s (s.step hash e) := by
  cases e with
  | nodeAnswer response =>
      simp only [Declarator.step]
      split
      · exact (ClientStep.frame rfl rfl).continues
      · rename_i f hf
        unfold Declarator.handleNodeAnswer
        refine continues_settle hf ?_ ?_ response _
        · rfl
        · rfl
  | _ =>
      refine (clientStep_step hash s ?_).continues
      trivial

theorem attributed_initial (script : Bytes) : Attributed (Declarator.initial script) where
  allocated := nofun
  inFlight := nofun
  pending := by
    rintro c r d ⟨client, x, hclient, -⟩
    cases hclient

theorem attributed_exec (hash : Bytes → Bytes) (script : Bytes) (es : List Event) :
    Attributed (exec (step hash) (Declarator.initial script) es) :=
  exec_invariant (I := Attributed)
    (fun s e h => h.step (tokenEffect_step hash s e) (continues_step hash s e))
    (attributed_initial script) es

end Owners

/-! ### The exits

One lemma for each event that can end in an error. On the exits before the node the engine is not
told, so the condition is that it had nothing to forget. -/

section Exits

variable {s s' : Declarator} {c : DownstreamId} {d : DeclareMiningJob} {t : JdToken}

/-- An exit that does not reach the engine. -/
theorem cleanedUp_iff_forgotten (halloc : s'.tokenManager.allocatedTokens t = none)
    (hengine : s'.engine = s.engine) : CleanedUp s' d t ↔ Forgotten s.engine d t := by
  constructor
  · intro h
    rw [← hengine]
    exact h.engine
  · intro h
    refine ⟨halloc, ?_⟩
    rw [hengine]
    exact h

theorem allocatedTokens_deallocate (tm : TokenManager) (t : JdToken) :
    (tm.deallocate t).allocatedTokens t = none :=
  Function.update_self ..

/-- The engine forgets the token and the job together. -/
theorem forgotten_remove (e : Engine) (d : DeclareMiningJob) (t : JdToken) :
    Forgotten (e.remove t d.requestId) d t where
  token := AList.lookup_erase _ _
  job := by
    intro job hjob
    rw [Engine.remove] at hjob
    simp only [Function.update_self] at hjob
    cases hjob

theorem not_forgotten_store (e : Engine) (now : Nat) (t : JdToken) (job : DeclaredCustomJob)
    (d : DeclareMiningJob) : ¬Forgotten (e.store now t job) d t := by
  intro h
  have htoken := h.token
  rw [Engine.store, AList.lookup_insert] at htoken
  cases htoken

/-- A validation that is rejected before the node is asked. -/
theorem startValidation_rejects {retry : Bool} {x : DownstreamId × Reply}
    (h : (s.startValidation c t d retry).outbox = x :: s.outbox) :
    (s.startValidation c t d retry).tokenManager.allocatedTokens t = none ∧
      (s.startValidation c t d retry).engine = s.engine := by
  unfold Declarator.startValidation at h ⊢
  cases hpre : Engine.precheck d with
  | error fault =>
      rw [hpre] at h
      exact absurd h.symm (List.cons_ne_self _ _)
  | ok result =>
      cases result with
      | none =>
          rw [hpre] at h
          exact absurd h.symm (List.cons_ne_self _ _)
      | some code => exact ⟨allocatedTokens_deallocate _ t, rfl⟩

/-- Of a declaration that waits, the token is its client's or nobody's. -/
theorem Attributed.unallocated (h : Attributed s) {r : RequestId} (hpending : Pending s c r d)
    (htoken : parseToken d.miningJobToken = some t)
    (hnot : s.tokenManager.isAllocated t c ≠ true) : s.tokenManager.allocatedTokens t = none := by
  obtain ⟨t', ht', _, howner⟩ := h.pending c r d hpending
  obtain rfl := Option.some.inj (htoken.symm.trans ht')
  cases halloc : s.tokenManager.allocatedTokens t with
  | none => rfl
  | some x => exact absurd (isAllocated_iff.mpr ⟨x, halloc, howner x halloc⟩) hnot

/-- A message that sends something is handled for a connected client, with nothing in flight. -/
theorem jdpMessage_handled {handler : Client → Declarator} {x : DownstreamId × Reply}
    (h : (s.jdpMessage c handler).outbox = x :: s.outbox) :
    s.inFlight = none ∧ ∃ client, s.clients c = some client ∧
      s.jdpMessage c handler = handler client := by
  unfold Declarator.jdpMessage at h ⊢
  by_cases hidle : (s.jdpAlive && s.inFlight.isNone) = true
  · rw [if_pos hidle] at h ⊢
    cases hclient : s.clients c with
    | none =>
        rw [hclient] at h
        exact absurd h.symm (List.cons_ne_self _ _)
    | some client =>
        simp only [Bool.and_eq_true, Option.isNone_iff_eq_none] at hidle
        exact ⟨hidle.2, client, rfl, rfl⟩
  · rw [if_neg hidle] at h
    exact absurd h.symm (List.cons_ne_self _ _)

/-- A first declaration that is rejected before the node is asked. -/
theorem cleanedUp_declareMiningJob {hash : Bytes → Bytes} (h : Attributed s)
    (hr : Rejected hash s (.declareMiningJob c d) c d t) :
    CleanedUp (s.step hash (.declareMiningJob c d)) d t ↔ Forgotten s.engine d t := by
  obtain ⟨code, hout⟩ := hr.error
  obtain ⟨hidle, client, hclient, hstep⟩ := jdpMessage_handled hout
  simp only [Declarator.step] at hout ⊢
  rw [hstep] at hout ⊢
  unfold Declarator.handleDeclareMiningJob at hout ⊢
  rw [hr.token] at hout ⊢
  dsimp only at hout ⊢
  by_cases hheld : s.tokenManager.isAllocated t c = true
  · rw [if_pos hheld] at hout ⊢
    obtain ⟨halloc, hengine⟩ := startValidation_rejects hout
    exact cleanedUp_iff_forgotten halloc hengine
  · rw [if_neg hheld]
    -- only an earlier round can have declared the job under the token
    rcases hr.declared with hnow | ⟨r, hpending⟩ | ⟨f, hf, -, -⟩
    · exact absurd hnow hheld
    · exact cleanedUp_iff_forgotten (s := s) (h.unallocated hpending hr.token hheld) rfl
    · rw [hidle] at hf
      cases hf

/-- A retry that is rejected before the node is asked. -/
theorem cleanedUp_provideMissingTransactionsSuccess {hash : Bytes → Bytes} {r : RequestId}
    {c' : DownstreamId} (hr : Rejected hash s (.provideMissingTransactionsSuccess c' r) c d t) :
    CleanedUp (s.step hash (.provideMissingTransactionsSuccess c' r)) d t ↔
      Forgotten s.engine d t := by
  obtain ⟨code, hout⟩ := hr.error
  obtain ⟨hidle, client, hclient, hstep⟩ := jdpMessage_handled hout
  have hsubject := hr.subject
  simp only [subject?, hclient, Option.bind_some, Option.map_eq_some_iff, Prod.mk.injEq] at hsubject
  obtain ⟨⟨insertedAt, d'⟩, hpending, rfl, rfl⟩ := hsubject
  simp only [Declarator.step] at hout ⊢
  rw [hstep] at hout ⊢
  unfold Declarator.handleProvideMissingTransactionsSuccess at hout ⊢
  rw [hpending] at hout ⊢
  dsimp only at hout ⊢
  rw [hr.token] at hout ⊢
  obtain ⟨halloc, hengine⟩ := startValidation_rejects hout
  exact cleanedUp_iff_forgotten halloc hengine

theorem cleanedUp_nodeAnswer {hash : Bytes → Bytes} {response : JdResponse} (h : Attributed s)
    (hr : Rejected hash s (.nodeAnswer response) c d t) :
    CleanedUp (s.step hash (.nodeAnswer response)) d t ↔ Cleans s d t (.nodeAnswer response) := by
  obtain ⟨code, hout⟩ := hr.error
  obtain ⟨f, hf, hfd⟩ := Option.map_eq_some_iff.mp hr.subject
  obtain ⟨rfl, rfl⟩ := Prod.mk.inj hfd
  obtain rfl := Option.some.inj (hr.token.symm.trans (h.inFlight f hf).1)
  simp only [Declarator.step, hf, Declarator.handleNodeAnswer] at hout ⊢
  cases response with
  | success ctx txids => cases (List.cons.inj hout).1
  | error nodeCode ctx =>
      refine iff_of_true ⟨?_, ?_⟩ trivial
      · exact allocatedTokens_deallocate _ _
      · exact forgotten_remove _ _ _
  | missingTransactions missing ctx =>
      cases hdrift : f.previous.any (validationContextDrifted · ctx) with
      | true =>
          cases hretry : f.retry with
          | true =>
              simp only [Engine.finish, hdrift, Bool.and_self, if_true]
              refine iff_of_true ⟨?_, ?_⟩ ⟨f, hf, hdrift⟩
              · exact allocatedTokens_deallocate _ _
              · exact forgotten_remove _ _ _
          | false =>
              simp only [Engine.finish, hretry, hdrift, Bool.false_and, Bool.false_eq_true,
                if_false, Declarator.settle] at hout
              split at hout
              · exact absurd hout.symm (List.cons_ne_self _ _)
              · cases (List.cons.inj hout).1
      | false =>
          refine iff_of_false ?_ ?_
          · intro hclean
            have hforgot := hclean.engine
            rw [(settle_frame _ _ _).1] at hforgot
            simp only [Engine.finish, hdrift, Bool.and_false, Bool.false_eq_true,
              if_false] at hforgot
            exact not_forgotten_store _ _ _ _ _ hforgot
          · rintro ⟨g, hg, hany⟩
            obtain rfl := Option.some.inj (hf.symm.trans hg)
            rw [hdrift] at hany
            cases hany
  | channelClosed => exact cleanedUp_iff_forgotten (allocatedTokens_deallocate _ _) rfl

end Exits

/-! ### The result -/

/-- In every state the declarator reaches: after a step that answers a declaration with an error,
nothing is left of the declaration **exactly** when the exit cleans up. -/
theorem cleanedUp_iff {hash : Bytes → Bytes} {script : Bytes} {es : List Event} {e : Event}
    {c : DownstreamId} {d : DeclareMiningJob} {t : JdToken}
    (h : Rejected hash (exec (step hash) (Declarator.initial script) es) e c d t) :
    CleanedUp (Declarator.step hash (exec (step hash) (Declarator.initial script) es) e) d t ↔
      Cleans (exec (step hash) (Declarator.initial script) es) d t e := by
  have hattr := attributed_exec hash script es
  cases e with
  | declareMiningJob c' d' =>
      obtain ⟨rfl, rfl⟩ := Prod.mk.inj (Option.some.inj h.subject)
      exact cleanedUp_declareMiningJob hattr h
  | provideMissingTransactionsSuccess c' r => exact cleanedUp_provideMissingTransactionsSuccess h
  | nodeAnswer response => exact cleanedUp_nodeAnswer hattr h
  | advance secs => cases h.subject
  | connect c' => cases h.subject
  | disconnect c' => cases h.subject
  | allocateMiningJobToken c' r => cases h.subject
  | setCustomMiningJob m => cases h.subject
  | tokenJanitor => cases h.subject
  | engineJanitor => cases h.subject
  | pendingJanitor c' => cases h.subject

/-- A declaration that the node rejects in its second round. -/
def rejectedRetry : List Event :=
  [.connect 1, .allocateMiningJobToken 1 1, .declareMiningJob 1 (sampleIncomplete 5 0),
    .nodeAnswer sampleMissing, .provideMissingTransactionsSuccess 1 5]

theorem rejected_retry_cleaned_up :
    CleanedUp (Declarator.step Sha256.digestTwice
      (exec (step Sha256.digestTwice) (Declarator.initial [0x51]) rejectedRetry)
      (.nodeAnswer (.error "invalid-job" sampleContext))) (sampleIncomplete 5 0) 0 := by
  have hr : Rejected Sha256.digestTwice
      (exec (step Sha256.digestTwice) (Declarator.initial [0x51]) rejectedRetry)
      (.nodeAnswer (.error "invalid-job" sampleContext)) 1 (sampleIncomplete 5 0) 0 := by
    refine ⟨by decide +kernel, by decide +kernel, .inl (by decide +kernel), ?_⟩
    exact ⟨.node "invalid-job", by decide +kernel⟩
  exact (cleanedUp_iff hr).mpr trivial

/-- The retry still misses the transaction on the same chain tip: its token and its job stay. -/
theorem missing_retry_left_behind :
    let s := exec (step Sha256.digestTwice) (Declarator.initial [0x51])
      (rejectedRetry ++ [.nodeAnswer sampleMissing])
    s.outbox.head? = some (1, .declareMiningJobError 5 .missingTxs) ∧
      s.tokenManager.allocatedTokens 0 = none ∧
      s.engine.allocatedTokenEntries.lookup 0 = some ⟨5, 0⟩ ∧
      s.engine.declaredCustomJobs 5 = some ⟨sampleIncomplete 5 0, sampleContext, none, false⟩ ∧
      ¬CleanedUp s (sampleIncomplete 5 0) 0 := by
  refine ⟨by decide +kernel, by decide +kernel, by decide +kernel, by decide +kernel, ?_⟩
  intro h
  have htoken := h.engine.token
  revert htoken
  decide +kernel

end GridPoolSv2.JobDeclarator
