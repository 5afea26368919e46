import GridPoolSv2.JobDeclarator.Declarator
import GridPoolSv2.Lib.Sha256

/-!
# JobDeclarator.Isolation: a custom job is checked against its own declaration

An active token is issued for one declared job `J`. A `SetCustomMiningJob` that presents the
token for the first time, before it expires, should be checked against `J`. The engine gets
there through the allocated token and the client's request id, so this depends on what
other declarations did to the two maps in between.

* `ClashFree` is the condition on the steps of a run: when the node's answer to a declaration
  with allocated token `t` and request id `r` is processed, no **other** token has an entry
  for `r`, and no active token was issued for `t`.
* `Touches` says what one engine operation changes, and `Inv` is the invariant that every
  clash-free step preserves: distinct entries have distinct request ids, distinct active
  tokens stand for distinct allocated tokens, and every live active token still leads to its
  job.
* `fresh_token_checked_against_its_job` is the result over clash-free runs.
-/

namespace GridPoolSv2.JobDeclarator

open Runs Declarator
open Consensus (Bytes Transaction TxIn)
open Function (update)

/-! ### What the engine's operations change

Declarations are stored under their request id, and the entries of tokens point to request ids. An
operation on token `t` and request `r` can therefore damage another token only if that one has `r`
too. -/

/-- No token other than `t` has an entry for the request id `r`. -/
def OnlyToken (e : Engine) (t : JdToken) (r : RequestId) : Prop :=
  ∀ t' entry, e.allocatedTokenEntries.lookup t' = some entry → entry.requestId = r → t' = t

/-- Distinct tokens have entries for distinct request ids. -/
def DistinctRequests (e : Engine) : Prop :=
  ∀ t entry, e.allocatedTokenEntries.lookup t = some entry → OnlyToken e t entry.requestId

/-- `e'` differs from `e` at most in the entry of `t` and in the job of `r`. -/
structure Touches (e e' : Engine) (t : JdToken) (r : RequestId) : Prop where
  entries : ∀ t', t' ≠ t → e'.allocatedTokenEntries.lookup t' = e.allocatedTokenEntries.lookup t'
  jobs : ∀ r', r' ≠ r → e'.declaredCustomJobs r' = e.declaredCustomJobs r'
  entry : ∀ entry, e'.allocatedTokenEntries.lookup t = some entry → entry.requestId = r

section Touches

variable {e e' : Engine} {t : JdToken} {r : RequestId}

theorem touches_store (now : Nat) (t : JdToken) (job : DeclaredCustomJob) :
    Touches e (e.store now t job) t job.declareMiningJob.requestId where
  entries := by
    intro t' hne
    exact AList.lookup_insert_ne hne
  jobs := by
    intro r' hne
    exact Function.update_of_ne hne _ _
  entry := by
    intro entry h
    rw [Engine.store, AList.lookup_insert] at h
    rw [← Option.some.inj h]

theorem touches_remove (t : JdToken) (r : RequestId) : Touches e (e.remove t r) t r where
  entries := by
    intro t' hne
    exact AList.lookup_erase_ne hne
  jobs := by
    intro r' hne
    exact Function.update_of_ne hne _ _
  entry := by
    intro entry h
    rw [Engine.remove, AList.lookup_erase] at h
    cases h

/-- An entry of another token, and its job, survive when `r` was free for `t`. -/
theorem Touches.keeps (h : Touches e e' t r) (hfree : OnlyToken e t r) {t' : JdToken}
    {entry : AllocatedTokenEntry} (hne : t' ≠ t)
    (hentry : e.allocatedTokenEntries.lookup t' = some entry) :
    e'.allocatedTokenEntries.lookup t' = some entry ∧
      e'.declaredCustomJobs entry.requestId = e.declaredCustomJobs entry.requestId := by
  refine ⟨by rw [h.entries t' hne, hentry], h.jobs _ ?_⟩
  intro hr
  exact hne (hfree t' entry hentry hr)

/-- If no other token has the request id, the entries keep distinct request ids. -/
theorem Touches.distinctRequests (h : Touches e e' t r) (hfree : OnlyToken e t r)
    (hd : DistinctRequests e) : DistinctRequests e' := by
  intro t₁ entry₁ h₁ t₂ entry₂ h₂ hreq
  by_cases e₁ : t₁ = t <;> by_cases e₂ : t₂ = t
  · rw [e₁, e₂]
  · -- the entry of `t` is for `r`, which no other token may have
    subst e₁
    rw [h.entries t₂ e₂] at h₂
    exact hfree t₂ entry₂ h₂ (hreq.trans (h.entry entry₁ h₁))
  · subst e₂
    rw [h.entries t₁ e₁] at h₁
    exact (hfree t₁ entry₁ h₁ (hreq.symm.trans (h.entry entry₂ h₂))).symm
  · rw [h.entries t₁ e₁] at h₁
    rw [h.entries t₂ e₂] at h₂
    exact hd t₁ entry₁ h₁ t₂ entry₂ h₂ hreq

end Touches

/-- The job of the entry that is found for a token. -/
def Leads (e : Engine) (t : JdToken) (insertedAt : Nat) (job : DeclaredCustomJob) : Prop :=
  e.allocatedTokenEntries.lookup t = some ⟨job.declareMiningJob.requestId, insertedAt⟩ ∧
    e.declaredCustomJobs job.declareMiningJob.requestId = some job

/-- The token leads to the job that is stored for it. -/
theorem leads_store (e : Engine) (now : Nat) (t : JdToken) (job : DeclaredCustomJob) :
    Leads (e.store now t job) t now job :=
  ⟨AList.lookup_insert _, Function.update_self _ _ _⟩

/-- An operation on another token and another request id. -/
theorem Leads.keep {e e' : Engine} {t t' : JdToken} {r : RequestId} {at' : Nat}
    {job : DeclaredCustomJob} (hl : Leads e t' at' job) (h : Touches e e' t r)
    (hfree : OnlyToken e t r) (hne : t' ≠ t) : Leads e' t' at' job := by
  obtain ⟨hentry, hjob⟩ := h.keeps hfree hne hl.1
  exact ⟨hentry, hjob.trans hl.2⟩

/-! ### The janitor of the engine

The janitor removes the expired entries, each with the job under its request id. It keeps the job of
a token that has not expired because the request ids are distinct. -/

section Janitor

variable {xs : List (JdToken × RequestId)} {e : Engine}

/-- Removing expired entries leaves the other ones alone. -/
theorem foldl_remove_entries {t : JdToken} (h : ∀ x ∈ xs, x.1 ≠ t) :
    (xs.foldl (fun e x => e.remove x.1 x.2) e).allocatedTokenEntries.lookup t =
      e.allocatedTokenEntries.lookup t := by
  induction xs generalizing e with
  | nil => rfl
  | cons x xs ih =>
      rw [List.foldl_cons, ih (fun y hy => h y (List.mem_cons_of_mem _ hy))]
      exact AList.lookup_erase_ne (h x List.mem_cons_self).symm

/-- A job stays if no removed entry has its request id. -/
theorem foldl_remove_jobs {r : RequestId} (h : ∀ x ∈ xs, x.2 ≠ r) :
    (xs.foldl (fun e x => e.remove x.1 x.2) e).declaredCustomJobs r = e.declaredCustomJobs r := by
  induction xs generalizing e with
  | nil => rfl
  | cons x xs ih =>
      rw [List.foldl_cons, ih (fun y hy => h y (List.mem_cons_of_mem _ hy))]
      exact Function.update_of_ne (h x List.mem_cons_self).symm _ _

/-- Whatever entry is left was there before. -/
theorem foldl_remove_lookup {t : JdToken} {entry : AllocatedTokenEntry}
    (h : (xs.foldl (fun e x => e.remove x.1 x.2) e).allocatedTokenEntries.lookup t = some entry) :
    e.allocatedTokenEntries.lookup t = some entry := by
  induction xs generalizing e with
  | nil => exact h
  | cons x xs ih =>
      have hx : (e.remove x.1 x.2).allocatedTokenEntries.lookup t = some entry := ih h
      by_cases heq : t = x.1
      · rw [heq, Engine.remove, AList.lookup_erase] at hx
        cases hx
      · rwa [Engine.remove, AList.lookup_erase_ne heq] at hx

/-- What the janitor removes has an entry that is old enough. -/
theorem mem_expired {now : Nat} {x : JdToken × RequestId} (h : x ∈ e.expired now) :
    ∃ entry, e.allocatedTokenEntries.lookup x.1 = some entry ∧ entry.requestId = x.2 ∧
      allocatedTokenTimeoutSecs < now - entry.insertedAt := by
  obtain ⟨y, hy, rfl⟩ := List.mem_map.mp h
  obtain ⟨hmem, hold⟩ := List.mem_filter.mp hy
  exact ⟨y.2, AList.mem_lookup_iff.mpr hmem, rfl, by simpa using hold⟩

theorem distinctRequests_janitor (hd : DistinctRequests e) (now : Nat) :
    DistinctRequests (e.janitor now) := by
  intro t entry h t' entry' h' hreq
  exact hd t entry (foldl_remove_lookup h) t' entry' (foldl_remove_lookup h') hreq

/-- The janitor keeps the job of an entry that has not expired, since no other entry shares its
request id. -/
theorem Leads.janitor {t : JdToken} {at' now : Nat} {job : DeclaredCustomJob}
    (hl : Leads e t at' job) (hd : DistinctRequests e)
    (hyoung : now - at' ≤ allocatedTokenTimeoutSecs) : Leads (e.janitor now) t at' job := by
  have hother : ∀ x ∈ e.expired now, x.1 ≠ t := by
    rintro x hx rfl
    obtain ⟨entry, hentry, _, hold⟩ := mem_expired hx
    rw [hl.1] at hentry
    obtain rfl := Option.some.inj hentry
    exact absurd hyoung (Nat.not_le_of_lt hold)
  have hrequest : ∀ x ∈ e.expired now, x.2 ≠ job.declareMiningJob.requestId := by
    intro x hx heq
    obtain ⟨entry, hentry, hreq, _⟩ := mem_expired hx
    exact hother x hx (hd t _ hl.1 x.1 entry hentry (hreq.trans heq))
  exact ⟨(foldl_remove_entries hother).trans hl.1, (foldl_remove_jobs hrequest).trans hl.2⟩

end Janitor

/-! ### The invariant

`Fresh` is what the result is about: an active token that was issued for a job, was not presented
before and has not expired. Most handlers only change fields that the invariant does not read, which
is what `Inv.frame` is for. -/

/-- An active token that was issued, has not been presented, and has not reached its timeout. -/
structure Fresh (s : Declarator) (active : JdToken) (i : Issued) : Prop where
  issued : s.issued active = some i
  unpresented : s.presented active = false
  unexpired : s.clock ≤ i.issuedAt + activeTokenTimeoutSecs

instance (s : Declarator) (active : JdToken) (i : Issued) : Decidable (Fresh s active i) :=
  decidable_of_iff (s.issued active = some i ∧ s.presented active = false ∧
      s.clock ≤ i.issuedAt + activeTokenTimeoutSecs)
    ⟨fun ⟨h1, h2, h3⟩ => ⟨h1, h2, h3⟩, fun ⟨h1, h2, h3⟩ => ⟨h1, h2, h3⟩⟩

/-- A declaration that passed the engine's own checks. -/
def Prechecked (d : DeclareMiningJob) : Prop :=
  ∃ tx input, getCoinbaseTx d = .ok tx ∧ tx.input = [input]

structure Inv (s : Declarator) : Prop where
  /-- Tokens that were not handed out are not active and were not issued. -/
  unused : ∀ t, s.tokenManager.tokenFactory ≤ t →
    s.tokenManager.activeTokens t = none ∧ s.issued t = none
  requests : DistinctRequests s.engine
  /-- Distinct active tokens stand for distinct allocated tokens. -/
  actives : ∀ a b x y, s.tokenManager.activeTokens a = some x →
    s.tokenManager.activeTokens b = some y → x.1 = y.1 → a = b
  /-- A fresh active token leads to the job it was issued for. -/
  live : ∀ a i, Fresh s a i → ∃ t c, s.tokenManager.activeTokens a = some (t, i.issuedAt, c) ∧
    Leads s.engine t i.issuedAt i.job
  /-- Tokens are issued for validated jobs. -/
  validated : ∀ a i, s.issued a = some i → ∃ tx input, Validated i.job tx input
  inFlight : ∀ f, s.inFlight = some f → Prechecked f.declaration

theorem inv_initial (script : Bytes) : Inv (Declarator.initial script) where
  unused := fun _ _ => ⟨rfl, rfl⟩
  requests := by
    intro t entry h
    cases h
  actives := by
    intro a b x y h
    cases h
  live := by
    intro a i h
    cases h.issued
  validated := by
    intro a i h
    cases h
  inFlight := by
    intro f h
    cases h

section Frame

variable {s s' : Declarator}

/-- Steps that leave the engine, the active tokens and the ghost fields alone, and let time pass and
tokens be handed out, keep the invariant. -/
theorem Inv.frame (h : Inv s) (hengine : s'.engine = s.engine)
    (hactive : s'.tokenManager.activeTokens = s.tokenManager.activeTokens)
    (hfactory : s.tokenManager.tokenFactory ≤ s'.tokenManager.tokenFactory)
    (hissued : s'.issued = s.issued)
    (hpresented : ∀ a, s'.presented a = false → s.presented a = false)
    (hclock : s.clock ≤ s'.clock) (hflight : ∀ f, s'.inFlight = some f → Prechecked f.declaration) :
    Inv s' where
  unused := by
    intro t ht
    rw [hactive, hissued]
    exact h.unused t (hfactory.trans ht)
  requests := by
    rw [hengine]
    exact h.requests
  actives := by
    rw [hactive]
    exact h.actives
  live := by
    intro a i hf
    have hold : Fresh s a i :=
      ⟨hissued ▸ hf.issued, hpresented a hf.unpresented, hclock.trans hf.unexpired⟩
    rw [hactive, hengine]
    exact h.live a i hold
  validated := by
    rw [hissued]
    exact h.validated
  inFlight := hflight

theorem Inv.reply (h : Inv s) (c : DownstreamId) (r : Reply) : Inv (s.reply c r) :=
  h.frame rfl rfl le_rfl rfl (fun _ => id) le_rfl h.inFlight

theorem Inv.deallocate (h : Inv s) (t : JdToken) :
    Inv { s with tokenManager := s.tokenManager.deallocate t } :=
  h.frame rfl rfl le_rfl rfl (fun _ => id) le_rfl h.inFlight

theorem Inv.cleanupDownstream (h : Inv s) (c : DownstreamId) : Inv (s.cleanupDownstream c) :=
  h.frame rfl rfl le_rfl rfl (fun _ => id) le_rfl h.inFlight

/-- A message loop that runs a handler, or skips it. -/
theorem Inv.jdpMessage (h : Inv s) (c : DownstreamId) {handler : Client → Declarator}
    (hhandler : ∀ client, Inv (handler client)) : Inv (s.jdpMessage c handler) := by
  unfold Declarator.jdpMessage
  split
  · split
    · exact h.cleanupDownstream c
    · exact hhandler _
  · exact h

end Frame

/-! ### Messages before the answer of the node

A declaration is checked, stored as the one in flight, and nothing else happens until the node
answers. The engine is not touched. -/

/-- A declaration goes to the node only with a coinbase of one input. -/
theorem precheck_eq_none {d : DeclareMiningJob} (h : Engine.precheck d = .ok none) :
    Prechecked d := by
  unfold Engine.precheck at h
  split at h
  · cases h
  · cases h
  · rename_i tx htx
    split at h
    · cases h
    · rename_i hlen
      obtain ⟨input, hinput⟩ := List.length_eq_one_iff.mp (not_not.mp hlen)
      exact ⟨tx, input, htx, hinput⟩

section Messages

variable {s : Declarator}

/-- The declaration in flight has passed the checks before the node. -/
theorem Inv.startValidation (h : Inv s) (c : DownstreamId) (t : JdToken) (d : DeclareMiningJob)
    (retry : Bool) : Inv (s.startValidation c t d retry) := by
  unfold Declarator.startValidation
  split
  · exact h.frame rfl rfl le_rfl rfl (fun _ => id) le_rfl h.inFlight
  · exact (h.deallocate t).reply c _
  · rename_i hpre
    refine h.frame rfl rfl le_rfl rfl (fun _ => id) le_rfl ?_
    intro f hf
    obtain rfl := Option.some.inj hf
    exact precheck_eq_none hpre

theorem Inv.handleAllocateMiningJobToken (h : Inv s) (c : DownstreamId) (r : RequestId) :
    Inv (s.handleAllocateMiningJobToken c r) :=
  h.frame rfl rfl (Nat.le_succ _) rfl (fun _ => id) le_rfl h.inFlight

theorem Inv.handleDeclareMiningJob (h : Inv s) (c : DownstreamId) (d : DeclareMiningJob) :
    Inv (s.handleDeclareMiningJob c d) := by
  unfold Declarator.handleDeclareMiningJob
  split
  · exact h.reply c _
  · split
    · exact h.startValidation c _ d false
    · exact h.reply c _

theorem Inv.handleProvideMissingTransactionsSuccess (h : Inv s) (c : DownstreamId) (client : Client)
    (r : RequestId) : Inv (s.handleProvideMissingTransactionsSuccess c client r) := by
  unfold Declarator.handleProvideMissingTransactionsSuccess
  split
  · exact h
  · dsimp only
    split
    · exact h.frame rfl rfl le_rfl rfl (fun _ => id) le_rfl h.inFlight
    · apply Inv.startValidation
      exact h.frame rfl rfl le_rfl rfl (fun _ => id) le_rfl h.inFlight

end Messages

/-! ### The answer of the node

Here, and only here, a job is stored under a request id, so this is where a shared request id does
its harm. `ClashFree` is a condition on this step alone. -/

/-- The condition on a step: the node's answer concerns a request id that no other token has an
entry for, and a token that no active token was issued for. -/
def ClashFree (s : Declarator) : Event → Prop
  | .nodeAnswer response =>
      ∀ f, s.inFlight = some f → response ≠ .channelClosed →
        OnlyToken s.engine f.token f.declaration.requestId ∧
          ∀ a x, s.tokenManager.activeTokens a = some x → x.1 ≠ f.token
  | _ => True

/-- Any answer the node gives touches the entry of the token and the job of the request id. -/
theorem touches_finish (e : Engine) (now : Nat) (t : JdToken) (d : DeclareMiningJob) (retry : Bool)
    (previous : Option ValidationContext) {response : JdResponse} (h : response ≠ .channelClosed) :
    Touches e (e.finish now t d retry previous response).1 t d.requestId := by
  cases response with
  | success ctx txids => exact touches_store now t ⟨d, ctx, some txids, true⟩
  | error code ctx => exact touches_remove t d.requestId
  | missingTransactions missing ctx =>
      simp only [Engine.finish]
      split
      · exact touches_remove t d.requestId
      · exact touches_store now t ⟨d, ctx, none, false⟩
  | channelClosed => exact absurd rfl h

section Answer

variable {s : Declarator}

/-- Touching a free token and request id keeps the invariant. -/
theorem Inv.touched (h : Inv s) {e' : Engine} {t : JdToken} {r : RequestId}
    (ht : Touches s.engine e' t r) (hfree : OnlyToken s.engine t r)
    (hactive : ∀ a x, s.tokenManager.activeTokens a = some x → x.1 ≠ t) :
    Inv { s with engine := e', inFlight := none } where
  unused := h.unused
  requests := ht.distinctRequests hfree h.requests
  actives := h.actives
  live := by
    intro a i hf
    obtain ⟨t', c, ha, hl⟩ := h.live a i ⟨hf.issued, hf.unpresented, hf.unexpired⟩
    exact ⟨t', c, ha, hl.keep ht hfree (hactive a _ ha)⟩
  validated := h.validated
  inFlight := by
    intro f hf
    cases hf

/-- Issuing an active token for the job its allocated token leads to keeps the invariant. -/
theorem Inv.activate (h : Inv s) {t : JdToken} {c : DownstreamId} {job : DeclaredCustomJob}
    {tx : Transaction} {input : TxIn} (hv : Validated job tx input)
    (hl : Leads s.engine t s.clock job)
    (hactive : ∀ a x, s.tokenManager.activeTokens a = some x → x.1 ≠ t) :
    Inv { s with
      tokenManager := (s.tokenManager.activate s.clock t c).1
      issued := update s.issued s.tokenManager.tokenFactory (some ⟨job, s.clock⟩)
      presented := update s.presented s.tokenManager.tokenFactory false } where
  unused := by
    intro a ha
    have hne : a ≠ s.tokenManager.tokenFactory := Nat.ne_of_gt (Nat.lt_of_succ_le ha)
    simp only [TokenManager.activate, Function.update_of_ne hne]
    exact h.unused a (Nat.le_of_succ_le ha)
  requests := h.requests
  actives := by
    intro a b x y ha hb hxy
    simp only [TokenManager.activate] at ha hb
    by_cases ea : a = s.tokenManager.tokenFactory <;> by_cases eb : b = s.tokenManager.tokenFactory
    · rw [ea, eb]
    · rw [ea, Function.update_self] at ha
      rw [Function.update_of_ne eb] at hb
      obtain rfl := Option.some.inj ha
      exact absurd hxy.symm (hactive b y hb)
    · rw [eb, Function.update_self] at hb
      rw [Function.update_of_ne ea] at ha
      obtain rfl := Option.some.inj hb
      exact absurd hxy (hactive a x ha)
    · rw [Function.update_of_ne ea] at ha
      rw [Function.update_of_ne eb] at hb
      exact h.actives a b x y ha hb hxy
  live := by
    intro a i hf
    obtain ⟨hissued, hpresented, hclock⟩ := hf
    simp only [TokenManager.activate] at hissued hpresented ⊢
    by_cases ha : a = s.tokenManager.tokenFactory
    · rw [ha, Function.update_self] at hissued
      obtain rfl := Option.some.inj hissued
      exact ⟨t, c, by rw [ha, Function.update_self], hl⟩
    · rw [Function.update_of_ne ha] at hissued hpresented ⊢
      exact h.live a i ⟨hissued, hpresented, hclock⟩
  validated := by
    intro a i hissued
    by_cases ha : a = s.tokenManager.tokenFactory
    · rw [ha] at hissued
      simp only [Function.update_self] at hissued
      obtain rfl := Option.some.inj hissued
      exact ⟨tx, input, hv⟩
    · simp only [Function.update_of_ne ha] at hissued
      exact h.validated a i hissued
  inFlight := h.inFlight

/-- What follows an unsuccessful validation leaves the engine and the active tokens alone. -/
theorem Inv.settle (h : Inv s) (f : InFlight) (response : JdResponse)
    {result : DeclareMiningJobResult} (hres : result ≠ .success) :
    Inv (s.settle f response result) := by
  cases result with
  | success => exact absurd rfl hres
  | error code => exact (h.deallocate f.token).reply f.client _
  | missingTransactions missing =>
      unfold Declarator.settle
      dsimp only
      split
      · exact (h.deallocate f.token).reply f.client _
      · split
        · exact h.cleanupDownstream f.client
        · exact h.frame rfl rfl le_rfl rfl (fun _ => id) le_rfl h.inFlight

/-- What follows a validation leaves the engine alone and starts no other one. -/
theorem settle_frame (f : InFlight) (response : JdResponse) (result : DeclareMiningJobResult) :
    (s.settle f response result).engine = s.engine ∧
      (s.settle f response result).inFlight = s.inFlight := by
  cases result with
  | success => exact ⟨rfl, rfl⟩
  | error code => exact ⟨rfl, rfl⟩
  | missingTransactions missing =>
      unfold Declarator.settle
      dsimp only
      split
      · exact ⟨rfl, rfl⟩
      · split <;> exact ⟨rfl, rfl⟩

/-- Only the node's `success` makes a validation succeed. -/
theorem finish_success {e : Engine} {now : Nat} {t : JdToken} {d : DeclareMiningJob} {retry : Bool}
    {previous : Option ValidationContext} {response : JdResponse}
    (h : (e.finish now t d retry previous response).2 = .success) :
    ∃ ctx txids, response = .success ctx txids := by
  cases response with
  | success ctx txids => exact ⟨ctx, txids, rfl⟩
  | error code ctx => cases h
  | missingTransactions missing ctx =>
      simp only [Engine.finish] at h
      split at h <;> cases h
  | channelClosed => cases h

/-- A clash-free answer stores, forgets or rejects one declaration and leaves the other ones
alone. -/
theorem Inv.handleNodeAnswer (h : Inv s) {f : InFlight} (hf : s.inFlight = some f)
    {response : JdResponse} (hclash : ClashFree s (.nodeAnswer response)) :
    Inv (s.handleNodeAnswer f response) := by
  by_cases hclosed : response = .channelClosed
  · subst hclosed
    have hidle : Inv { s with inFlight := none } :=
      h.frame rfl rfl le_rfl rfl (fun _ => id) le_rfl (by intro g hg; cases hg)
    exact (hidle.deallocate f.token).reply f.client _
  · obtain ⟨hfree, hactive⟩ := hclash f hf hclosed
    have htouched := h.touched
      (touches_finish s.engine s.clock f.token f.declaration f.retry f.previous hclosed)
        hfree hactive
    by_cases hres :
        (s.engine.finish s.clock f.token f.declaration f.retry f.previous response).2 = .success
    · obtain ⟨ctx, txids, rfl⟩ := finish_success hres
      obtain ⟨tx, input, htx, hinput⟩ := h.inFlight f hf
      have hv : Validated ⟨f.declaration, ctx, some txids, true⟩ tx input := ⟨rfl, htx, hinput, rfl⟩
      exact (htouched.activate hv (leads_store _ _ _ _) hactive).reply f.client _
    · exact htouched.settle f response hres

end Answer

/-! ### Custom jobs and janitors -/

/-- Consuming the entry of `t` leaves what other tokens lead to alone. -/
theorem handleSetCustomMiningJob_engine (hash : Bytes → Bytes) {e : Engine}
    (hd : DistinctRequests e) (m : SetCustomMiningJob) (t : JdToken) :
    DistinctRequests (e.handleSetCustomMiningJob hash m t).1 ∧
      ∀ t' at' job, t' ≠ t → Leads e t' at' job →
        Leads (e.handleSetCustomMiningJob hash m t).1 t' at' job := by
  unfold Engine.handleSetCustomMiningJob
  split
  · exact ⟨hd, fun _ _ _ _ => id⟩
  · rename_i entry hentry
    have hfree := hd t entry hentry
    split
    · have ht : Touches e { e with allocatedTokenEntries := e.allocatedTokenEntries.erase t } t
          entry.requestId :=
        ⟨(touches_remove t entry.requestId).entries, fun _ _ => rfl,
          (touches_remove t entry.requestId).entry⟩
      exact ⟨ht.distinctRequests hfree hd, fun _ _ _ hne hl => hl.keep ht hfree hne⟩
    · have ht := touches_remove (e := e) t entry.requestId
      exact ⟨ht.distinctRequests hfree hd, fun _ _ _ hne hl => hl.keep ht hfree hne⟩

section Custom

variable {s : Declarator}

/-- The presented token is consumed, the other ones keep their jobs. -/
theorem Inv.handleSetCustomMiningJob (h : Inv s) (hash : Bytes → Bytes) (m : SetCustomMiningJob) :
    Inv (s.handleSetCustomMiningJob hash m).1 := by
  have hgrow : ∀ active a, update s.presented active true a = false →
      a ≠ active ∧ s.presented a = false := by
    intro active a ha
    by_cases heq : a = active
    · rw [heq, Function.update_self] at ha
      cases ha
    · exact ⟨heq, by rwa [Function.update_of_ne heq] at ha⟩
  unfold Declarator.handleSetCustomMiningJob
  split
  · exact h
  · rename_i active _
    dsimp only
    split
    · exact h.frame rfl rfl le_rfl rfl (fun a ha => (hgrow active a ha).2) le_rfl h.inFlight
    · rename_i t ht
      obtain ⟨x, hx, rfl⟩ := Option.map_eq_some_iff.mp ht
      obtain ⟨hd, hkeep⟩ := handleSetCustomMiningJob_engine hash h.requests m x.1
      have hdeactivated : ∀ a y, (s.tokenManager.deactivate active).activeTokens a = some y →
          a ≠ active ∧ s.tokenManager.activeTokens a = some y := by
        intro a y ha
        by_cases heq : a = active
        · simp [TokenManager.deactivate, heq] at ha
        · exact ⟨heq, by simpa [TokenManager.deactivate, Function.update_of_ne heq] using ha⟩
      refine ⟨?_, hd, ?_, ?_, h.validated, h.inFlight⟩
      · intro a ha
        obtain ⟨hnone, hissued⟩ := h.unused a ha
        refine ⟨?_, hissued⟩
        by_cases heq : a = active
        · simp [TokenManager.deactivate, heq]
        · simpa [TokenManager.deactivate, Function.update_of_ne heq] using hnone
      · intro a b y z ha hb hyz
        exact h.actives a b y z (hdeactivated a y ha).2 (hdeactivated b z hb).2 hyz
      · intro a i hf
        -- the presented token is no longer fresh, and the other ones stand for other allocated
        -- tokens
        obtain ⟨hne, hun⟩ := hgrow active a hf.unpresented
        obtain ⟨t', c, ha, hl⟩ := h.live a i ⟨hf.issued, hun, hf.unexpired⟩
        refine ⟨t', c, ?_, hkeep t' _ _ ?_ hl⟩
        · simpa [TokenManager.deactivate, Function.update_of_ne hne] using ha
        · intro heq
          exact hne (h.actives a active _ x ha hx heq)

theorem Inv.tokenJanitor (h : Inv s) :
    Inv { s with tokenManager := s.tokenManager.janitor s.clock } where
  unused := by
    intro t ht
    obtain ⟨hnone, hissued⟩ := h.unused t ht
    exact ⟨by simp [TokenManager.janitor, hnone], hissued⟩
  requests := h.requests
  actives := by
    intro a b x y ha hb
    exact h.actives a b x y (Option.filter_eq_some_iff.mp ha).1 (Option.filter_eq_some_iff.mp hb).1
  live := by
    intro a i hf
    obtain ⟨t, c, ha, hl⟩ := h.live a i ⟨hf.issued, hf.unpresented, hf.unexpired⟩
    refine ⟨t, c, ?_, hl⟩
    have hyoung : s.clock - i.issuedAt ≤ activeTokenTimeoutSecs :=
      Nat.sub_le_iff_le_add'.mpr hf.unexpired
    exact Option.filter_eq_some_iff.mpr ⟨ha, by simpa using hyoung⟩
  validated := h.validated
  inFlight := h.inFlight

theorem Inv.engineJanitor (h : Inv s) : Inv { s with engine := s.engine.janitor s.clock } where
  unused := h.unused
  requests := distinctRequests_janitor h.requests s.clock
  actives := h.actives
  live := by
    intro a i hf
    obtain ⟨t, c, ha, hl⟩ := h.live a i ⟨hf.issued, hf.unpresented, hf.unexpired⟩
    refine ⟨t, c, ha, hl.janitor h.requests ?_⟩
    have := hf.unexpired
    simp only [activeTokenTimeoutSecs, allocatedTokenTimeoutSecs] at this ⊢
    omega
  validated := h.validated
  inFlight := h.inFlight

theorem Inv.pendingJanitor (h : Inv s) (c : DownstreamId) : Inv (s.pendingJanitor c) := by
  unfold Declarator.pendingJanitor
  split
  · exact h
  · exact h.frame rfl rfl le_rfl rfl (fun _ => id) le_rfl h.inFlight

end Custom

theorem inv_step {hash : Bytes → Bytes} {s : Declarator} (h : Inv s) (e : Event)
    (hc : ClashFree s e) : Inv (step hash s e) := by
  cases e with
  | advance secs => exact h.frame rfl rfl le_rfl rfl (fun _ => id) (Nat.le_add_right _ _) h.inFlight
  | connect c =>
      unfold Declarator.step
      dsimp only
      split
      · exact h
      · exact h.frame rfl rfl le_rfl rfl (fun _ => id) le_rfl h.inFlight
  | disconnect c => exact h.cleanupDownstream c
  | allocateMiningJobToken c r =>
      exact h.jdpMessage c fun _ => h.handleAllocateMiningJobToken c r
  | declareMiningJob c d => exact h.jdpMessage c fun _ => h.handleDeclareMiningJob c d
  | provideMissingTransactionsSuccess c r =>
      exact h.jdpMessage c fun client => h.handleProvideMissingTransactionsSuccess c client r
  | nodeAnswer response =>
      unfold Declarator.step
      dsimp only
      split
      · exact h
      · rename_i f hf
        exact h.handleNodeAnswer hf hc
  | setCustomMiningJob m => exact h.handleSetCustomMiningJob hash m
  | tokenJanitor => exact h.tokenJanitor
  | engineJanitor => exact h.engineJanitor
  | pendingJanitor c => exact h.pendingJanitor c

theorem inv_exec {hash : Bytes → Bytes} {script : Bytes} {es : List Event}
    (hc : Along (step hash) ClashFree (Declarator.initial script) es) :
    Inv (exec (step hash) (Declarator.initial script) es) :=
  exec_induct (I := Inv) (fun _ e h hc => inv_step h e hc) (inv_initial script) hc

/-! ### The result -/

/-- A message that presents a fresh token is compared with the job the token leads to. -/
theorem handleSetCustomMiningJob_result (hash : Bytes → Bytes) {s : Declarator} (h : Inv s)
    {active : JdToken} {i : Issued} (hf : Fresh s active i) {m : SetCustomMiningJob}
    (hm : parseToken m.token = some active) :
    (s.handleSetCustomMiningJob hash m).2 = checkCustomJob hash i.job m := by
  obtain ⟨t, c, ha, hentry, hjob⟩ := h.live active i hf
  have halloc : s.tokenManager.allocatedFromActive active = some t := by
    simp [TokenManager.allocatedFromActive, ha]
  simp only [Declarator.handleSetCustomMiningJob, hm, halloc, Engine.handleSetCustomMiningJob,
    hentry, hjob]

/-- In every clash-free run, a `SetCustomMiningJob` that presents, for the first time and before it
expires, the active token issued for job `J` is answered by comparing it with `J`, and succeeds
exactly when it agrees with `J`. -/
theorem fresh_token_checked_against_its_job {hash : Bytes → Bytes} {script : Bytes}
    {es : List Event} (hc : Along (step hash) ClashFree (Declarator.initial script) es)
    {active : JdToken} {i : Issued}
    (hf : Fresh (exec (step hash) (Declarator.initial script) es) active i) {m : SetCustomMiningJob}
    (hm : parseToken m.token = some active) :
    ∃ tx input, getCoinbaseTx i.job.declareMiningJob = .ok tx ∧ tx.input = [input] ∧
      (((exec (step hash) (Declarator.initial script) es).handleSetCustomMiningJob hash m).2 =
          checkCustomJob hash i.job m) ∧
      (((exec (step hash) (Declarator.initial script) es).handleSetCustomMiningJob hash m).2 =
          .ok () ↔ Agrees hash i.job tx input m) := by
  have h := inv_exec hc
  obtain ⟨tx, input, hv⟩ := h.validated active i hf.issued
  have hres := handleSetCustomMiningJob_result hash h hf hm
  exact ⟨tx, input, hv.coinbase, hv.input, hres, by rw [hres, checkCustomJob_eq_ok hv]⟩

/-! ### Two clients

Two clients declare a job each. With different request ids the first one's token is accepted, with
the same request id it is not. -/

/-- The condition, checked on the entries and tokens there are. -/
def clashFreeCheck (s : Declarator) : Event → Bool
  | .nodeAnswer _ =>
      match s.inFlight with
      | none => true
      | some f =>
          (s.engine.allocatedTokenEntries.entries.all fun x =>
            x.2.requestId ≠ f.declaration.requestId || x.1 = f.token) &&
          (List.range s.tokenManager.tokenFactory).all fun a =>
            (s.tokenManager.activeTokens a).all fun x => x.1 ≠ f.token
  | _ => true

theorem clashFree_of_check {s : Declarator} (h : Inv s) {e : Event}
    (hc : clashFreeCheck s e = true) : ClashFree s e := by
  cases e with
  | nodeAnswer response =>
      intro f hf _
      simp only [clashFreeCheck, hf, Bool.and_eq_true, List.all_eq_true] at hc
      obtain ⟨hentries, hactive⟩ := hc
      refine ⟨?_, ?_⟩
      · intro t entry hentry hreq
        have := hentries ⟨t, entry⟩ (AList.mem_lookup_iff.mp hentry)
        simpa [hreq] using this
      · intro a x hx
        have hlt : a < s.tokenManager.tokenFactory := by
          by_contra hge
          rw [(h.unused a (Nat.le_of_not_lt hge)).1] at hx
          cases hx
        simpa [hx] using hactive a (List.mem_range.mpr hlt)
  | _ => trivial

theorem along_of_check {hash : Bytes → Bytes} {s : Declarator} (h : Inv s) {es : List Event}
    (hc : Along (step hash) (fun s e => clashFreeCheck s e = true) s es) :
    Along (step hash) ClashFree s es := by
  induction es generalizing s with
  | nil => trivial
  | cons e es ih =>
      have hfree := clashFree_of_check h hc.1
      exact ⟨hfree, ih (inv_step h e hfree) hc.2⟩

/-- A declaration whose coinbase has the given output script. -/
def sampleDeclaration (requestId : RequestId) (token : JdToken) (script : Bytes) :
    DeclareMiningJob where
  requestId := requestId
  miningJobToken := Consensus.leBytes 8 token
  version := 0x20000000
  coinbaseTxPrefix :=
    [2, 0, 0, 0, 0, 1, 1] ++ List.replicate 32 0 ++ List.replicate 4 0xff ++
      [12, 0x03, 0x40, 0x0d, 0x03]
  coinbaseTxSuffix :=
    [0xff, 0xff, 0xff, 0xff] ++ Consensus.TxOut.encodeVec [⟨5000000000, script⟩] ++
      [1, 32] ++ List.replicate 32 0 ++ [0, 0, 0, 0]
  wtxidList := []

def sampleContext : ValidationContext where
  prevHash := List.replicate 32 9
  nbits := 0x207fffff
  minNtime := 1700000000

/-- The custom job of the client that declared with output script `[0x51]`. -/
def sampleCustomJob (active : JdToken) : SetCustomMiningJob where
  channelId := 1
  requestId := 77
  token := Consensus.leBytes 8 active
  version := 0x20000000
  prevHash := List.replicate 32 9
  minNtime := 1700000000
  nbits := 0x207fffff
  coinbaseTxVersion := 2
  coinbasePrefix := [0x03, 0x40, 0x0d, 0x03]
  coinbaseTxInputNSequence := 0xffffffff
  coinbaseTxOutputs := Consensus.TxOut.encodeVec [⟨5000000000, [0x51]⟩]
  coinbaseTxLocktime := 0
  merklePath := []

/-- Client 1 declares under request id 5 and gets active token 1; then client 2 declares another job
under a request id of its own choice. -/
def twoClients (requestId : RequestId) : List Event :=
  [.connect 1, .connect 2,
    .allocateMiningJobToken 1 1, .declareMiningJob 1 (sampleDeclaration 5 0 [0x51]),
    .nodeAnswer (.success sampleContext []),
    .allocateMiningJobToken 2 1, .declareMiningJob 2 (sampleDeclaration requestId 2 [0x52]),
    .nodeAnswer (.success sampleContext []), .advance 1]

def sampleIssued : Issued where
  job := ⟨sampleDeclaration 5 0 [0x51], sampleContext, some [], true⟩
  issuedAt := 0

/-- With requests 5 and 6 the job of the first client is accepted. -/
theorem distinct_request_ids_isolated :
    ((exec (step Sha256.digestTwice) (Declarator.initial [0x51])
      (twoClients 6)).handleSetCustomMiningJob Sha256.digestTwice (sampleCustomJob 1)).2 =
        .ok () := by
  have hc : Along (step Sha256.digestTwice) ClashFree (Declarator.initial [0x51]) (twoClients 6) :=
    along_of_check (inv_initial [0x51]) (by decide +kernel)
  have hf : Fresh (exec (step Sha256.digestTwice) (Declarator.initial [0x51]) (twoClients 6)) 1
      sampleIssued := by decide +kernel
  obtain ⟨_, _, _, _, hres, _⟩ :=
    fresh_token_checked_against_its_job hc hf (m := sampleCustomJob 1) (by decide +kernel)
  rw [hres]
  decide +kernel

/-- With request 5 twice the job of the first client is compared with the declaration of the second
one. -/
theorem shared_request_id_clobbers_job :
    let s := exec (step Sha256.digestTwice) (Declarator.initial [0x51]) (twoClients 5)
    Fresh s 1 sampleIssued ∧ parseToken (sampleCustomJob 1).token = some 1 ∧
      checkCustomJob Sha256.digestTwice sampleIssued.job (sampleCustomJob 1) = .ok () ∧
      (s.handleSetCustomMiningJob Sha256.digestTwice (sampleCustomJob 1)).2 =
        .error .invalidCoinbaseTxOutputs :=
  ⟨by decide +kernel, by decide +kernel, by decide +kernel, by decide +kernel⟩

end GridPoolSv2.JobDeclarator
