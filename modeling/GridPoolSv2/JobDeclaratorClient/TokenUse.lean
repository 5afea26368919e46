import GridPoolSv2.JobDeclaratorClient.FullTemplate

/-!
# JobDeclaratorClient.TokenUse: what becomes of a token

A token of an `AllocateMiningJobToken.Success` goes into the queue, and from there into a
`SetCustomMiningJob`, or into a `DeclareMiningJob` that may be kept until its previous hash
arrives. The token of a `DeclareMiningJob.Success` goes into a `SetCustomMiningJob` at once.

A token is **held** as long as it can still be used: it is in the queue, or in a kept declaration
that was not sent. Most of a handler does not touch what is held; a part that takes a token or
sends a declaration `Spends` it, and what is held and what was sent add up. There are two places
where more is sent than was held:

* `handle_new_template` sends the custom job for the token it took once for every downstream;
* `handle_set_new_prev_hash` sends the declaration of the last future template again, as long as
  it is kept.
-/

namespace GridPoolSv2.JobDeclaratorClient

open Consensus (Bytes TxOut)
open Visit Handler

/-- A custom job is for the token it was asked for. -/
def ChannelsSv2.CarriesToken (api : ChannelsSv2) : Prop :=
  ∀ {f c r token tip t o n f' m}, api.newCustomJob f c r token tip t o n = (f', .ok m) →
    m.miningJobToken = token

theorem reference_carriesToken : reference.CarriesToken := by
  intro f c r token tip t o n f' m h
  obtain rfl := Except.ok.inj (Prod.mk.inj h).2
  rfl

/-- The token a message uses. -/
def Note.token? : Note → Option Bytes
  | .declareMiningJob _ _ message => some message.miningJobToken
  | .setCustomMiningJob _ _ message => some message.miningJobToken
  | _ => none

/-- The declaration a message is. -/
def Note.declareMessage? : Note → Option DeclareMiningJob
  | .declareMiningJob _ _ message => some message
  | _ => none

theorem Note.declareMessage?_of_token? {n : Note} (h : n.token? = none) :
    n.declareMessage? = none := by
  cases n <;> first | rfl | cases h

/-- How often messages use a token. -/
def uses (k : Bytes) (notes : List Note) : Nat :=
  (notes.filterMap Note.token?).count k

@[simp] theorem uses_nil (k : Bytes) : uses k [] = 0 := rfl

@[simp] theorem uses_append (k : Bytes) (xs ys : List Note) :
    uses k (xs ++ ys) = uses k xs + uses k ys := by
  simp [uses]

theorem uses_eq_zero {k : Bytes} {notes : List Note} (h : ∀ n ∈ notes, n.token? = none) :
    uses k notes = 0 := by
  simp [uses, List.filterMap_eq_nil_iff.mpr h]

/-- The token of a kept declaration that is not among those sent. -/
def DeclaredJob.unsentToken (sent : List DeclareMiningJob) (job : DeclaredJob) : Option Bytes :=
  match job.declareMiningJob with
  | some message => if message ∈ sent then none else some message.miningJobToken
  | none => none

/-- How often the client can still use a token, when the declarations `sent` were sent. -/
def Core.held (k : Bytes) (sent : List DeclareMiningJob) (c : Core) : Nat :=
  (c.allocateTokens.map (·.miningJobToken)).count k +
    c.lastDeclareJobStore.countP fun e => e.2.unsentToken sent = some k

/-- How often a token that was taken can be used. -/
def taken (k : Bytes) (token : Option AllocateMiningJobTokenSuccess) : Nat :=
  (token.toList.map (·.miningJobToken)).count k

@[simp] theorem taken_none (k : Bytes) : taken k none = 0 := rfl

section Held

variable {k : Bytes} {sent : List DeclareMiningJob} {c : Core}

theorem Core.held_removeJob (r : RequestId) : (c.removeJob r).held k sent ≤ c.held k sent :=
  Nat.add_le_add_left (List.filter_sublist.countP_le) _

theorem Core.held_storeJob_le (r : RequestId) (job : DeclaredJob) :
    (c.storeJob r job).held k sent ≤
      c.held k sent + if job.unsentToken sent = some k then 1 else 0 := by
  have hfilter : (c.lastDeclareJobStore.filter (·.1 ≠ r)).countP
      (fun e => e.2.unsentToken sent = some k) ≤
        c.lastDeclareJobStore.countP (fun e => e.2.unsentToken sent = some k) :=
    List.filter_sublist.countP_le
  simp only [Core.held, Core.storeJob, List.countP_cons, decide_eq_true_eq]
  omega

/-- A job that carries no declaration does not count. -/
theorem Core.held_storeJob_none {r : RequestId} {job : DeclaredJob}
    (h : job.declareMiningJob = none) : (c.storeJob r job).held k sent ≤ c.held k sent := by
  have hnone : job.unsentToken sent = none := by simp [DeclaredJob.unsentToken, h]
  simpa [hnone] using @Core.held_storeJob_le k sent c r job

/-- A job that replaces one with the same declaration. -/
theorem Core.held_replaceJob {r : RequestId} {job job' : DeclaredJob}
    (hjob : (r, job) ∈ c.lastDeclareJobStore)
    (hsame : job'.declareMiningJob = job.declareMiningJob) :
    (c.storeJob r job').held k sent ≤ c.held k sent := by
  have hunsent : job'.unsentToken sent = job.unsentToken sent := by
    simp only [DeclaredJob.unsentToken, hsame]
  obtain ⟨l₁, l₂, hl⟩ := List.append_of_mem hjob
  have h₁ : (l₁.filter (·.1 ≠ r)).countP (fun e => e.2.unsentToken sent = some k) ≤ _ :=
    List.filter_sublist.countP_le
  have h₂ : (l₂.filter (·.1 ≠ r)).countP (fun e => e.2.unsentToken sent = some k) ≤ _ :=
    List.filter_sublist.countP_le
  simp only [Core.held, Core.storeJob, hl, List.filter_append, List.countP_cons,
    List.countP_append, hunsent, List.filter_cons, ne_eq, not_true_eq_false, decide_false,
    Bool.false_eq_true, if_false] at h₁ h₂ ⊢
  omega

theorem DeclaredJob.unsentToken_activate (m : SetNewPrevHash) (job : DeclaredJob) :
    (job.activate m).unsentToken sent = job.unsentToken sent := by
  unfold DeclaredJob.activate
  split <;> rfl

theorem Core.held_setPrevHash (m : SetNewPrevHash) :
    (c.setPrevHash m).held k sent = c.held k sent := by
  simp only [Core.held, Core.setPrevHash, List.countP_map]
  congr 2
  funext e
  simp [DeclaredJob.unsentToken_activate]

/-- What is sent is not held any more. -/
theorem DeclaredJob.unsentToken_append {job : DeclaredJob} {more : List DeclareMiningJob}
    (h : job.unsentToken (sent ++ more) = some k) : job.unsentToken sent = some k := by
  unfold DeclaredJob.unsentToken at h ⊢
  split at h
  · split at h
    · cases h
    · rename_i hnot
      simp only [List.mem_append, not_or] at hnot
      rwa [if_neg hnot.1]
  · cases h

theorem Core.countP_unsent_append (more : List DeclareMiningJob)
    (l : List (RequestId × DeclaredJob)) :
    l.countP (fun e => e.2.unsentToken (sent ++ more) = some k) ≤
      l.countP (fun e => e.2.unsentToken sent = some k) :=
  List.countP_mono_left fun _ _ h => by
    simpa using DeclaredJob.unsentToken_append (by simpa using h)

theorem Core.held_append (more : List DeclareMiningJob) :
    c.held k (sent ++ more) ≤ c.held k sent :=
  Nat.add_le_add_left (Core.countP_unsent_append more _) _

/-- A kept declaration that was not sent is sent now. -/
theorem Core.held_send {e : RequestId × DeclaredJob} {message : DeclareMiningJob}
    (he : e ∈ c.lastDeclareJobStore) (hmessage : e.2.declareMiningJob = some message)
    (hfresh : message ∉ sent) :
    c.held k (sent ++ [message]) + (if message.miningJobToken = k then 1 else 0) ≤
      c.held k sent := by
  obtain ⟨l₁, l₂, hl⟩ := List.append_of_mem he
  have hold : e.2.unsentToken sent = some message.miningJobToken := by
    simp [DeclaredJob.unsentToken, hmessage, hfresh]
  have hnew : e.2.unsentToken (sent ++ [message]) = none := by
    simp [DeclaredJob.unsentToken, hmessage]
  have h₁ := @Core.countP_unsent_append k sent [message] l₁
  have h₂ := @Core.countP_unsent_append k sent [message] l₂
  simp only [Core.held, hl, List.countP_append, List.countP_cons, hold, hnew, reduceCtorEq,
    decide_false, Bool.false_eq_true, if_false, decide_eq_true_eq, Option.some.injEq]
  omega

end Held

namespace ChannelManager

variable {api : ChannelsSv2} {s : ChannelManager api} {k : Bytes} {sent : List DeclareMiningJob}
  {n : Nat} {o : Handled api} {f : ChannelManager api → Handled api}

/-! ### Parts of a handler -/

/-- A part that declares nothing: what is held after it and what it uses are at most `n`. -/
structure Spends (k : Bytes) (sent : List DeclareMiningJob) (n : Nat) (o : Handled api) : Prop where
  silent : ∀ note ∈ o.notes, note.declareMessage? = none
  le : o.value.core.held k sent + uses k o.notes ≤ n

/-- What does not see the channels uses no token. -/
theorem blind_held (k : Bytes) (sent : List DeclareMiningJob) (n : Nat) :
    Blind (fun s : ChannelManager api => s.core.held k sent ≤ n) (fun note =>
      note.token? = none) where
  of_core h hcore := by rwa [hcore]
  note note hn := by cases note <;> first | rfl | cases hn
  request _ := rfl

theorem Spends.of_unused {R : JDCError → Prop}
    (h : Leaves (fun s => s.core.held k sent ≤ n) (fun note => note.token? = none) R o) :
    Spends k sent n o where
  silent note hn := Note.declareMessage?_of_token? (h.notes note hn)
  le := by
    rw [uses_eq_zero h.notes]
    exact h.value

theorem Spends.keep (h : s.core.held k sent ≤ n) : Spends k sent n (.keep s : Handled api) :=
  .of_unused (R := fun _ => True) (.keep h)

theorem Spends.fail {e : JDCError} (h : s.core.held k sent ≤ n) :
    Spends k sent n (.fail s e : Handled api) :=
  .of_unused (R := fun _ => True) (.fail h trivial)

theorem Spends.value (h : Spends k sent n o) : o.value.core.held k sent ≤ n :=
  (Nat.le_add_right _ _).trans h.le

theorem Spends.andThen (h : Spends k sent n o)
    (hf : ∀ n', o.value.core.held k sent ≤ n' → Spends k sent n' (f o.value)) :
    Spends k sent n (o.andThen f) := by
  by_cases he : o.error = none
  · have hrest := hf _ le_rfl
    rw [Outcome.andThen_eq_of_ok he]
    refine ⟨fun note hn => ?_, ?_⟩
    · rcases List.mem_append.mp hn with hn | hn
      · exact h.silent note hn
      · exact hrest.silent note hn
    · have hle := h.le
      have hle' := hrest.le
      simp only [uses_append]
      omega
  · obtain ⟨e, he⟩ := Option.ne_none_iff_exists'.mp he
    rw [Outcome.andThen_eq_of_error he]
    exact h

/-- The messages of a part may be held back. -/
theorem Spends.collect (h : Spends k sent n o)
    (hf : ∀ n', o.value.core.held k sent ≤ n' → Spends k sent n' (f o.value)) :
    Spends k sent n (Handler.collect o f) := by
  by_cases he : o.error = none
  · have hrest := hf _ le_rfl
    rw [collect_eq_of_ok he]
    refine ⟨fun note hn => ?_, ?_⟩
    · rcases List.mem_append.mp hn with hn | hn
      · exact hrest.silent note hn
      · exact h.silent note hn
    · have hle := h.le
      have hle' := hrest.le
      simp only [uses_append]
      omega
  · obtain ⟨e, he⟩ := Option.ne_none_iff_exists'.mp he
    rw [collect_eq_of_error he]
    exact .fail h.value

/-- Messages that use no token come first. -/
theorem Spends.sayThen {notes : List Note} (hnotes : ∀ note ∈ notes, note.token? = none)
    (h : Spends k sent n (f s)) : Spends k sent n (Outcome.andThen (say notes s) f) := by
  rw [Outcome.andThen_eq_of_ok (say_error _ _)]
  refine ⟨fun note hn => ?_, ?_⟩
  · rcases List.mem_append.mp hn with hn | hn
    · exact Note.declareMessage?_of_token? (hnotes note hn)
    · exact h.silent note hn
  · have hle := h.le
    simpa [uses_eq_zero hnotes] using hle

/-- A loop whose turns use what they find. -/
theorem Spends.forEach {K : Type} {g : K → ChannelManager api → Handled api} {keys : List K}
    (hg : ∀ key s n, s.core.held k sent ≤ n → Spends k sent n (g key s))
    (h : s.core.held k sent ≤ n) : Spends k sent n (Handler.forEach g keys s) := by
  induction keys generalizing s n with
  | nil => exact .keep h
  | cons key keys ih => exact (hg key s n h).andThen fun _ hle => ih hle

theorem allocateTokenIf_spends (taken : Bool) (h : s.core.held k sent ≤ n) :
    Spends k sent n (s.allocateTokenIf taken) := by
  unfold allocateTokenIf
  split
  · exact .of_unused (R := fun _ => True) (.say h (by simp [Note.token?]))
  · exact .keep h

/-- A token that is taken is not held any more. -/
theorem takeToken_held (s : ChannelManager api) (wanted : Bool) :
    (s.takeToken wanted).2.core.held k sent + taken k (s.takeToken wanted).1 =
      s.core.held k sent := by
  unfold takeToken
  cases wanted with
  | false => simp [core]
  | true =>
      cases htokens : s.allocateTokens with
      | nil => simp [core, Core.held, htokens]
      | cons token rest =>
          simp only [core, Core.held, htokens, taken, List.tail_cons, List.head?_cons, if_true,
            Option.toList_some, List.map_cons, List.map_nil, List.count_cons, List.count_nil]
          omega

/-! ### Custom jobs -/

theorem customJob_held {g : api.JobFactory} {u : api.Upstream}
    {token : AllocateMiningJobTokenSuccess} {m : SetNewPrevHash} {t : NewTemplate}
    {outputs : List TxOut} :
    (s.customJob g u token m t outputs).1.core.held k sent ≤ s.core.held k sent := by
  unfold customJob
  dsimp only
  cases (api.newCustomJob g (api.upstreamChannelId u) s.requestIdFactory token.miningJobToken
      m.chainTip t outputs (api.upstreamFullSize u)).2 with
  | error e => exact le_rfl
  | ok message => exact Core.held_storeJob_none (c := s.core) rfl

theorem customJob_token (hcarry : api.CarriesToken) {g : api.JobFactory} {u : api.Upstream}
    {token : AllocateMiningJobTokenSuccess} {m : SetNewPrevHash} {t : NewTemplate}
    {outputs : List TxOut} {message : SetCustomMiningJob}
    (h : (s.customJob g u token m t outputs).2.2 = some message) :
    message.miningJobToken = token.miningJobToken := by
  unfold customJob at h
  dsimp only at h
  cases hbuilt : api.newCustomJob g (api.upstreamChannelId u) s.requestIdFactory
      token.miningJobToken m.chainTip t outputs (api.upstreamFullSize u) with
  | mk g' built =>
      rw [hbuilt] at h
      cases built with
      | error e => cases h
      | ok message' =>
          obtain rfl := Option.some.inj h
          exact hcarry hbuilt

theorem uses_customJob {t : NewTemplate} {p : Bytes} {message : SetCustomMiningJob} {token : Bytes}
    (h : message.miningJobToken = token) :
    uses k [.setCustomMiningJob t p message] = [token].count k := by
  simp [uses, Note.token?, h]

/-- A custom job uses the token it is given, once. -/
theorem sendCustomJob_spends (hcarry : api.CarriesToken)
    {token : Option AllocateMiningJobTokenSuccess} {m : Option SetNewPrevHash}
    {t : Option NewTemplate} {outputs : List TxOut}
    (h : s.core.held k sent + taken k token ≤ n) :
    Spends k sent n (s.sendCustomJob token m t outputs) := by
  have hs : s.core.held k sent ≤ n := (Nat.le_add_right _ _).trans h
  unfold sendCustomJob
  split
  · rename_i token u m t _
    split
    · exact .fail hs
    · rename_i g hg
      have hcore : core { (s.customJob g u token m t outputs).1 with
          jobFactory := some (s.customJob g u token m t outputs).2.1 } =
            (s.customJob g u token m t outputs).1.core := by
        simp [core, customJob, hg]
      have hheld : (s.customJob g u token m t outputs).1.core.held k sent ≤ s.core.held k sent :=
        customJob_held
      dsimp only
      split
      · exact .keep (by rw [hcore]; omega)
      · rename_i message hmessage
        have huses := uses_customJob (k := k) (t := t) (p := api.upstreamPrefix u)
          (customJob_token hcarry hmessage)
        refine ⟨by simp [Note.declareMessage?], ?_⟩
        simp only [say_value, say_notes, hcore, huses]
        simp only [taken, Option.toList_some, List.map_cons, List.map_nil] at h
        omega
  · exact .keep hs

/-! ### The handlers -/

/-- A downstream of a new template uses the token once. -/
theorem newTemplateDownstream_spends (hcarry : api.CarriesToken) {t : NewTemplate}
    {outputs : List TxOut} {token : Option AllocateMiningJobTokenSuccess} {d : DownstreamId}
    (h : s.core.held k sent + taken k token ≤ n) :
    Spends k sent n (newTemplateDownstream t outputs token d s) := by
  have hs : s.core.held k sent ≤ n := (Nat.le_add_right _ _).trans h
  unfold newTemplateDownstream
  split
  · exact .keep hs
  · split
    · exact .fail hs
    · dsimp only
      split
      · exact .fail hs
      · refine Spends.andThen (sendCustomJob_spends hcarry h) fun n' hle => ?_
        have hb := @blind_held api k sent n'
        refine .of_unused (R := fun _ => True) (Leaves.andThen (hb.say hle rfl ?_) fun _ hle => ?_)
        · split <;> rfl
        · have hR : ∀ e : JDCError, e.IsFatal → True := fun _ _ => trivial
          refine (Leaves.forEach (fun c _ s hle => hb.newTemplateStandard hR hle) hle).andThen
            fun _ hle => ?_
          exact .forEach (fun c _ s hle => hb.newTemplateExtended hR hle) hle

/-- The loop over the downstreams uses a token once, when there is one downstream at most. -/
theorem newTemplateLoop_spends (hcarry : api.CarriesToken) {t : NewTemplate}
    {outputs : List TxOut} {token : Option AllocateMiningJobTokenSuccess} {ds : List DownstreamId}
    (hone : token.isSome = true → ds.length ≤ 1)
    (h : s.core.held k sent + taken k token ≤ n) :
    Spends k sent n (forEach (newTemplateDownstream t outputs token) ds s) := by
  cases token with
  | none => exact .forEach (fun d s n hle => newTemplateDownstream_spends hcarry hle) h
  | some token =>
      match ds, hone rfl with
      | [], _ => exact .keep ((Nat.le_add_right _ _).trans h)
      | [d], _ => exact (newTemplateDownstream_spends hcarry h).andThen fun _ hle => .keep hle

/-- `handle_new_template` takes a token, and gets as far as the downstreams. -/
def takesTemplateToken (s : ChannelManager api) (t : NewTemplate) : Bool :=
  s.wantsTemplateToken t && !s.allocateTokens.isEmpty &&
    (rewardOutputs s.coinbaseOutputs t).toBool

theorem handleNewTemplate_spends (hcarry : api.CarriesToken) (t : NewTemplate)
    (hone : s.takesTemplateToken t = true → s.downstream.keys.length ≤ 1) :
    Spends k sent (s.core.held k sent) (s.handleNewTemplate t) := by
  unfold handleNewTemplate
  dsimp only
  split
  · exact .fail (le_of_eq rfl)
  · rename_i outputs houtputs
    refine .sayThen ?_ (.collect (newTemplateLoop_spends hcarry ?_ ?_) fun n' hle =>
      allocateTokenIf_spends _ hle)
    · split <;> simp [Note.token?]
    · intro htoken
      refine hone ?_
      obtain ⟨hwants, hsome⟩ := takeToken_isSome htoken
      simp only [takesTemplateToken, houtputs, Except.toBool, Bool.and_true, Bool.and_eq_true,
        Bool.not_eq_true']
      exact ⟨hwants, hsome⟩
    · exact le_of_eq (takeToken_held _ _)

/-! ### Declarations -/

/-- A declaration that was kept is sent for the first time. -/
def declaresOnce (s : ChannelManager api) (sent : List DeclareMiningJob) : Prop :=
  ∀ message ∈ s.declareFuture.filterMap Note.declareMessage?, message ∉ sent

/-- What is held when kept declarations are sent. -/
theorem declareFuture_held (honce : s.declaresOnce sent) :
    s.core.held k (sent ++ s.declareFuture.filterMap Note.declareMessage?) +
      uses k s.declareFuture ≤ s.core.held k sent := by
  unfold declaresOnce at honce
  cases hfuture : s.declareFuture with
  | nil => simp
  | cons note rest =>
      rw [hfuture] at honce
      unfold declareFuture at hfuture
      split at hfuture
      · split at hfuture
        · rename_i message t prevHash custom outputs txs hjob
          obtain ⟨rfl, rfl⟩ := List.cons.inj hfuture
          obtain ⟨r, hmem, -⟩ := mem_futureDeclaredJob hjob
          have hsend := Core.held_send (k := k) (c := s.core) hmem rfl
            (honce message List.mem_cons_self)
          simpa [uses, Note.token?, Note.declareMessage?, List.count_singleton] using hsend
        · cases hfuture
      · cases hfuture

/-- A handler: what is held after it and what it used are at most `n`. -/
def Budget (k : Bytes) (sent : List DeclareMiningJob) (n : Nat) (o : Handled api) : Prop :=
  o.value.core.held k (sent ++ o.notes.filterMap Note.declareMessage?) + uses k o.notes ≤ n

theorem Spends.budget (h : Spends k sent n o) : Budget k sent n o := by
  unfold Budget
  rw [List.filterMap_eq_nil_iff.mpr h.silent, List.append_nil]
  exact h.le

/-- Messages first, then a part that declares nothing. -/
theorem Budget.sayThen {notes : List Note} {n' : Nat}
    (h : Spends k (sent ++ notes.filterMap Note.declareMessage?) n' (f s))
    (hn : n' + uses k notes ≤ n) : Budget k sent n (Outcome.andThen (say notes s) f) := by
  have hle := h.le
  unfold Budget
  rw [Outcome.andThen_eq_of_ok (say_error _ _)]
  simp only [say_value, say_notes, List.filterMap_append, List.filterMap_eq_nil_iff.mpr h.silent,
    List.append_nil, uses_append]
  omega

theorem held_applyPrevHash (m : SetNewPrevHash) :
    (s.applyPrevHash m).core.held k sent = s.core.held k sent :=
  Core.held_setPrevHash (c := s.core) m

theorem handleSetNewPrevHash_budget (hcarry : api.CarriesToken) (m : SetNewPrevHash)
    (honce : s.declaresOnce sent) :
    Budget k sent (s.core.held k sent) (s.handleSetNewPrevHash m) := by
  unfold handleSetNewPrevHash
  split
  · exact Spends.budget (.fail le_rfl)
  · rename_i outputs houtputs
    dsimp only
    generalize (s.mode = .coinbaseOnly && s.lastFutureTemplate.isSome : Bool) = wanted
    have htake := @takeToken_held api k (sent ++ s.declareFuture.filterMap
      Note.declareMessage?) (s.applyPrevHash m) wanted
    rw [held_applyPrevHash] at htake
    refine .sayThen ?_ (declareFuture_held honce)
    refine .collect (.andThen (sendCustomJob_spends hcarry (Nat.le_of_eq htake)) fun n' hle => ?_)
      fun n' hle => allocateTokenIf_spends _ hle
    have hb := @blind_held api k (sent ++ s.declareFuture.filterMap Note.declareMessage?) n'
    refine .of_unused (R := fun _ => True) (.forEach (fun d _ s hle => ?_) hle)
    exact hb.prevHashDownstream (fun _ _ => trivial) hle

/-- A stored declaration holds the token it is made with. -/
theorem held_storeDeclared (requestId : RequestId) (prevHash : Option SetNewPrevHash)
    (token : AllocateMiningJobTokenSuccess) (t : NewTemplate) (parsed : List Consensus.Transaction)
    (p q excess : Bytes) (outputs : List TxOut) (txs : List Bytes) :
    (s.core.storeJob requestId (declaredJob (declaration requestId token t parsed p q excess) t
      prevHash outputs txs)).held k sent ≤ s.core.held k sent + taken k (some token) := by
  have hkept : (if (declaredJob (declaration requestId token t parsed p q excess) t prevHash
      outputs txs).unsentToken sent = some k then 1 else 0) ≤ taken k (some token) := by
    have htoken : taken k (some token) = if token.miningJobToken = k then 1 else 0 := by
      simp [taken, List.count_singleton]
    rw [htoken]
    simp only [DeclaredJob.unsentToken, declaredJob, declaration]
    split <;> simp
  exact (Core.held_storeJob_le requestId _).trans (Nat.add_le_add_left hkept _)

/-- Once it is sent it holds nothing. -/
theorem held_storeSent (requestId : RequestId) (prevHash : Option SetNewPrevHash)
    (token : AllocateMiningJobTokenSuccess) (t : NewTemplate) (parsed : List Consensus.Transaction)
    (p q excess : Bytes) (outputs : List TxOut) (txs : List Bytes) :
    (s.core.storeJob requestId (declaredJob (declaration requestId token t parsed p q excess) t
      prevHash outputs txs)).held k (sent ++ [declaration requestId token t parsed p q excess]) ≤
        s.core.held k sent := by
  have hle : _ ≤ s.core.held k (sent ++ [declaration requestId token t parsed p q excess]) + _ :=
    Core.held_storeJob_le requestId
      (declaredJob (declaration requestId token t parsed p q excess) t prevHash outputs txs)
  have hsent : (declaredJob (declaration requestId token t parsed p q excess) t prevHash outputs
      txs).unsentToken (sent ++ [declaration requestId token t parsed p q excess]) = none := by
    simp [DeclaredJob.unsentToken, declaredJob]
  rw [hsent] at hle
  simp only [reduceCtorEq, if_false, Nat.add_zero] at hle
  exact hle.trans (@Core.held_append k sent s.core _)

/-- A declaration uses the token it is given once: now, or when its previous hash arrives. -/
theorem declareJob_budget {requestId : RequestId} {prevHash : Option SetNewPrevHash}
    {token : AllocateMiningJobTokenSuccess} {t : NewTemplate} {outputs : List TxOut}
    {txs : List Bytes} {excess : Bytes} (h : s.core.held k sent + taken k (some token) ≤ n) :
    Budget k sent n (s.declareJob requestId prevHash token t outputs txs excess) := by
  have hs : s.core.held k sent ≤ n := (Nat.le_add_right _ _).trans h
  unfold declareJob
  split
  · exact Spends.budget (.fail hs)
  · rename_i parsed _
    split
    · exact Spends.budget (.fail hs)
    · split
      · rename_i u f hu hf
        have hcore : ∀ f' : api.JobFactory,
            core { s with jobFactory := some f' } = s.core := by
          intro f'
          simp [core, hf]
        dsimp only
        split
        · exact Spends.budget (.keep (by rw [hcore]; exact hs))
        · split
          · exact Spends.budget (.fail (by rw [hcore]; exact hs))
          · rename_i p q _ _
            split
            · refine Spends.budget (.keep ?_)
              have hstore : _ ≤ s.core.held k sent + taken k (some token) :=
                held_storeDeclared requestId prevHash token t parsed p q excess outputs txs
              exact hstore.trans h
            · have hstore : _ ≤ s.core.held k sent :=
                held_storeSent requestId prevHash token t parsed p q excess outputs txs
              have huses : uses k [.declareMiningJob t (api.upstreamPrefix u)
                  (declaration requestId token t parsed p q excess)] = taken k (some token) := by
                simp [uses, Note.token?, declaration, taken]
              unfold Budget
              rw [say_notes]
              exact (Nat.add_le_add hstore (Nat.le_of_eq huses)).trans h
      · exact Spends.budget (.keep hs)

/-- A token is asked for first. -/
theorem Budget.tokenThen (h : Budget k sent n (f s.allocateToken.value)) :
    Budget k sent n (s.allocateToken.andThen f) := by
  unfold Budget at h ⊢
  rw [Outcome.andThen_eq_of_ok (o := s.allocateToken) rfl]
  exact h

theorem handleRequestTxDataSuccess_budget (i : TemplateId) (txs : List Bytes) (excess : Bytes)
    (s : ChannelManager api) :
    Budget k sent (s.core.held k sent) (s.handleRequestTxDataSuccess i txs excess) := by
  unfold handleRequestTxDataSuccess
  split
  · exact Spends.budget (.fail le_rfl)
  · rename_i outputs houtputs
    dsimp only
    refine .tokenThen ?_
    -- the token at the head of the queue is taken, whatever becomes of it
    have htake := @takeToken_held api k sent s true
    simp only [takeToken, if_true] at htake
    have hheld : s.core.held k sent = Core.held k sent (core
        ({ s with
          allocateTokens := s.allocateTokens.tail
          templateStore := Function.update s.templateStore i none
          requestIdFactory := s.requestIdFactory + 1 } : ChannelManager api).allocateToken.value) +
        taken k s.allocateTokens.head? := htake.symm
    have hle := Nat.le_of_eq hheld.symm
    have hrest := (Nat.le_add_right _ _).trans hle
    split
    · exact Spends.budget (.keep hrest)
    · rename_i token htoken
      rw [htoken] at hle
      split
      · exact Spends.budget (.fail hrest)
      · split
        · exact Spends.budget (.fail hrest)
        · exact declareJob_budget hle

/-- The job that is stored again carries the same declaration. -/
theorem handleDeclareMiningJobSuccess_held (r : RequestId) (token : Bytes)
    (s : ChannelManager api) :
    Spends k sent (s.core.held k sent + uses k (s.handleDeclareMiningJobSuccess r token).notes)
      (s.handleDeclareMiningJobSuccess r token) := by
  unfold handleDeclareMiningJobSuccess
  split
  · exact .fail (Nat.le_add_right _ _)
  · rename_i job hjob
    split
    · exact .fail (Nat.le_add_right _ _)
    · split
      · exact .fail (Nat.le_add_right _ _)
      · split
        · rename_i u f _ hf
          have hfactory : ∀ f' : api.JobFactory,
              core { s with jobFactory := some f' } = s.core := fun f' => by simp [core, hf]
          dsimp only
          split
          · exact .fail (by rw [hfactory]; exact Nat.le_add_right _ _)
          · rename_i message _
            have hreplace : (s.core.storeJob r { job with setCustomMiningJob := some message }).held
                k sent ≤ s.core.held k sent :=
              Core.held_replaceJob (Core.mem_of_job? (c := s.core) hjob) rfl
            refine ⟨by simp [Note.declareMessage?], Nat.add_le_add_right ?_ _⟩
            exact hreplace
        · exact .fail (Nat.le_add_right _ _)

theorem handleDeclareMiningJobSuccess_uses (hcarry : api.CarriesToken) (r : RequestId)
    (token : Bytes) (s : ChannelManager api) :
    uses k (s.handleDeclareMiningJobSuccess r token).notes ≤ [token].count k := by
  unfold handleDeclareMiningJobSuccess
  split
  · exact Nat.zero_le _
  · split
    · exact Nat.zero_le _
    · split
      · exact Nat.zero_le _
      · split
        · rename_i u f _ _
          dsimp only
          split
          · exact Nat.zero_le _
          · rename_i message hmessage
            exact Nat.le_of_eq (uses_customJob (hcarry (Prod.ext rfl hmessage)))
        · exact Nat.zero_le _

theorem handleSetCustomMiningJobSuccess_spends (r : RequestId) (j : JobId)
    (s : ChannelManager api) :
    Spends k sent (s.core.held k sent) (s.handleSetCustomMiningJobSuccess r j) := by
  have hremove := @Core.held_removeJob k sent s.core r
  unfold handleSetCustomMiningJobSuccess
  split
  · exact .fail le_rfl
  · rename_i job hjob
    dsimp only
    split
    · exact .fail hremove
    · rename_i u hu
      split
      · exact .fail hremove
      · split
        · exact .fail hremove
        · exact .fail hremove
        · split
          · have hb := @blind_held api k sent (s.core.held k sent)
            refine .of_unused (R := fun _ => True) (Leaves.collect (.forEach ?_ hremove)
              fun _ h => .keep h)
            exact fun entry _ s h => hb.relayShare h
          · exact .keep hremove

theorem handleSetCustomMiningJobError_spends (r : RequestId) (code : String)
    (s : ChannelManager api) :
    Spends k sent (s.core.held k sent) (s.handleSetCustomMiningJobError r code) := by
  unfold handleSetCustomMiningJobError
  split
  · split
    · exact .keep le_rfl
    · exact .keep (Core.held_removeJob (c := s.core) r)
  · exact .fail le_rfl

theorem upstreamCustomJob_held {u : api.Upstream} {token : Option AllocateMiningJobTokenSuccess}
    {outputs : List TxOut} :
    (s.upstreamCustomJob u token outputs).1.core.held k sent ≤ s.core.held k sent := by
  unfold upstreamCustomJob
  split
  · exact customJob_held
  · exact le_rfl

theorem upstreamCustomJob_uses (hcarry : api.CarriesToken) {u : api.Upstream} {p : Bytes}
    {token : Option AllocateMiningJobTokenSuccess} {outputs : List TxOut}
    {t : NewTemplate} {message : SetCustomMiningJob}
    (h : (s.upstreamCustomJob u token outputs).2.2 = some (t, message)) :
    uses k [.setCustomMiningJob t p message] = taken k token := by
  unfold upstreamCustomJob at h
  split at h
  · obtain ⟨message', hmessage, heq⟩ := Option.map_eq_some_iff.mp h
    obtain ⟨rfl, rfl⟩ := Prod.mk.inj heq
    rw [uses_customJob (customJob_token hcarry hmessage)]
    rfl
  · cases h

theorem handleOpenExtendedMiningChannelSuccess_spends (hcarry : api.CarriesToken)
    (m : OpenExtendedMiningChannelSuccess) (slots : Nat → Nat) (s : ChannelManager api) :
    Spends k sent (s.core.held k sent) (s.handleOpenExtendedMiningChannelSuccess m slots) := by
  have hgiveUp : ∀ c, Spends k sent (s.core.held k sent) (s.giveUpUpstream c) := fun c =>
    .of_unused (R := fun _ => True) (.say le_rfl (by simp [Note.token?]))
  unfold handleOpenExtendedMiningChannelSuccess
  split
  · exact .fail le_rfl
  · rename_i outputs houtputs
    split
    · exact .fail le_rfl
    · split
      · exact hgiveUp _
      · rename_i first hfirst
        dsimp only
        split
        · exact hgiveUp _
        · rename_i allocator hallocator
          generalize hu : s.upstreamOf m first.message.nominalHashRate = u
          have htake := @takeToken_held api k sent s s.wantsUpstreamToken
          generalize hr : (s.takeToken s.wantsUpstreamToken).2.upstreamCustomJob u
            (s.takeToken s.wantsUpstreamToken).1 outputs = r
          have hheld : r.1.core.held k sent ≤
              (s.takeToken s.wantsUpstreamToken).2.core.held k sent := by
            rw [← hr]
            exact upstreamCustomJob_held
          have hcustom : ∀ t message p, r.2.2 = some (t, message) →
              uses k [.setCustomMiningJob t p message] =
                taken k (s.takeToken s.wantsUpstreamToken).1 := by
            intro t message p h
            rw [← hr] at h
            exact upstreamCustomJob_uses hcarry h
          refine Spends.andThen ⟨fun note hn => ?_, ?_⟩ fun n' hle => ?_
          · rcases List.mem_append.mp hn with hn | hn
            · split at hn
              · obtain rfl := List.mem_singleton.mp hn
                rfl
              · cases hn
            · split at hn
              · obtain rfl := List.mem_singleton.mp hn
                rfl
              · cases hn
          · rw [say_notes, uses_append, uses_eq_zero fun note hn => ?_, Nat.zero_add]
            swap
            · split at hn
              · obtain rfl := List.mem_singleton.mp hn
                rfl
              · cases hn
            have hvalue : Core.held k sent r.1.core + taken k (s.takeToken s.wantsUpstreamToken).1 ≤
                s.core.held k sent := by omega
            cases hbuilt : r.2.2 with
            | none => exact (Nat.le_add_right _ _).trans hvalue
            | some job =>
                dsimp only
                rw [hcustom job.1 job.2 _ hbuilt]
                exact hvalue
          · refine (allocateTokenIf_spends _ hle).andThen fun n' hle => ?_
            have hb := @blind_held api k sent n'
            exact .of_unused (.forEach (fun r _ s h => hb.handleOpenMiningChannel h) hle)

/-! ### Events -/

/-- The two handlers that can use a token again do not. -/
def UsesTokenOnce (s : ChannelManager api) (sent : List DeclareMiningJob) : Event → Prop
  | .newTemplate t => s.takesTemplateToken t = true → s.downstream.keys.length ≤ 1
  | .setNewPrevHash _ => s.declaresOnce sent
  | _ => True

instance (s : ChannelManager api) (sent : List DeclareMiningJob) (e : Event) :
    Decidable (s.UsesTokenOnce sent e) :=
  match e with
  | .newTemplate _ => inferInstanceAs (Decidable (_ → _ ≤ 1))
  | .setNewPrevHash _ =>
      inferInstanceAs (Decidable (∀ message ∈ s.declareFuture.filterMap Note.declareMessage?, _))
  | .activate _ | .requestInitialTokens | .connect _ | .disconnect _
  | .requestTxDataSuccess _ _ _ | .allocateMiningJobTokenSuccess _ | .declareMiningJobSuccess _ _
  | .declareMiningJobError _ | .openExtendedMiningChannelSuccess _ _
  | .openStandardMiningChannelSuccess | .openMiningChannelError | .closeUpstreamChannel
  | .setExtranoncePrefix _ _ | .setCustomMiningJobSuccess _ _ | .setCustomMiningJobError _ _
  | .openMiningChannel _ _ | .closeChannel _ _ | .submitSharesStandard _ _
  | .submitSharesExtended _ _ => isTrue trivial

theorem requestInitialTokens_spends (s : ChannelManager api) :
    Spends k sent (s.core.held k sent) s.requestInitialTokens :=
  (allocateTokenIf_spends (s := { s with upstreamState := .noChannel }) true (le_of_eq rfl)).andThen
    fun _ hle => allocateTokenIf_spends true hle

theorem handleAllocateMiningJobTokenSuccess_spends (m : AllocateMiningJobTokenSuccess)
    (s : ChannelManager api) :
    Spends k sent (s.core.held k sent + [m.miningJobToken].count k)
      (s.handleAllocateMiningJobTokenSuccess m) := by
  have hqueued : Core.held k sent (core { s with
      coinbaseOutputs := m.coinbaseOutputs
      allocateTokens := s.allocateTokens ++ [m] }) ≤
        s.core.held k sent + [m.miningJobToken].count k := by
    simp only [core, Core.held, List.map_append, List.map_cons, List.map_nil, List.count_append]
    omega
  unfold handleAllocateMiningJobTokenSuccess
  dsimp only
  split
  · split
    · exact .fail hqueued
    · exact .of_unused (R := fun _ => True) (.say hqueued (by simp [Note.token?]))
  · exact .keep hqueued

theorem handleDeclareMiningJobError_spends (code : String) (s : ChannelManager api) :
    Spends k sent (s.core.held k sent) (s.handleDeclareMiningJobError code) := by
  unfold handleDeclareMiningJobError
  split
  · exact .keep le_rfl
  · exact .fail le_rfl

end ChannelManager

/-- The token of an `AllocateMiningJobToken.Success`. -/
def Event.allocatedToken? : Event → Option Bytes
  | .allocateMiningJobTokenSuccess m => some m.miningJobToken
  | _ => none

/-- The token of a `DeclareMiningJob.Success`. -/
def Event.declaredToken? : Event → Option Bytes
  | .declareMiningJobSuccess _ token => some token
  | _ => none

namespace ChannelManager

/-- No handler uses more than it has or is given, the token of a declared job apart. -/
theorem handler_budget (hcarry : api.CarriesToken) (e : Event) (s : ChannelManager api)
    (honce : s.UsesTokenOnce sent e) :
    Budget k sent (s.core.held k sent + e.allocatedToken?.toList.count k +
      if e.declaredToken?.isSome then uses k (handler e s).notes else 0) (handler e s) := by
  have hb := @blind_held api k sent (s.core.held k sent)
  have hle : s.core.held k sent ≤ s.core.held k sent := le_rfl
  cases e with
  | activate mode => exact Spends.budget (.keep hle)
  | requestInitialTokens => exact (requestInitialTokens_spends s).budget
  | connect r => exact Spends.budget (.of_unused (hb.connect hle))
  | disconnect d => exact Spends.budget (.keep hle)
  | newTemplate t => exact (handleNewTemplate_spends hcarry t honce).budget
  | requestTxDataSuccess i txs excess => exact handleRequestTxDataSuccess_budget i txs excess s
  | setNewPrevHash m => exact handleSetNewPrevHash_budget hcarry m honce
  | allocateMiningJobTokenSuccess m =>
      exact (handleAllocateMiningJobTokenSuccess_spends m s).budget
  | declareMiningJobSuccess r token => exact (handleDeclareMiningJobSuccess_held r token s).budget
  | declareMiningJobError code => exact (handleDeclareMiningJobError_spends code s).budget
  | openExtendedMiningChannelSuccess m slots =>
      exact (handleOpenExtendedMiningChannelSuccess_spends hcarry m slots s).budget
  | openStandardMiningChannelSuccess => exact Spends.budget (.fail hle)
  | openMiningChannelError => exact Spends.budget (.fail hle)
  | closeUpstreamChannel => exact Spends.budget (.fail hle)
  | setExtranoncePrefix p slots =>
      exact Spends.budget (.of_unused (hb.handleSetExtranoncePrefix hle))
  | setCustomMiningJobSuccess r j => exact (handleSetCustomMiningJobSuccess_spends r j s).budget
  | setCustomMiningJobError r code => exact (handleSetCustomMiningJobError_spends r code s).budget
  | openMiningChannel r slot => exact Spends.budget (.of_unused (hb.handleDownstreamOpen hle))
  | closeChannel d c => exact Spends.budget (.of_unused (hb.handleCloseChannel hle))
  | submitSharesStandard d m => exact Spends.budget (.of_unused (hb.submitShares hle))
  | submitSharesExtended d m => exact Spends.budget (.of_unused (hb.submitShares hle))

/-- In solo mode the messages of the server are not read. -/
theorem handle_budget (hcarry : api.CarriesToken) (e : Event) (s : ChannelManager api)
    (honce : s.UsesTokenOnce sent e) :
    Budget k sent (s.core.held k sent + e.allocatedToken?.toList.count k +
      if e.declaredToken?.isSome then uses k (handle e s).notes else 0) (handle e s) := by
  unfold handle
  by_cases hsolo : (s.mode = .soloMining && e.fromUpstream) = true
  · rw [if_pos hsolo]
    exact Spends.budget (.keep ((Nat.le_add_right _ _).trans (Nat.le_add_right _ _)))
  · rw [if_neg hsolo]
    exact handler_budget hcarry e s honce

/-- The token of a declared job is used once. -/
theorem handle_uses_declared (hcarry : api.CarriesToken) {e : Event}
    (he : e.declaredToken?.isSome = true) (s : ChannelManager api) :
    uses k (handle e s).notes ≤ e.declaredToken?.toList.count k := by
  cases e with
  | declareMiningJobSuccess r token =>
      unfold handle
      split
      · exact Nat.zero_le _
      · exact handleDeclareMiningJobSuccess_uses hcarry r token s
  | _ => cases he

end ChannelManager

/-! ### Runs -/

/-- The client, with the tokens it received and the tokens of the messages it sent. -/
structure Spending (api : ChannelsSv2) where
  client : Client api
  /-- The tokens of the `AllocateMiningJobToken.Success` messages. -/
  allocated : List Bytes
  /-- The tokens of the `DeclareMiningJob.Success` messages. -/
  declared : List Bytes
  /-- The tokens of the `SetCustomMiningJob` messages sent for a `DeclareMiningJob.Success`. -/
  usedDeclared : List Bytes
  /-- The tokens of all other `SetCustomMiningJob` and of the `DeclareMiningJob` messages. -/
  used : List Bytes

namespace Spending

variable {api : ChannelsSv2}

def start (coinbaseOutputs : Bytes) (reserved : Nat) : Spending api :=
  ⟨.start coinbaseOutputs reserved, [], [], [], []⟩

def step (x : Spending api) (e : Event) : Spending api :=
  if x.client.running then
    let client := x.client.step e
    let tokens := (client.history.drop x.client.history.length).filterMap Note.token?
    { client := client
      allocated := x.allocated ++ e.allocatedToken?.toList
      declared := x.declared ++ e.declaredToken?.toList
      usedDeclared := if e.declaredToken?.isSome then x.usedDeclared ++ tokens else x.usedDeclared
      used := if e.declaredToken?.isSome then x.used else x.used ++ tokens }
  else x

/-- Every token that was received was used at most once. -/
structure UsedOnce (x : Spending api) : Prop where
  allocated : ∀ k, x.used.count k ≤ x.allocated.count k
  declared : ∀ k, x.usedDeclared.count k ≤ x.declared.count k

/-- The declarations that were sent. -/
def sent (x : Spending api) : List DeclareMiningJob :=
  x.client.history.filterMap Note.declareMessage?

def UsesTokenOnce (x : Spending api) (e : Event) : Prop :=
  x.client.manager.UsesTokenOnce x.sent e

/-- What was used and what is held was allocated. -/
structure Inv (x : Spending api) : Prop where
  allocated : ∀ k, x.used.count k + x.client.manager.core.held k x.sent ≤ x.allocated.count k
  declared : ∀ k, x.usedDeclared.count k ≤ x.declared.count k

theorem Inv.usedOnce {x : Spending api} (h : x.Inv) : x.UsedOnce :=
  ⟨fun k => (Nat.le_add_right _ _).trans (h.allocated k), h.declared⟩

theorem inv_step (hcarry : api.CarriesToken) {x : Spending api} {e : Event} (h : x.Inv)
    (honce : x.UsesTokenOnce e) : (x.step e).Inv := by
  cases hrun : x.client.running with
  | false =>
      have hsame : x.step e = x := by simp [step, hrun]
      rw [hsame]
      exact h
  | true =>
      generalize ho : ChannelManager.handle e x.client.manager = o
      have hbudget := fun k => ChannelManager.handle_budget (k := k) hcarry e _ honce
      simp only [ho, ChannelManager.Budget] at hbudget
      have huses := fun k he => ChannelManager.handle_uses_declared (k := k) hcarry (e := e) he
        x.client.manager
      simp only [ho] at huses
      have hallocated := h.allocated
      have hdeclared := h.declared
      have hcore : (x.step e).client.manager.core = o.value.core := by
        simp [step, Client.step, hrun, ho, Client.managerAfter_core]
      have hsent : (x.step e).sent = x.sent ++ o.notes.filterMap Note.declareMessage? := by
        simp [step, sent, Client.step, hrun, ho]
      have hnotes : ((x.client.step e).history.drop x.client.history.length) = o.notes := by
        simp [Client.step, hrun, ho]
      refine ⟨fun k => ?_, fun k => ?_⟩
      · rw [hcore, hsent]
        specialize hbudget k
        specialize hallocated k
        simp only [step, hrun, if_true, hnotes, List.count_append]
        cases he : e.declaredToken?.isSome with
        | true => simp only [he, if_true] at hbudget ⊢; omega
        | false =>
            simp only [he, Bool.false_eq_true, if_false, List.count_append] at hbudget ⊢
            simp only [uses] at hbudget
            omega
      · specialize huses k
        specialize hdeclared k
        simp only [step, hrun, if_true, hnotes, List.count_append]
        cases he : e.declaredToken?.isSome with
        | true =>
            simp only [if_true, List.count_append]
            have := huses he
            simp only [uses] at this
            omega
        | false =>
            simp only [Bool.false_eq_true, if_false]
            omega

theorem inv_start (outputs : Bytes) (reserved : Nat) :
    (start outputs reserved : Spending api).Inv :=
  ⟨fun _ => le_rfl, fun _ => le_rfl⟩

instance (x : Spending api) (e : Event) : Decidable (x.UsesTokenOnce e) :=
  inferInstanceAs (Decidable (ChannelManager.UsesTokenOnce _ _ _))

/-- **A token is used once.** In a run in which no template takes a token for two or more
downstreams, and no previous hash sends a declaration again, every token that was received was
used at most once. -/
theorem tokens_spent_once (hcarry : api.CarriesToken) (outputs : Bytes) (reserved : Nat)
    (es : List Event)
    (hes : Runs.Along step (fun x e => x.UsesTokenOnce e)
    (start outputs reserved : Spending api) es) :
    (Runs.exec step (start outputs reserved : Spending api) es).UsedOnce :=
  (Runs.exec_induct (fun _ _ h honce => inv_step hcarry h honce) (inv_start _ _) hes).usedOnce

open Client (sampleOutputs sampleToken sampleTemplate samplePrevHash sampleOpen)

/-- A token for the downstreams of a template, in coinbase-only mode. -/
def templateTokenRun (connects : List Event) : List Event :=
  [.activate .coinbaseOnly, .requestInitialTokens, .newTemplate (sampleTemplate 1 true),
    .setNewPrevHash (samplePrevHash 1)] ++ connects ++
  [.openMiningChannel (sampleOpen .extended) 0,
    .openExtendedMiningChannelSuccess ⟨5, [], [1, 2], 8⟩ fun _ => 0,
    .allocateMiningJobTokenSuccess (sampleToken 0), .newTemplate (sampleTemplate 2 false)]

theorem templateTokenRun_uses_once :
    (Runs.exec step (start sampleOutputs 4 : Spending reference)
        (templateTokenRun [.connect false])).used = [[7]] ∧
      (Runs.exec step (start sampleOutputs 4 : Spending reference)
        (templateTokenRun [.connect false])).UsedOnce :=
  ⟨by decide +kernel, tokens_spent_once reference_carriesToken _ _ _ (by decide +kernel)⟩

/-- With two downstreams the token is sent twice. -/
theorem templateTokenRun_uses_twice :
    ¬ (Runs.exec step (start sampleOutputs 4 : Spending reference)
      (templateTokenRun [.connect false, .connect false])).UsedOnce := by
  intro h
  have htwice := h.allocated [7]
  revert htwice
  decide +kernel

end Spending

end GridPoolSv2.JobDeclaratorClient
