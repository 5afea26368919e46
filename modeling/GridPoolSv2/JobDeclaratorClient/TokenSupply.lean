import GridPoolSv2.JobDeclaratorClient.Walk

/-!
# JobDeclaratorClient.TokenSupply: tokens that are taken and tokens that are asked for

Four handlers take a token from `allocate_tokens`, and each of them asks for a new one on
its own. The **supply** of the client is what it has plus what it waits for: the tokens in
the queue and the requests the job declarator server has not answered. It starts at two.

Most of a handler is `Quiet`: it touches neither the queue nor asks for tokens. What is
left is the arithmetic of `allocateToken`, `takeToken` and the two handlers that can keep
a token without asking for another one:

* `handle_set_new_prev_hash` in coinbase-only mode takes a token for the last future
  template before it looks for an upstream channel;
* `handle_open_extended_mining_channel_success` asks for a new token only after it sent
  the custom job it took the token for.
-/

namespace GridPoolSv2.JobDeclaratorClient

open Consensus (Bytes TxOut)
open Visit Handler
open Client (tokenRequest?)

namespace ChannelManager

variable {api : ChannelsSv2} {s : ChannelManager api}
  {ts : List AllocateMiningJobTokenSuccess} {R : JDCError → Prop}

/-- The queue stays as it is, and no token is asked for. -/
abbrev Quiet (ts : List AllocateMiningJobTokenSuccess) (R : JDCError → Prop) (o : Handled api) :
    Prop :=
  Leaves (fun s => s.allocateTokens = ts) (fun n => tokenRequest? n = none) R o

/-- What the client has after a handler, and what the handler asked for. -/
def supply (o : Handled api) : Nat :=
  o.value.allocateTokens.length + (o.notes.filterMap tokenRequest?).length

theorem filterMap_quiet {notes : List Note} (h : ∀ n ∈ notes, tokenRequest? n = none) :
    notes.filterMap tokenRequest? = [] :=
  List.filterMap_eq_nil_iff.mpr h

/-- A quiet handler leaves the supply as it was. -/
theorem Quiet.supply {o : Handled api} (h : Quiet ts R o) : supply o = ts.length := by
  simp [ChannelManager.supply, h.value, filterMap_quiet h.notes]

/-! ### The quiet parts -/

/-- What does not see the channels is quiet. -/
theorem blind_quiet (ts : List AllocateMiningJobTokenSuccess) :
    Blind (fun s : ChannelManager api => s.allocateTokens = ts)
      (fun n => tokenRequest? n = none) where
  of_core h hcore := (congrArg Core.allocateTokens hcore).trans h
  note n hn := by cases n <;> first | rfl | cases hn
  request _ := rfl

/-- A custom job uses a token that was taken before. -/
theorem sendCustomJob_quiet (h : s.allocateTokens = ts)
    {token : Option AllocateMiningJobTokenSuccess} {m : Option SetNewPrevHash}
    {t : Option NewTemplate} {outputs : List TxOut} :
    Quiet ts JDCError.IsFatal (s.sendCustomJob token m t outputs) := by
  unfold sendCustomJob
  split
  · split
    · exact .fail h (.inr rfl)
    · dsimp only
      split
      · exact .keep h
      · exact .say h (by simp [tokenRequest?])
  · exact .keep h

theorem declareJob_quiet (h : s.allocateTokens = ts) {requestId : RequestId}
    {prevHash : Option SetNewPrevHash} {token : AllocateMiningJobTokenSuccess} {t : NewTemplate}
    {outputs : List TxOut} {txs : List Bytes} {excess : Bytes} :
    Quiet ts (fun _ => True) (s.declareJob requestId prevHash token t outputs txs excess) := by
  unfold declareJob
  split
  · exact .fail h trivial
  · split
    · exact .fail h trivial
    · split
      · dsimp only
        split
        · exact .keep h
        · split
          · exact .fail h trivial
          · split
            · exact .keep h
            · exact .say h (by simp [tokenRequest?])
      · exact .keep h

theorem handleDeclareMiningJobSuccess_quiet (h : s.allocateTokens = ts) {r : RequestId}
    {token : Bytes} : Quiet ts (fun _ => True) (s.handleDeclareMiningJobSuccess r token) := by
  unfold handleDeclareMiningJobSuccess
  split
  · exact .fail h trivial
  · split
    · exact .fail h trivial
    · split
      · exact .fail h trivial
      · split
        · dsimp only
          split
          · exact .fail h trivial
          · exact .say h (by simp [tokenRequest?])
        · exact .fail h trivial

theorem handleSetCustomMiningJobSuccess_quiet (h : s.allocateTokens = ts) {r : RequestId}
    {j : JobId} : Quiet ts (fun _ => True) (s.handleSetCustomMiningJobSuccess r j) := by
  unfold handleSetCustomMiningJobSuccess
  split
  · exact .fail h trivial
  · dsimp only
    split
    · exact .fail h trivial
    · split
      · exact .fail h trivial
      · split
        · exact .fail h trivial
        · exact .fail h trivial
        · split
          · refine (Leaves.forEach (fun entry _ s h => ?_) (by exact h)).collect fun _ h => .keep h
            exact (blind_quiet _).relayShare h
          · exact .keep h

theorem handleSetCustomMiningJobError_quiet (h : s.allocateTokens = ts) {r : RequestId}
    {code : String} : Quiet ts (fun _ => True) (s.handleSetCustomMiningJobError r code) := by
  unfold handleSetCustomMiningJobError
  split
  · split
    · exact .keep h
    · exact .keep h
  · exact .fail h trivial

/-! ### The supply after a handler -/

/-- If the loop goes on, the supply is at least `n`. -/
def Supplied (n : Nat) (o : Handled api) : Prop :=
  Client.goesOn o = true → n ≤ supply o

section Supplied

variable {n : Nat} {o : Handled api} {f : ChannelManager api → Handled api}

theorem Supplied.of_quiet (h : Quiet ts R o) (hn : n ≤ ts.length) : Supplied n o := by
  intro _
  rw [h.supply]
  exact hn

theorem goesOn_eq_false (h : ∀ e, o.error = some e → e.IsFatal) (he : o.error ≠ none) :
    Client.goesOn o = false := by
  obtain ⟨e, he⟩ := Option.ne_none_iff_exists'.mp he
  obtain ⟨kind, action⟩ := e
  unfold Client.goesOn
  rcases h _ he with rfl | rfl <;> rw [he]

/-- A quiet part may come first: its only failures end the loop. -/
theorem Supplied.andThen (h : Quiet ts JDCError.IsFatal o)
    (hf : o.value.allocateTokens = ts → Supplied n (f o.value)) : Supplied n (o.andThen f) := by
  intro hgo
  by_cases he : o.error = none
  · rw [Outcome.andThen_eq_of_ok he] at hgo ⊢
    have hrest := hf h.value hgo
    simpa [supply, List.filterMap_append, filterMap_quiet h.notes] using hrest
  · obtain ⟨e, he'⟩ := Option.ne_none_iff_exists'.mp he
    rw [Outcome.andThen_eq_of_error he', goesOn_eq_false h.error he] at hgo
    cases hgo

/-- The notes of a quiet part may be held back. -/
theorem Supplied.collect (h : Quiet ts JDCError.IsFatal o)
    (hf : o.value.allocateTokens = ts → Supplied n (f o.value)) :
    Supplied n (Handler.collect o f) := by
  intro hgo
  by_cases he : o.error = none
  · rw [collect_eq_of_ok he] at hgo ⊢
    have hrest := hf h.value hgo
    simpa [supply, List.filterMap_append, filterMap_quiet h.notes] using hrest
  · obtain ⟨e, he'⟩ := Option.ne_none_iff_exists'.mp he
    have hfail : Client.goesOn (Handler.collect o f) = false := by
      refine goesOn_eq_false (fun e' he'' => h.error e' ?_) ?_
      · rw [collect_eq_of_error he'] at he''
        rw [he']
        simpa using he''
      · simp [collect_eq_of_error he']
    rw [hfail] at hgo
    cases hgo

/-- A token that was taken is asked for again. -/
theorem Supplied.allocateTokenIf {taken : Bool}
    (h : n ≤ s.allocateTokens.length + (if taken then 1 else 0)) :
    Supplied n (s.allocateTokenIf taken) := by
  intro _
  unfold ChannelManager.allocateTokenIf
  cases taken with
  | true => simpa [allocateToken, supply, tokenRequest?] using h
  | false => simpa [supply] using h

/-- A token is asked for, or not, then comes a quiet part. -/
theorem Supplied.allocateTokenThen (taken : Bool)
    (h : n ≤ s.allocateTokens.length + (if taken then 1 else 0))
    (hf : ∀ s', s'.allocateTokens = s.allocateTokens →
      Quiet s.allocateTokens (fun _ => True) (f s')) :
    Supplied n ((s.allocateTokenIf taken).andThen f) := by
  intro _
  have herr : (s.allocateTokenIf taken).error = none := by cases taken <;> rfl
  have hvalue : (s.allocateTokenIf taken).value.allocateTokens = s.allocateTokens := by
    cases taken <;> rfl
  have hnotes : ((s.allocateTokenIf taken).notes.filterMap tokenRequest?).length =
      if taken then 1 else 0 := by
    cases taken <;> rfl
  have hs := (hf _ hvalue).supply
  rw [Outcome.andThen_eq_of_ok herr]
  simp only [supply, List.filterMap_append, List.length_append, hnotes] at hs ⊢
  omega

end Supplied

/-- A token that is taken is missing in the queue. -/
theorem takeToken_length (s : ChannelManager api) (wanted : Bool) :
    (s.takeToken wanted).2.allocateTokens.length +
      (if (s.takeToken wanted).1.isSome then 1 else 0) = s.allocateTokens.length := by
  unfold takeToken
  cases wanted with
  | false => simp
  | true => cases s.allocateTokens <;> simp

/-- A token is taken only if one is wanted and there. -/
theorem takeToken_isSome {wanted : Bool} (h : (s.takeToken wanted).1.isSome = true) :
    wanted = true ∧ s.allocateTokens.isEmpty = false := by
  unfold takeToken at h
  cases wanted with
  | false => cases h
  | true =>
      cases htokens : s.allocateTokens with
      | nil => simp [htokens] at h
      | cons token rest => simp

theorem handleNewTemplate_supplied (t : NewTemplate) (s : ChannelManager api) :
    Supplied s.allocateTokens.length (s.handleNewTemplate t) := by
  unfold handleNewTemplate
  dsimp only
  split
  · exact .of_quiet (.fail (R := fun _ => True) rfl trivial) le_rfl
  · refine .andThen (.say rfl ?_) fun _ => ?_
    · split <;> simp [tokenRequest?]
    · refine .collect (.forEach (fun d _ s h => (blind_quiet _).newTemplateDownstream
        (fun _ h => h) (fun s h => sendCustomJob_quiet h) h) rfl) fun h => ?_
      refine .allocateTokenIf (Nat.le_of_eq ?_)
      rw [h]
      exact (takeToken_length _ _).symm

theorem handleRequestTxDataSuccess_supplied (t : TemplateId) (txs : List Bytes) (excess : Bytes)
    (s : ChannelManager api) :
    Supplied s.allocateTokens.length (s.handleRequestTxDataSuccess t txs excess) := by
  unfold handleRequestTxDataSuccess
  split
  · exact .of_quiet (.fail (R := fun _ => True) rfl trivial) le_rfl
  · refine .allocateTokenThen true ?_ fun s' h => ?_
    · simp only [List.length_tail, if_true]
      omega
    · split
      · exact .keep h
      · split
        · exact .fail h trivial
        · split
          · exact .fail h trivial
          · exact declareJob_quiet h

/-- `handle_set_new_prev_hash` takes no token that it cannot use: there is an upstream channel. -/
def prevHashTokenUsed (s : ChannelManager api) : Bool :=
  !(s.mode = .coinbaseOnly && s.lastFutureTemplate.isSome && s.allocateTokens.head?.isSome) ||
    s.upstreamChannel.isSome

theorem handleSetNewPrevHash_supplied (m : SetNewPrevHash) (s : ChannelManager api)
    (hused : s.prevHashTokenUsed = true) :
    Supplied s.allocateTokens.length (s.handleSetNewPrevHash m) := by
  unfold handleSetNewPrevHash
  split
  · exact .of_quiet (.fail (R := fun _ => True) rfl trivial) le_rfl
  · refine .andThen (.say rfl ?_) fun _ => ?_
    · intro n hn
      unfold declareFuture at hn
      split at hn
      · split at hn
        · obtain rfl := List.mem_singleton.mp hn
          rfl
        · simp at hn
      · simp at hn
    · refine .collect (.andThen (sendCustomJob_quiet rfl) fun _ h =>
        .forEach (fun d _ s h => (blind_quiet _).prevHashDownstream (fun _ h => h) h) h) fun h => ?_
      refine .allocateTokenIf ?_
      rw [h]
      -- the token that was taken is asked for again, since there is an upstream channel
      simp only [prevHashTokenUsed, takeToken, applyPrevHash, say_value, Bool.or_eq_true] at hused ⊢
      cases hw : (decide (s.mode = .coinbaseOnly) && s.lastFutureTemplate.isSome) with
      | false => simp
      | true =>
          simp only [hw, Bool.true_and, Bool.not_eq_true', if_true, Option.isSome_map] at hused ⊢
          cases ht : s.allocateTokens with
          | nil => simp
          | cons token rest =>
              rw [ht] at hused
              simp only [List.head?_cons, Option.isSome_some, Bool.true_eq_false, false_or] at hused
              simp [hused]

/-- `handle_open_extended_mining_channel_success` builds the custom job it takes a token for. -/
def upstreamTokenUsed (m : OpenExtendedMiningChannelSuccess) (s : ChannelManager api) : Bool :=
  match s.pendingDownstreamRequests.head?, s.allocateTokens.head?, s.lastNewPrevHash,
    s.lastFutureTemplate, deserializeOutputs s.coinbaseOutputs with
  | some first, some token, some tip, some t, some outputs =>
      let u := s.upstreamOf m first.message.nominalHashRate
      let totalLen := (m.extranoncePrefix.length + m.extranonceSize) % 2 ^ 16
      !(s.wantsUpstreamToken && api.allocatorAccepts m.extranoncePrefix (totalLen % 2 ^ 8)) ||
        (api.newCustomJob api.newJobFactory (api.upstreamChannelId u) s.requestIdFactory
          token.miningJobToken tip.chainTip t outputs (api.upstreamFullSize u)).2.toBool
  | _, _, _, _, _ => true

theorem upstreamCustomJob_allocateTokens (u : api.Upstream)
    (token : Option AllocateMiningJobTokenSuccess) (outputs : List TxOut) (s : ChannelManager api) :
    (s.upstreamCustomJob u token outputs).1.allocateTokens = s.allocateTokens := by
  unfold upstreamCustomJob
  split <;> rfl

/-- An allocator has the prefix and the length it was made with. -/
theorem fromUpstreamPrefix_ok {p : Bytes} {n : Nat} {a : ExtranonceAllocator}
    (h : api.fromUpstreamPrefix p n = .ok a) : api.allocatorAccepts p n = true ∧ a = ⟨p, n⟩ := by
  unfold ChannelsSv2.fromUpstreamPrefix at h
  split at h
  · rename_i hacc
    exact ⟨hacc, (Except.ok.inj h).symm⟩
  · cases h

/-- A token that is taken for the custom job of a new upstream channel is used. -/
theorem upstreamCustomJob_balance {m : OpenExtendedMiningChannelSuccess}
    {first : PendingChannelRequest} {outputs : List TxOut}
    (hfirst : s.pendingDownstreamRequests.head? = some first)
    (haccepts : api.allocatorAccepts m.extranoncePrefix
      ((m.extranoncePrefix.length + m.extranonceSize) % 2 ^ 16 % 2 ^ 8) = true)
    (houtputs : deserializeOutputs s.coinbaseOutputs = some outputs)
    (hused : s.upstreamTokenUsed m = true) :
    let taken := s.takeToken s.wantsUpstreamToken
    let r := taken.2.upstreamCustomJob (s.upstreamOf m first.message.nominalHashRate)
      taken.1 outputs
    s.allocateTokens.length ≤ r.1.allocateTokens.length + (if r.2.2.isSome then 1 else 0) := by
  intro taken r
  have htokens : r.1.allocateTokens = taken.2.allocateTokens :=
    upstreamCustomJob_allocateTokens _ _ _ _
  rw [htokens, ← takeToken_length s s.wantsUpstreamToken]
  refine Nat.add_le_add_left ?_ _
  cases htoken : (s.takeToken s.wantsUpstreamToken).1 with
  | none => simp
  | some token =>
      have hwants : s.wantsUpstreamToken = true := by
        by_contra hw
        simp [takeToken, Bool.not_eq_true _ ▸ hw] at htoken
      have hhead : s.allocateTokens.head? = some token := by
        simpa [takeToken, hwants] using htoken
      obtain ⟨t, ht⟩ : ∃ t, s.lastFutureTemplate = some t := by
        simp only [wantsUpstreamToken, Bool.and_eq_true] at hwants
        exact Option.isSome_iff_exists.mp hwants.1.2
      obtain ⟨tip, htip⟩ : ∃ tip, s.lastNewPrevHash = some tip := by
        simp only [wantsUpstreamToken, Bool.and_eq_true] at hwants
        exact Option.isSome_iff_exists.mp hwants.2
      -- the job factory builds this very job
      have hbuilt : r.2.2.isSome = true := by
        simp only [upstreamTokenUsed, hfirst, hhead, htip, ht, houtputs, hwants, haccepts,
          Bool.and_self, Bool.not_true, Bool.false_or] at hused
        have hr : r.2.2 = ((api.newCustomJob api.newJobFactory
            (api.upstreamChannelId (s.upstreamOf m first.message.nominalHashRate))
            s.requestIdFactory token.miningJobToken tip.chainTip t outputs
            (api.upstreamFullSize (s.upstreamOf m first.message.nominalHashRate))).2.toOption).map
              fun message => (t, message) := by
          simp only [r, taken, upstreamCustomJob, htoken]
          simp only [takeToken, htip, ht, customJob]
        rw [hr]
        revert hused
        cases (api.newCustomJob api.newJobFactory _ _ _ _ _ _ _).2 <;>
          simp [Except.toBool, Except.toOption]
      simp [hbuilt]

theorem handleOpenExtendedMiningChannelSuccess_supplied (m : OpenExtendedMiningChannelSuccess)
    (slots : Nat → Nat) (s : ChannelManager api) (hused : s.upstreamTokenUsed m = true) :
    Supplied s.allocateTokens.length (s.handleOpenExtendedMiningChannelSuccess m slots) := by
  unfold handleOpenExtendedMiningChannelSuccess
  split
  · exact .of_quiet (.fail (R := fun _ => True) rfl trivial) le_rfl
  · rename_i outputs houtputs
    split
    · exact .of_quiet (.fail (R := fun _ => True) rfl trivial) le_rfl
    · split
      · exact .of_quiet (.say (R := fun _ => True) rfl (by simp [tokenRequest?])) le_rfl
      · rename_i first hfirst
        dsimp only
        split
        · exact .of_quiet (.say (R := fun _ => True) rfl (by simp [tokenRequest?])) le_rfl
        · rename_i allocator hallocator
          refine .andThen (.say (upstreamCustomJob_allocateTokens _ _ _ _) ?_) fun _ => ?_
          · intro n hn
            rcases List.mem_append.mp hn with hn | hn
            · split at hn
              · obtain rfl := List.mem_singleton.mp hn
                rfl
              · simp at hn
            · split at hn
              · obtain rfl := List.mem_singleton.mp hn
                rfl
              · simp at hn
          · refine .allocateTokenThen _ ?_ fun s' h => ?_
            · exact upstreamCustomJob_balance hfirst (fromUpstreamPrefix_ok hallocator).1 houtputs
                hused
            · exact .forEach (fun r _ s h => (blind_quiet _).handleOpenMiningChannel h) h

theorem handleAllocateMiningJobTokenSuccess_supplied (m : AllocateMiningJobTokenSuccess)
    (s : ChannelManager api) :
    Supplied (s.allocateTokens.length + 1) (s.handleAllocateMiningJobTokenSuccess m) := by
  unfold handleAllocateMiningJobTokenSuccess
  dsimp only
  split
  · split
    · exact .of_quiet (.fail (R := fun _ => True) rfl trivial) (by simp)
    · exact .of_quiet (.say (R := fun _ => True) rfl (by simp [tokenRequest?])) (by simp)
  · exact .of_quiet (.keep (R := fun _ => True) rfl) (by simp)

/-- The tokens an event brings in. -/
def granted (s : ChannelManager api) : Event → Nat
  | .allocateMiningJobTokenSuccess _ => if s.mode = .soloMining then 0 else 1
  | .requestInitialTokens => 2
  | _ => 0

/-- The two events that can waste a token do not. -/
def TakenTokenUsed (s : ChannelManager api) : Event → Prop
  | .setNewPrevHash _ => s.prevHashTokenUsed = true
  | .openExtendedMiningChannelSuccess m _ => s.upstreamTokenUsed m = true
  | _ => True

instance (s : ChannelManager api) (e : Event) : Decidable (s.TakenTokenUsed e) :=
  match e with
  | .setNewPrevHash _ => inferInstanceAs (Decidable (_ = true))
  | .openExtendedMiningChannelSuccess _ _ => inferInstanceAs (Decidable (_ = true))
  | .activate _ | .requestInitialTokens | .connect _ | .disconnect _ | .newTemplate _
  | .requestTxDataSuccess _ _ _ | .allocateMiningJobTokenSuccess _ | .declareMiningJobSuccess _ _
  | .declareMiningJobError _ | .openStandardMiningChannelSuccess | .openMiningChannelError
  | .closeUpstreamChannel | .setExtranoncePrefix _ _ | .setCustomMiningJobSuccess _ _
  | .setCustomMiningJobError _ _ | .openMiningChannel _ _ | .closeChannel _ _
  | .submitSharesStandard _ _ | .submitSharesExtended _ _ => isTrue trivial

/-- No handler loses a token, and what an event brings in is kept. -/
theorem handler_supplied (e : Event) (s : ChannelManager api) (hused : s.TakenTokenUsed e)
    (hmode : s.mode ≠ .soloMining ∨ e.fromUpstream = false) :
    Supplied (s.allocateTokens.length + s.granted e) (handler e s) := by
  have hfail : ∀ (s' : ChannelManager api) (k : JDCErrorKind),
      s'.allocateTokens = s.allocateTokens →
      Supplied (s.allocateTokens.length + 0) (.fail s' (.fallback k) : Handled api) :=
    fun s' k h => .of_quiet (.fail (R := fun _ => True) h trivial) le_rfl
  cases e with
  | activate mode => exact .of_quiet (.keep (R := fun _ => True) rfl) le_rfl
  | requestInitialTokens =>
      intro _
      simp [handler, requestInitialTokens, supply, allocateToken, Outcome.andThen, tokenRequest?,
        granted]
  | connect r => exact .of_quiet ((blind_quiet _).connect rfl) le_rfl
  | disconnect d => exact .of_quiet (.keep (R := fun _ => True) rfl) le_rfl
  | newTemplate t => exact handleNewTemplate_supplied t s
  | requestTxDataSuccess t txs excess => exact handleRequestTxDataSuccess_supplied t txs excess s
  | setNewPrevHash m => exact handleSetNewPrevHash_supplied m s hused
  | allocateMiningJobTokenSuccess m =>
      have hgranted : s.granted (.allocateMiningJobTokenSuccess m) = 1 := by
        simp only [granted, Event.fromUpstream, Bool.true_eq_false, or_false] at hmode ⊢
        rw [if_neg hmode]
      rw [hgranted]
      exact handleAllocateMiningJobTokenSuccess_supplied m s
  | declareMiningJobSuccess r token =>
      exact .of_quiet (handleDeclareMiningJobSuccess_quiet rfl) le_rfl
  | declareMiningJobError code =>
      simp only [handler, handleDeclareMiningJobError]
      split
      · exact .of_quiet (.keep (R := fun _ => True) rfl) le_rfl
      · exact hfail s _ rfl
  | openExtendedMiningChannelSuccess m slots =>
      exact handleOpenExtendedMiningChannelSuccess_supplied m slots s hused
  | openStandardMiningChannelSuccess => exact hfail s _ rfl
  | openMiningChannelError => exact hfail s _ rfl
  | closeUpstreamChannel => exact hfail _ _ rfl
  | setExtranoncePrefix p slots =>
      exact .of_quiet ((blind_quiet _).handleSetExtranoncePrefix rfl) le_rfl
  | setCustomMiningJobSuccess r j =>
      exact .of_quiet (handleSetCustomMiningJobSuccess_quiet rfl) le_rfl
  | setCustomMiningJobError r code =>
      exact .of_quiet (handleSetCustomMiningJobError_quiet rfl) le_rfl
  | openMiningChannel r slot => exact .of_quiet ((blind_quiet _).handleDownstreamOpen rfl) le_rfl
  | closeChannel d c => exact .of_quiet ((blind_quiet _).handleCloseChannel rfl) le_rfl
  | submitSharesStandard d m => exact .of_quiet ((blind_quiet _).submitShares rfl) le_rfl
  | submitSharesExtended d m => exact .of_quiet ((blind_quiet _).submitShares rfl) le_rfl

theorem handle_supplied (e : Event) (s : ChannelManager api) (hused : s.TakenTokenUsed e) :
    Supplied (s.allocateTokens.length + s.granted e) (handle e s) := by
  unfold handle
  split
  · rename_i hsolo
    simp only [Bool.and_eq_true, decide_eq_true_eq] at hsolo
    refine .of_quiet (.keep (R := fun _ => True) rfl) (Nat.le_of_eq ?_)
    cases e <;> simp_all [granted, Event.fromUpstream]
  · rename_i hread
    refine handler_supplied e s hused ?_
    by_cases hmode : s.mode = .soloMining
    · exact .inr (by simpa [hmode] using hread)
    · exact .inl hmode

end ChannelManager

namespace Client

variable {api : ChannelsSv2}

/-! ### Runs -/

/-- The tokens the client has and those it waits for. -/
def tokenSupply (w : Client api) : Nat :=
  w.manager.allocateTokens.length + w.unanswered.length

/-- Since the initial requests the supply is at least two, as long as the loop goes on. -/
def HasTokens (w : Client api) : Prop :=
  w.running = true → w.initialized = true → 2 ≤ w.tokenSupply

theorem managerAfter_core (o : Handled api) : (managerAfter o).core = o.value.core := by
  unfold managerAfter
  split <;> rfl

theorem managerAfter_allocateTokens (o : Handled api) :
    (managerAfter o).allocateTokens = o.value.allocateTokens :=
  congrArg Core.allocateTokens (managerAfter_core o)

/-- An answer takes at most the one request it is for. -/
theorem stillUnanswered_length (w : Client api) (e : Event) (he : e ≠ .requestInitialTokens) :
    w.unanswered.length ≤ (w.stillUnanswered e).length + w.manager.granted e := by
  cases e with
  | allocateMiningJobTokenSuccess m =>
      simp only [stillUnanswered, ChannelManager.granted]
      split
      · exact le_rfl
      · have := List.length_erase (a := m.requestId) (l := w.unanswered)
        split at this <;> omega
  | requestInitialTokens => exact absurd rfl he
  | _ => exact le_rfl

/-- One event does not lower the supply. -/
theorem step_tokenSupply {w : Client api} {e : Event} (hused : w.manager.TakenTokenUsed e)
    (hrun : (w.step e).running = true) (he : e ≠ .requestInitialTokens) :
    w.tokenSupply ≤ (w.step e).tokenSupply := by
  cases hw : w.running with
  | false => rw [step_stopped hw]
  | true =>
      simp only [step, hw, if_true] at hrun ⊢
      have hsupplied := ChannelManager.handle_supplied e w.manager hused hrun
      have hanswer := w.stillUnanswered_length e he
      simp only [tokenSupply, ChannelManager.supply, List.length_append,
        managerAfter_allocateTokens] at hsupplied hanswer ⊢
      omega

theorem step_hasTokens {w : Client api} {e : Event} (h : w.HasTokens)
    (hused : w.manager.TakenTokenUsed e) : (w.step e).HasTokens := by
  intro hrun hinit
  have hw : w.running = true := by
    by_contra hw
    rw [step_stopped (by simpa using hw)] at hrun
    exact hw hrun
  by_cases he : e = .requestInitialTokens
  · subst he
    simp only [step, hw, if_true] at hrun ⊢
    have hsupplied := ChannelManager.handle_supplied .requestInitialTokens w.manager hused hrun
    simp only [tokenSupply, ChannelManager.supply, ChannelManager.granted, List.length_append,
      managerAfter_allocateTokens] at hsupplied ⊢
    omega
  · have hinit' : w.initialized = true := by
      simp only [step, hw, if_true] at hinit
      cases e with
      | requestInitialTokens => exact absurd rfl he
      | _ => exact hinit
    exact (h hw hinit').trans (step_tokenSupply hused hrun he)

/-- **Tokens do not run out.** In a run in which every token that is taken is used, the client has,
or waits for, at least its initial two tokens in every state in which the loop goes on. -/
theorem tokens_do_not_run_out (outputs : Bytes) (reserved : Nat) (es : List Event)
    (hused : Runs.Along step (fun w e => w.manager.TakenTokenUsed e)
      (start outputs reserved : Client api) es) :
    (Runs.exec step (start outputs reserved : Client api) es).HasTokens :=
  Runs.exec_induct (fun _ _ h hC => step_hasTokens h hC) (fun _ hinit => by cases hinit) hused

/-- One output without a value and without a script. -/
def sampleOutputs : Bytes := [1, 0, 0, 0, 0, 0, 0, 0, 0, 0]

def sampleToken (requestId : RequestId) : AllocateMiningJobTokenSuccess :=
  ⟨requestId, [7], sampleOutputs⟩

def sampleTemplate (templateId : TemplateId) (futureTemplate : Bool) : NewTemplate :=
  ⟨templateId, futureTemplate, 0, 5000, []⟩

def samplePrevHash (templateId : TemplateId) : SetNewPrevHash := ⟨templateId, [9], 1, 2⟩

def sampleOpen (kind : ChannelKind) : PendingChannelRequest := ⟨0, kind, ⟨1, "miner", 0, [], 4⟩⟩

/-- A coinbase-only start, a downstream channel, a template and the next block. -/
def coinbaseOnlyRun : List Event :=
  [.activate .coinbaseOnly, .requestInitialTokens,
    .newTemplate (sampleTemplate 1 true), .setNewPrevHash (samplePrevHash 1),
    .allocateMiningJobTokenSuccess (sampleToken 0), .allocateMiningJobTokenSuccess (sampleToken 1),
    .connect false, .openMiningChannel (sampleOpen .extended) 0,
    .openExtendedMiningChannelSuccess ⟨5, [], [1, 2], 8⟩ fun _ => 0,
    .newTemplate (sampleTemplate 2 false), .allocateMiningJobTokenSuccess (sampleToken 3),
    .newTemplate (sampleTemplate 3 true), .setNewPrevHash (samplePrevHash 3)]

theorem coinbaseOnlyRun_hasTokens :
    (Runs.exec step (start sampleOutputs 4 : Client reference) coinbaseOnlyRun).running = true ∧
      (Runs.exec step (start sampleOutputs 4 : Client reference) coinbaseOnlyRun).HasTokens :=
  ⟨by decide +kernel, tokens_do_not_run_out _ _ _ (by decide +kernel)⟩

/-- The job declarator server is fast: both tokens are there before the first block. -/
def fastTokensRun : List Event :=
  [.activate .coinbaseOnly, .requestInitialTokens,
    .allocateMiningJobTokenSuccess (sampleToken 0), .allocateMiningJobTokenSuccess (sampleToken 1),
    .newTemplate (sampleTemplate 1 true), .setNewPrevHash (samplePrevHash 1)]

/-- A token taken before there is an upstream channel is gone. -/
theorem fastTokensRun_loses_token :
    ¬ (Runs.exec step (start sampleOutputs 4 : Client reference) fastTokensRun).HasTokens := by
  intro h
  have htwo := h (by decide +kernel) (by decide +kernel)
  revert htwo
  decide +kernel

end Client

end GridPoolSv2.JobDeclaratorClient
