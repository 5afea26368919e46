import GridPoolSv2.JobDeclarator.Isolation

/-!
# JobDeclarator.CoinbaseAgreement: the coinbases of an accepted custom job

The node validated **one** coinbase, the declared one with a zero extranonce. An accepted
`SetCustomMiningJob` lets the miner use any extranonce, and each coinbase it can produce
should be the declared one with other extranonce bytes.

* `customCoinbase` is the coinbase of a custom job with a given extranonce, in bytes; the
  message has no outpoint, which is the declared one's.
* `OnlyExtranonceDiffers` is the agreement that is wanted: the coinbase of the job is, byte
  for byte, the declared one with the extranonce put at the end of its script signature.
* The engine asks only that `coinbase_prefix` is *some* prefix of the declared script
  signature, of whatever length. `success_agrees_iff` says that the agreement holds exactly
  when the prefix leaves room for the extranonce and for nothing else.

`Stored` is the invariant behind the result: every job of the engine has a coinbase that can be
rebuilt, with one input. It is split into an origin lemma for each component, `jobs_step` for the
jobs and `inFlight_step` for the declaration the node is asked about, so that other properties of
the stored jobs (`JobDeclarator.RewardScript` has one) are proved with the same lemmas.
-/

namespace GridPoolSv2.JobDeclarator

open Runs Declarator
open Consensus
open Function (update)

/-! ### The extranonce of a declaration

`get_coinbase_tx` reads the declared length of the script signature from the prefix and fills what
is missing with zeros. The number of zeros is the full extranonce size. -/

/-- The declared length of the script signature, as `get_coinbase_tx` reads it. -/
def scriptSigSize (d : DeclareMiningJob) : Nat :=
  ((decodeVarInt (d.coinbaseTxPrefix.drop coinbasePrefixLen)).map (·.1)).getD 0

/-- `script_sig_bytes_in_prefix`. -/
def scriptSigBytesInPrefix (d : DeclareMiningJob) : Nat :=
  d.coinbaseTxPrefix.length - (coinbasePrefixLen + (encodeVarInt (scriptSigSize d)).length)

/-- `full_extranonce_size`. -/
def fullExtranonceSize (d : DeclareMiningJob) : Nat :=
  scriptSigSize d - scriptSigBytesInPrefix d

/-- The declared coinbase is decoded from prefix, zero extranonce and suffix. -/
theorem getCoinbaseTx_ok {d : DeclareMiningJob} {tx : Transaction}
    (h : getCoinbaseTx d = .ok tx) :
    scriptSigBytesInPrefix d ≤ scriptSigSize d ∧
      ∃ rest, Transaction.decode (d.coinbaseTxPrefix ++ List.replicate (fullExtranonceSize d) 0 ++
        d.coinbaseTxSuffix) = some (tx, rest) := by
  unfold getCoinbaseTx at h
  dsimp only at h
  split at h
  · cases h
  · split at h
    · cases h
    · rename_i size rest hsize
      have hscript : scriptSigSize d = size := by simp [scriptSigSize, hsize]
      split at h
      · cases h
      · rename_i hfits
        split at h
        · cases h
        · rename_i tx' rest' hdec
          obtain rfl := Except.ok.inj h
          rw [fullExtranonceSize, scriptSigBytesInPrefix, hscript]
          exact ⟨Nat.le_of_not_lt fun hlt => hfits (.inl hlt), rest', hdec⟩

/-- The script signature of a declared coinbase with witness flag: the bytes of it in the prefix,
and the extranonce. -/
theorem scriptSig_of_flagged {d : DeclareMiningJob} {tx : Transaction} {input : TxIn}
    {version outpoint part : Bytes} {size : Nat} (hversion : version.length = 4)
    (houtpoint : outpoint.length = 36) (hsize : size < 2 ^ 64)
    (hpre : d.coinbaseTxPrefix = flaggedStart version outpoint size ++ part)
    (htx : getCoinbaseTx d = .ok tx) (hinput : tx.input = [input]) :
    input.scriptSig = part ++ List.replicate (fullExtranonceSize d) 0 := by
  have hscript : scriptSigSize d = size := by
    have hdrop : d.coinbaseTxPrefix.drop coinbasePrefixLen = encodeVarInt size ++ part := by
      have hlen : coinbasePrefixLen = (version ++ ([0, 1, 1] ++ outpoint)).length := by
        simp [coinbasePrefixLen, hversion, houtpoint]
      have happ : d.coinbaseTxPrefix =
          (version ++ ([0, 1, 1] ++ outpoint)) ++ (encodeVarInt size ++ part) := by
        simp [hpre, flaggedStart]
      rw [happ, hlen, List.drop_left]
    simp [scriptSigSize, hdrop, decodeVarInt_append hsize]
  have hpart : scriptSigBytesInPrefix d = part.length := by
    rw [scriptSigBytesInPrefix, hscript, hpre, List.length_append, flaggedStart_length, hversion,
      houtpoint, coinbasePrefixLen]
    omega
  obtain ⟨hfits, rest, hdec⟩ := getCoinbaseTx_ok htx
  have hlen : size = (part ++ List.replicate (fullExtranonceSize d) (0 : UInt8)).length := by
    rw [List.length_append, List.length_replicate, fullExtranonceSize, hscript, hpart]
    rw [hscript, hpart] at hfits
    omega
  rw [hpre, List.append_assoc, List.append_assoc, ← List.append_assoc part] at hdec
  generalize hS : part ++ List.replicate (fullExtranonceSize d) (0 : UInt8) = script at hdec hlen ⊢
  rw [hlen] at hdec hsize
  have hsigs := Transaction.decode_flagged hversion houtpoint hsize hdec
  rw [hinput] at hsigs
  exact List.head_eq_of_cons_eq hsigs

/-! ### The agreement

The custom job is serialized without witness data, as a miner hashes it. Two such coinbases agree
exactly if their script signatures do, and by the length that the engine does not compare. -/

/-- The bytes, without witness, of the coinbase a custom job makes with an extranonce. -/
def customCoinbase (m : SetCustomMiningJob) (outpoint extranonce : Bytes) : Bytes :=
  leBytes 4 m.coinbaseTxVersion.toNat ++ encodeVarInt 1 ++
    TxIn.encode
      { previousOutput := outpoint
        scriptSig := m.coinbasePrefix ++ extranonce
        sequence := m.coinbaseTxInputNSequence.toNat } ++
    m.coinbaseTxOutputs ++ leBytes 4 m.coinbaseTxLocktime.toNat

/-- The declared coinbase with the last bytes of its script signature replaced. -/
def withExtranonce (tx : Transaction) (input : TxIn) (extranonce : Bytes) : Transaction :=
  { tx with
    input := [{ input with
      scriptSig := input.scriptSig.take (input.scriptSig.length - extranonce.length) ++
        extranonce }] }

/-- Every coinbase of the custom job with an extranonce of `n` bytes is the declared one with that
extranonce as the last `n` bytes of its script signature. -/
structure OnlyExtranonceDiffers (tx : Transaction) (input : TxIn) (n : Nat)
    (m : SetCustomMiningJob) :
    Prop where
  room : n ≤ input.scriptSig.length
  bytes : ∀ extranonce : Bytes, extranonce.length = n →
    customCoinbase m input.previousOutput extranonce =
      (withExtranonce tx input extranonce).encodeBase

theorem encodeVarInt_length_mono {x y : Nat} (h : x ≤ y) :
    (encodeVarInt x).length ≤ (encodeVarInt y).length := by
  unfold encodeVarInt
  split_ifs <;> simp only [List.length_cons, List.length_nil, leBytes_length] <;> omega

/-- A longer string takes more bytes. -/
theorem length_eq_of_varBytes {x y : Nat}
    (h : (encodeVarInt x).length + x = (encodeVarInt y).length + y) : x = y := by
  rcases Nat.lt_trichotomy x y with hlt | heq | hgt
  · have := encodeVarInt_length_mono hlt.le
    omega
  · exact heq
  · have := encodeVarInt_length_mono hgt.le
    omega

section Agreement

variable {hash : Bytes → Bytes} {job : DeclaredCustomJob} {tx : Transaction} {input : TxIn}
  {m : SetCustomMiningJob} {n : Nat}

/-- The coinbase of a custom job that agrees with a declaration is the declared one but for the
script signature. -/
theorem Agrees.customCoinbase_eq (h : Agrees hash job tx input m) (extranonce : Bytes) :
    customCoinbase m input.previousOutput extranonce =
      Transaction.encodeBase
        { tx with input := [{ input with scriptSig := m.coinbasePrefix ++ extranonce }] } := by
  simp only [customCoinbase, Transaction.encodeBase, h.coinbaseTxVersion, h.lockTime, h.outputs,
    TxIn.encode, h.sequence, List.length_singleton, List.flatMap_cons, List.flatMap_nil,
    List.append_nil]

theorem encodeBase_length_scriptSig {tx : Transaction} {input : TxIn} (script : Bytes) :
    (Transaction.encodeBase { tx with input := [{ input with scriptSig := script }] }).length =
      4 + (encodeVarInt 1).length + (input.previousOutput.length +
        ((encodeVarInt script.length).length + script.length) + 4) +
        (TxOut.encodeVec tx.output).length + 4 := by
  simp only [Transaction.encodeBase, TxIn.encode, List.length_append, leBytes_length,
    List.length_singleton, List.flatMap_cons, List.flatMap_nil, List.append_nil]
  omega

/-- Coinbases that differ only in the script signature are equal only with equally long ones. -/
theorem scriptSig_length_eq {tx : Transaction} {input : TxIn} {script script' : Bytes}
    (h : Transaction.encodeBase { tx with input := [{ input with scriptSig := script }] } =
      Transaction.encodeBase { tx with input := [{ input with scriptSig := script' }] }) :
    script.length = script'.length := by
  have hlen := congrArg List.length h
  rw [encodeBase_length_scriptSig, encodeBase_length_scriptSig] at hlen
  exact length_eq_of_varBytes (by omega)

/-- The agreement of the coinbases comes down to the length of the prefix. -/
theorem Agrees.onlyExtranonceDiffers_iff (h : Agrees hash job tx input m) :
    OnlyExtranonceDiffers tx input n m ↔ m.coinbasePrefix.length + n = input.scriptSig.length := by
  constructor
  · rintro ⟨hroom, hbytes⟩
    have heq := hbytes (List.replicate n 0) List.length_replicate
    rw [h.customCoinbase_eq, withExtranonce] at heq
    have hlen := scriptSig_length_eq heq
    simp only [List.length_append, List.length_take, List.length_replicate] at hlen
    omega
  · intro hlen
    refine ⟨by omega, ?_⟩
    intro extranonce hn
    have hpre : input.scriptSig.take (input.scriptSig.length - extranonce.length) =
        m.coinbasePrefix := by
      rw [List.prefix_iff_eq_take.mp h.coinbasePrefix]
      congr 1
      omega
    rw [h.customCoinbase_eq, withExtranonce, hpre]

end Agreement

/-! ### What the engine stores -/

/-- The declarations the engine holds or waits for have one input, and validated jobs have their
transactions. -/
structure Stored (s : Declarator) : Prop where
  jobs : ∀ r job, s.engine.declaredCustomJobs r = some job →
    Prechecked job.declareMiningJob ∧ (job.validated = true → job.txidList.isSome)
  inFlight : ∀ f, s.inFlight = some f → Prechecked f.declaration

section Stored

variable {s : Declarator}

/-! The engine first. No handler of a client's message touches it, and only an answer of the node
stores a job. -/

theorem jdpMessage_engine {c : DownstreamId} {handler : Client → Declarator}
    (hhandler : ∀ client, (handler client).engine = s.engine) :
    (s.jdpMessage c handler).engine = s.engine := by
  unfold Declarator.jdpMessage
  split
  · split
    · rfl
    · exact hhandler _
  · rfl

theorem startValidation_engine (c : DownstreamId) (t : JdToken) (d : DeclareMiningJob)
    (retry : Bool) : (s.startValidation c t d retry).engine = s.engine := by
  unfold Declarator.startValidation
  split <;> rfl

theorem handleDeclareMiningJob_engine (c : DownstreamId) (d : DeclareMiningJob) :
    (s.handleDeclareMiningJob c d).engine = s.engine := by
  unfold Declarator.handleDeclareMiningJob
  split
  · rfl
  · split
    · exact startValidation_engine c _ d false
    · rfl

theorem handleProvideMissingTransactionsSuccess_engine (c : DownstreamId) (client : Client)
    (r : RequestId) : (s.handleProvideMissingTransactionsSuccess c client r).engine = s.engine := by
  unfold Declarator.handleProvideMissingTransactionsSuccess
  split
  · rfl
  · dsimp only
    split
    · rfl
    · exact startValidation_engine c _ _ true

/-- The properties of the jobs survive forgetting some and storing one of its kind. -/
theorem jobs_update {P : DeclaredCustomJob → Prop} {jobs : RequestId → Option DeclaredCustomJob}
    (h : ∀ r job, jobs r = some job → P job) {r₀ : RequestId} {new : Option DeclaredCustomJob}
    (hnew : ∀ job, new = some job → P job) :
    ∀ r job, update jobs r₀ new r = some job → P job := by
  intro r job hjob
  by_cases hr : r = r₀
  · rw [hr, Function.update_self] at hjob
    exact hnew job hjob
  · rw [Function.update_of_ne hr] at hjob
    exact h r job hjob

/-- The answer of the node stores a validated job, one that waits for transactions, or none. -/
theorem finish_jobs {P : DeclaredCustomJob → Prop} {e : Engine} {now : Nat} {t : JdToken}
    {d : DeclareMiningJob} {retry : Bool} {previous : Option ValidationContext}
    {response : JdResponse} (h : ∀ r job, e.declaredCustomJobs r = some job → P job)
    (hvalid : ∀ ctx txids, response = .success ctx txids → P ⟨d, ctx, some txids, true⟩)
    (hpending : ∀ ctx, P ⟨d, ctx, none, false⟩) :
    ∀ r job, (e.finish now t d retry previous response).1.declaredCustomJobs r = some job →
      P job := by
  cases response with
  | success ctx txids =>
      refine jobs_update h fun job hjob => ?_
      rw [← Option.some.inj hjob]
      exact hvalid ctx txids rfl
  | error code ctx => exact jobs_update h (fun _ hnone => by cases hnone)
  | missingTransactions missing ctx =>
      simp only [Engine.finish]
      split
      · exact jobs_update h (fun _ hnone => by cases hnone)
      · refine jobs_update h fun job hjob => ?_
        rw [← Option.some.inj hjob]
        exact hpending ctx
  | channelClosed => exact h

theorem handleSetCustomMiningJob_jobs {P : DeclaredCustomJob → Prop} (hash : Bytes → Bytes)
    {e : Engine} (h : ∀ r job, e.declaredCustomJobs r = some job → P job) (m : SetCustomMiningJob)
    (t : JdToken) :
    ∀ r job, (e.handleSetCustomMiningJob hash m t).1.declaredCustomJobs r = some job → P job := by
  unfold Engine.handleSetCustomMiningJob
  split
  · exact h
  · split
    · exact h
    · exact jobs_update h (fun _ hnone => by cases hnone)

theorem janitor_jobs {P : DeclaredCustomJob → Prop} {xs : List (JdToken × RequestId)} {e : Engine}
    (h : ∀ r job, e.declaredCustomJobs r = some job → P job) :
    ∀ r job, (xs.foldl (fun e x => e.remove x.1 x.2) e).declaredCustomJobs r = some job →
      P job := by
  induction xs generalizing e with
  | nil => exact h
  | cons x xs ih => exact ih (jobs_update h (fun _ hnone => by cases hnone))

/-- What holds of the jobs of the engine, of the job an answer `success` makes, and of the ones that
wait for transactions, holds of the jobs after a step. -/
theorem jobs_step {P : DeclaredCustomJob → Prop} {hash : Bytes → Bytes}
    (h : ∀ r job, s.engine.declaredCustomJobs r = some job → P job) (e : Event)
    (hvalid : ∀ f ctx txids, s.inFlight = some f → e = .nodeAnswer (.success ctx txids) →
      P ⟨f.declaration, ctx, some txids, true⟩)
    (hpending : ∀ f ctx, s.inFlight = some f → P ⟨f.declaration, ctx, none, false⟩) :
    ∀ r job, (s.step hash e).engine.declaredCustomJobs r = some job → P job := by
  have hsame : ∀ {s' : Declarator}, s'.engine = s.engine →
      ∀ r job, s'.engine.declaredCustomJobs r = some job → P job := by
    intro s' hengine
    rw [hengine]
    exact h
  cases e with
  | advance secs => exact h
  | connect c =>
      simp only [Declarator.step]
      split <;> exact h
  | disconnect c => exact h
  | allocateMiningJobToken c r => exact hsame (jdpMessage_engine fun _ => rfl)
  | declareMiningJob c d =>
      exact hsame (jdpMessage_engine fun _ => handleDeclareMiningJob_engine c d)
  | provideMissingTransactionsSuccess c r =>
      exact hsame (jdpMessage_engine fun client =>
        handleProvideMissingTransactionsSuccess_engine c client r)
  | nodeAnswer response =>
      simp only [Declarator.step]
      split
      · exact h
      · rename_i f hf
        simp only [Declarator.handleNodeAnswer]
        rw [(settle_frame _ _ _).1]
        refine finish_jobs h (fun ctx txids hresponse => ?_) (fun ctx => hpending f ctx hf)
        exact hvalid f ctx txids hf (by rw [hresponse])
  | setCustomMiningJob m =>
      simp only [Declarator.step, Declarator.handleSetCustomMiningJob]
      split
      · exact h
      · split
        · exact h
        · exact handleSetCustomMiningJob_jobs hash h m _
  | tokenJanitor => exact h
  | engineJanitor => exact janitor_jobs h
  | pendingJanitor c =>
      simp only [Declarator.step, Declarator.pendingJanitor]
      split <;> exact h

/-! Then the validation in flight: it is one that was there, or of a declaration that passed the
checks before the node. -/

section InFlight

variable {f : InFlight}

theorem jdpMessage_inFlight {c : DownstreamId} {handler : Client → Declarator}
    (hhandler : ∀ client, (handler client).inFlight = some f →
      s.inFlight = some f ∨ Prechecked f.declaration)
    (h : (s.jdpMessage c handler).inFlight = some f) :
    s.inFlight = some f ∨ Prechecked f.declaration := by
  unfold Declarator.jdpMessage at h
  split at h
  · split at h
    · exact .inl h
    · exact hhandler _ h
  · exact .inl h

theorem startValidation_inFlight {c : DownstreamId} {t : JdToken} {d : DeclareMiningJob}
    {retry : Bool} (h : (s.startValidation c t d retry).inFlight = some f) :
    s.inFlight = some f ∨ Prechecked f.declaration := by
  unfold Declarator.startValidation at h
  split at h
  · exact .inl h
  · exact .inl h
  · rename_i hpre
    obtain rfl := Option.some.inj h
    exact .inr (precheck_eq_none hpre)

theorem handleDeclareMiningJob_inFlight {c : DownstreamId} {d : DeclareMiningJob}
    (h : (s.handleDeclareMiningJob c d).inFlight = some f) :
    s.inFlight = some f ∨ Prechecked f.declaration := by
  unfold Declarator.handleDeclareMiningJob at h
  split at h
  · exact .inl h
  · split at h
    · exact startValidation_inFlight h
    · exact .inl h

theorem handleProvideMissingTransactionsSuccess_inFlight {c : DownstreamId} {client : Client}
    {r : RequestId} (h : (s.handleProvideMissingTransactionsSuccess c client r).inFlight = some f) :
    s.inFlight = some f ∨ Prechecked f.declaration := by
  unfold Declarator.handleProvideMissingTransactionsSuccess at h
  split at h
  · exact .inl h
  · dsimp only at h
    split at h
    · exact .inl h
    · rcases startValidation_inFlight h with hold | hpre
      · exact .inl hold
      · exact .inr hpre

/-- The declaration in flight after a step was there before, or has passed the checks. -/
theorem inFlight_step {hash : Bytes → Bytes} {e : Event} (h : (s.step hash e).inFlight = some f) :
    s.inFlight = some f ∨ Prechecked f.declaration := by
  cases e with
  | advance secs => exact .inl h
  | connect c =>
      simp only [Declarator.step] at h
      split at h <;> exact .inl h
  | disconnect c => exact .inl h
  | allocateMiningJobToken c r =>
      simp only [Declarator.step] at h
      refine jdpMessage_inFlight ?_ h
      exact fun _ => .inl
  | declareMiningJob c d => exact jdpMessage_inFlight (fun _ => handleDeclareMiningJob_inFlight) h
  | provideMissingTransactionsSuccess c r =>
      exact jdpMessage_inFlight (fun _ => handleProvideMissingTransactionsSuccess_inFlight) h
  | nodeAnswer response =>
      simp only [Declarator.step] at h
      split at h
      · exact .inl h
      · -- the answer ends the validation
        simp only [Declarator.handleNodeAnswer] at h
        rw [(settle_frame _ _ _).2] at h
        cases h
  | setCustomMiningJob m =>
      simp only [Declarator.step, Declarator.handleSetCustomMiningJob] at h
      split at h
      · exact .inl h
      · split at h <;> exact .inl h
  | tokenJanitor => exact .inl h
  | engineJanitor => exact .inl h
  | pendingJanitor c =>
      simp only [Declarator.step, Declarator.pendingJanitor] at h
      split at h <;> exact .inl h

end InFlight

theorem stored_step {hash : Bytes → Bytes} (h : Stored s) (e : Event) : Stored (s.step hash e) where
  jobs := jobs_step h.jobs e (fun f _ _ hf _ => ⟨h.inFlight f hf, fun _ => rfl⟩)
    (fun f _ hf => ⟨h.inFlight f hf, fun hfalse => by cases hfalse⟩)
  inFlight f hf := (inFlight_step hf).elim (h.inFlight f) id

theorem stored_initial (script : Bytes) : Stored (Declarator.initial script) where
  jobs := by
    intro r job h
    cases h
  inFlight := by
    intro f h
    cases h

theorem stored_exec (hash : Bytes → Bytes) (script : Bytes) (es : List Event) :
    Stored (exec (step hash) (Declarator.initial script) es) :=
  exec_invariant (I := Stored) (fun _ e h => stored_step h e) (stored_initial script) es

end Stored

/-! ### The result -/

/-- The engine answers with success only after comparing with the stored job. -/
theorem handleSetCustomMiningJob_ok {hash : Bytes → Bytes} {e : Engine} {m : SetCustomMiningJob}
    {t : JdToken} (h : (e.handleSetCustomMiningJob hash m t).2 = .ok ()) :
    ∃ entry job, e.allocatedTokenEntries.lookup t = some entry ∧
      e.declaredCustomJobs entry.requestId = some job ∧ checkCustomJob hash job m = .ok () := by
  unfold Engine.handleSetCustomMiningJob at h
  split at h
  · cases h
  · rename_i entry hentry
    split at h
    · cases h
    · rename_i job hjob
      exact ⟨entry, job, hentry, hjob, h⟩

theorem checkCustomJob_validated {hash : Bytes → Bytes} {job : DeclaredCustomJob}
    {m : SetCustomMiningJob} (h : checkCustomJob hash job m = .ok ()) : job.validated = true := by
  unfold checkCustomJob at h
  exact (ensure_bind_eq_ok.mp h).1

/-- Whenever the engine, in any state the declarator reaches, answers a `SetCustomMiningJob` with
success: the coinbases of the job differ from the one of the stored declaration in the extranonce
alone **exactly** when `coinbase_prefix` and the full extranonce together are as long as the
declared script signature. -/
theorem success_agrees_iff {hash : Bytes → Bytes} {script : Bytes} {es : List Event}
    {m : SetCustomMiningJob} {t : JdToken}
    (h : ((exec (step hash) (Declarator.initial script) es).engine.handleSetCustomMiningJob hash m
      t).2 = .ok ()) :
    ∃ entry job tx input,
      (exec (step hash) (Declarator.initial script) es).engine.allocatedTokenEntries.lookup t =
          some entry ∧
      (exec (step hash) (Declarator.initial script) es).engine.declaredCustomJobs entry.requestId =
          some job ∧
      getCoinbaseTx job.declareMiningJob = .ok tx ∧ tx.input = [input] ∧
      (OnlyExtranonceDiffers tx input (fullExtranonceSize job.declareMiningJob) m ↔
        m.coinbasePrefix.length + fullExtranonceSize job.declareMiningJob =
          input.scriptSig.length) := by
  obtain ⟨entry, job, hentry, hjob, hcheck⟩ := handleSetCustomMiningJob_ok h
  obtain ⟨⟨tx, input, htx, hinput⟩, htxids⟩ := (stored_exec hash script es).jobs _ _ hjob
  have hvalidated := checkCustomJob_validated hcheck
  have hv : Validated job tx input := ⟨hvalidated, htx, hinput, htxids hvalidated⟩
  have hagrees := (checkCustomJob_eq_ok hv m).mp hcheck
  exact ⟨entry, job, tx, input, hentry, hjob, htx, hinput, hagrees.onlyExtranonceDiffers_iff⟩

/-- For a declared coinbase with witness flag: the prefix must be the whole part of the script
signature that the declaration fixed. -/
theorem prefix_length_of_flagged {d : DeclareMiningJob} {tx : Transaction} {input : TxIn}
    {version outpoint part : Bytes} {size : Nat} (hversion : version.length = 4)
    (houtpoint : outpoint.length = 36) (hsize : size < 2 ^ 64)
    (hpre : d.coinbaseTxPrefix = flaggedStart version outpoint size ++ part)
    (htx : getCoinbaseTx d = .ok tx) (hinput : tx.input = [input]) (m : SetCustomMiningJob) :
    m.coinbasePrefix.length + fullExtranonceSize d = input.scriptSig.length ↔
      m.coinbasePrefix.length = part.length := by
  rw [scriptSig_of_flagged hversion houtpoint hsize hpre htx hinput, List.length_append,
    List.length_replicate]
  omega

/-- One client declares a job with token 0 and gets active token 1. -/
def oneDeclaration : List Event :=
  [.connect 1, .allocateMiningJobToken 1 1, .declareMiningJob 1 (sampleDeclaration 5 0 [0x51]),
    .nodeAnswer (.success sampleContext [])]

/-- The declared coinbase of the sample and its input. -/
def sampleInput : TxIn where
  previousOutput := List.replicate 32 0 ++ List.replicate 4 0xff
  scriptSig := [0x03, 0x40, 0x0d, 0x03] ++ List.replicate 8 0
  sequence := 0xffffffff
  witness := [List.replicate 32 0]

def sampleCoinbase : Transaction where
  version := 2
  input := [sampleInput]
  output := [⟨5000000000, [0x51]⟩]
  lockTime := 0

/-- A prefix of the whole script signature up to the extranonce. -/
theorem sample_success_agrees :
    OnlyExtranonceDiffers sampleCoinbase sampleInput 8 (sampleCustomJob 1) := by
  have hok : ((exec (step Sha256.digestTwice) (Declarator.initial [0x51])
      oneDeclaration).engine.handleSetCustomMiningJob Sha256.digestTwice (sampleCustomJob 1) 0).2 =
        .ok () := by decide +kernel
  obtain ⟨entry, job, tx, input, hentry, hjob, htx, hinput, hiff⟩ := success_agrees_iff hok
  obtain rfl : entry = ⟨5, 0⟩ := Option.some.inj (hentry.symm.trans (by decide +kernel))
  obtain rfl : job = sampleIssued.job := Option.some.inj (hjob.symm.trans (by decide +kernel))
  obtain rfl : tx = sampleCoinbase := Except.ok.inj (htx.symm.trans (by decide +kernel))
  obtain rfl : input = sampleInput := (List.head_eq_of_cons_eq hinput).symm
  have hsize : fullExtranonceSize sampleIssued.job.declareMiningJob = 8 := by decide +kernel
  rw [hsize] at hiff
  exact hiff.mpr (by decide +kernel)

/-- A custom job whose prefix lacks the block height the declared script signature starts with. -/
def heightlessJob : SetCustomMiningJob :=
  { sampleCustomJob 1 with coinbasePrefix := [] }

/-- The empty prefix is accepted, and the coinbase of the job has no height. -/
theorem heightless_job_accepted :
    getCoinbaseTx (sampleDeclaration 5 0 [0x51]) = .ok sampleCoinbase ∧
      fullExtranonceSize (sampleDeclaration 5 0 [0x51]) = 8 ∧
      (exec (step Sha256.digestTwice) (Declarator.initial [0x51])
        oneDeclaration).engine.declaredCustomJobs 5 = some sampleIssued.job ∧
      ((exec (step Sha256.digestTwice) (Declarator.initial [0x51])
        oneDeclaration).engine.handleSetCustomMiningJob Sha256.digestTwice heightlessJob 0).2 =
          .ok () ∧
      ¬OnlyExtranonceDiffers sampleCoinbase sampleInput 8 heightlessJob := by
  refine ⟨by decide +kernel, by decide +kernel, by decide +kernel, by decide +kernel, ?_⟩
  intro h
  have := h.bytes (List.replicate 8 0) rfl
  revert this
  decide +kernel

end GridPoolSv2.JobDeclarator
