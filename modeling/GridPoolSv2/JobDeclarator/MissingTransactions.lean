import GridPoolSv2.JobDeclarator.CoinbaseAgreement
import GridPoolSv2.JobDeclarator.DeclarationRounds
import GridPoolSv2.Lib.Sha256

/-!
# JobDeclarator.MissingTransactions: when a retry misses transactions again

A client that is asked for missing transactions sends the ones at the listed positions, and
the declaration is validated once more. It can still miss transactions, because the mirror
is cleared when the tip changes. The engine compares the context of the first round with the
one of the retry to tell the client that its job is stale, but it finds the first context
under the `request_id` alone, where a declaration of **another client** may stand by then.

`retry_answered_iff` says when a retry is answered with `missing-txs`, and that it is not as
long as the tip has not changed.
-/

namespace GridPoolSv2.JobDeclarator

open Runs
open Consensus (Bytes Transaction)

namespace Jds

/-! ### The client's answer

The positions refer to the declared list, so a client that answers what it was asked provides
exactly the missing transactions. -/

/-- `handle_provide_missing_transactions` of the client: the transactions at the listed
positions. -/
def provideMissingTransactions (txList : List Bytes) (unknownTxPositionList : List Nat) :
    List Bytes :=
  unknownTxPositionList.filterMap (txList[·]?)

/-- The transactions from which the client computed the declared list. -/
def Lists (hash : Bytes → Bytes) (txList : List Bytes) (d : DeclareMiningJob) : Prop :=
  List.Forall₂ (fun raw w => ∃ tx, Transaction.deserialize raw = some tx ∧
    hash tx.encode = w) txList d.wtxidList

/-- The client answers with the transactions at the positions it was asked for. -/
def Answers (hash : Bytes → Bytes) (first : FirstRound) (transactionList : List Bytes) : Prop :=
  ∃ txList, Lists hash txList first.declaration ∧ transactionList =
    provideMissingTransactions txList
      (Declarator.unknownTxPositions first.declaration first.missing)

/-- Every missing transaction is among the provided ones. The message bounds the length of the list,
so that positions fit in a `u16`. -/
theorem Answers.provides {hash : Bytes → Bytes} {first : FirstRound} {transactionList : List Bytes}
    (h : Answers hash first transactionList) (hlen : first.declaration.wtxidList.length < 2 ^ 16)
    {w : Bytes} (hw : w ∈ first.missing) :
    ∃ raw ∈ transactionList, ∃ tx rest, Transaction.decode raw = some (tx, rest) ∧
      hash tx.encode = w := by
  obtain ⟨txList, hlists, rfl⟩ := h
  have hmem := (MempoolMirror.mem_verify.mp hw).1
  -- the position is the one of the first entry with this hash
  cases hidx : first.declaration.wtxidList.findIdx? (· = w) with
  | none =>
      have hnone := List.findIdx?_eq_none_iff.mp hidx w hmem
      simp at hnone
  | some i =>
      obtain ⟨hi, hget, -⟩ := List.findIdx?_eq_some_iff_getElem.mp hidx
      obtain ⟨hlength, hall⟩ := List.forall₂_iff_get.mp hlists
      have hi' : i < txList.length := hlength ▸ hi
      obtain ⟨tx, hdec, hhash⟩ := hall i hi' hi
      refine ⟨txList[i], ?_, tx, [], Transaction.decode_of_deserialize hdec, ?_⟩
      · refine List.mem_filterMap.mpr ⟨i, ?_, List.getElem?_eq_getElem hi'⟩
        refine List.mem_filterMap.mpr ⟨w, hw, ?_⟩
        rw [hidx, Option.map_some, Nat.mod_eq_of_lt (Nat.lt_trans hi hlen)]
      · rw [hhash]
        simpa using hget

/-! ### The reply to a retry

Three things decide: the sample the retry is compared with, the context the engine finds under the
request id, and whether they differ. -/

/-- The answer in flight makes the engine reply with `missing-txs`. -/
def RepliesMissing (hash : Bytes → Bytes) (s : Jds) (f : InFlight) : Prop :=
  (s.step hash .deliver).declarator.outbox =
    (f.client, .declareMiningJobError f.declaration.requestId .missingTxs) :: s.declarator.outbox

/-- The engine finds that the tip has changed since the context it remembers. -/
def Noticed (f : InFlight) (initial : MempoolMirror) : Prop :=
  ∃ previous ∈ f.previous, previous ≠ initial.context

/-- What the first round found is still there. -/
def Kept (first : FirstRound) (initial : MempoolMirror) : Prop :=
  ∀ w ∈ first.declaration.wtxidList, w ∉ first.missing → initial.Has w

/-- The context found is another one than that of the retry. -/
theorem any_drifted_iff {previous : Option ValidationContext} {ctx : ValidationContext} :
    previous.any (validationContextDrifted · ctx) = true ↔ ∃ q ∈ previous, q ≠ ctx := by
  cases previous with
  | none => simp
  | some q => simp [validationContextDrifted_iff]

/-- A retry is answered with `missing-txs` if the node misses transactions and no change is
noticed. -/
theorem retry_outbox_iff {s : Declarator} {f : InFlight} (hretry : f.retry = true)
    (response : JdResponse) :
    (s.handleNodeAnswer f response).outbox =
        (f.client, .declareMiningJobError f.declaration.requestId .missingTxs) :: s.outbox ↔
      ∃ missing ctx, response = .missingTransactions missing ctx ∧
        ¬f.previous.any (validationContextDrifted · ctx) := by
  cases response with
  | success ctx txids =>
      simp [Declarator.handleNodeAnswer, Engine.finish, Declarator.settle, Declarator.reply]
  | error code ctx =>
      simp only [Declarator.handleNodeAnswer, Engine.finish, Declarator.settle, Declarator.reply]
      split <;> simp
  | missingTransactions missing ctx =>
      simp only [Declarator.handleNodeAnswer, Engine.finish, hretry, Bool.true_and]
      by_cases hdrift : f.previous.any (validationContextDrifted · ctx) = true
      · rw [if_pos hdrift]
        simp [Declarator.settle, Declarator.reply, hdrift]
      · rw [if_neg hdrift]
        simp [Declarator.settle, Declarator.reply, hretry, hdrift]
  | channelClosed =>
      simp [Declarator.handleNodeAnswer, Engine.finish, Declarator.settle, Declarator.reply]

/-- The first round asks for the transactions it did not find. -/
theorem deliver_first {hash : Bytes → Bytes} {s : Jds} {f : InFlight} (hretry : f.retry = false)
    {client : Client} (hclient : s.declarator.clients f.client = some client)
    (initial : MempoolMirror) :
    ∃ first, (s.deliver hash f (.missingTransactions initial)).firstRounds
        (f.client, f.declaration.requestId) = some first ∧
      (s.deliver hash f (.missingTransactions initial)).declarator.outbox =
        (f.client, .provideMissingTransactions f.declaration.requestId
          (Declarator.unknownTxPositions first.declaration first.missing)) ::
          s.declarator.outbox := by
  refine ⟨_, roundsAfter_first hretry initial, ?_⟩
  simp [Jds.deliver, Declarator.handleNodeAnswer, NodeAnswer.response, Engine.finish, hretry,
    Declarator.settle, hclient, Declarator.reply, FirstRound.missing]

section Retry

variable {hash : Bytes → Bytes} {s : Jds} {f : InFlight} {answer : NodeAnswer}

/-- A retry is answered with `missing-txs` exactly if transactions are missing and no change is
noticed. -/
theorem repliesMissing_iff (hf : s.declarator.inFlight = some f)
    (hphase : s.phase = .answered answer) (hretry : f.retry = true) :
    RepliesMissing hash s f ↔
      ∃ initial, answer = .missingTransactions initial ∧ ¬Noticed f initial := by
  have hstep : s.step hash .deliver = s.deliver hash f answer := by
    unfold Jds.step
    rw [hf, hphase]
  unfold RepliesMissing
  rw [hstep]
  refine (retry_outbox_iff hretry _).trans ?_
  constructor
  · rintro ⟨missing, ctx, hresponse, hsame⟩
    obtain ⟨initial, rfl⟩ := response_eq_missingTransactions hresponse
    injection hresponse with _ hctx
    refine ⟨initial, rfl, ?_⟩
    rw [any_drifted_iff, ← hctx] at hsame
    exact hsame
  · rintro ⟨initial, rfl, hsame⟩
    exact ⟨_, initial.context, rfl, any_drifted_iff.not.mpr hsame⟩

/-- With the provided transactions, only those the first round had found can be missing. -/
theorem Sampled.verify_eq_nil_iff {initial : MempoolMirror} (hs : Sampled hash s initial)
    {first : FirstRound} (hlen : first.declaration.wtxidList.length < 2 ^ 16)
    (hanswers : Answers hash first s.transactionList) :
    initial.verify first.declaration.wtxidList = [] ↔ Kept first initial := by
  rw [MempoolMirror.verify_eq_nil]
  constructor
  · exact fun h w hw _ => h w hw
  · intro hkept w hw
    by_cases hmissing : w ∈ first.missing
    · obtain ⟨raw, hraw, tx, rest, hdec, rfl⟩ := hanswers.provides hlen hmissing
      exact hs.provided raw hraw tx rest hdec
    · exact hkept w hw hmissing

/-- The mirror keeps what it has until the tip changes. -/
theorem Sampled.keeps {initial : MempoolMirror} (hs : Sampled hash s initial)
    {k : DownstreamId × RequestId} {first : FirstRound} (hfirst : s.firstRounds k = some first)
    (htip : first.tipChanges = s.sampledAt) : Kept first initial :=
  fun w hw hfound => ((hs.first k first hfirst).2 htip w hw).resolve_left hfound

end Retry

/-! ### Two runs

In the first the client provides one of two missing transactions, and the retry succeeds on the same
tip. In the second another client declares under the same request id while the tip changes. -/

/-- A transaction of a block. -/
def samplePayment (lockTime : Nat) : Transaction where
  version := 2
  input := [⟨List.replicate 36 1, [], 0xfffffffe, []⟩]
  output := [⟨1000, [0x51]⟩]
  lockTime := lockTime

def sampleTemplate (tip : UInt8) (transactions : List Transaction) : Template where
  prevHash := List.replicate 32 tip
  bits := 0x207fffff
  time := 1700000000
  coinbase := sampleCoinbase
  transactions := transactions

/-- A declaration of two payments. -/
def samplePayments (requestId : RequestId) (token : JdToken) : DeclareMiningJob :=
  { sampleDeclaration requestId token [0x51] with
    wtxidList := [Sha256.digestTwice (samplePayment 1).encode,
      Sha256.digestTwice (samplePayment 2).encode] }

/-- The client is asked for its second payment, and provides it on the same tip. -/
def oneRetry : List Event :=
  [.message (.connect 1), .message (.allocateMiningJobToken 1 1),
    .message (.declareMiningJob 1 (samplePayments 5 0)), .processRequest, .deliver,
    .provide 1 5 [(samplePayment 2).encode], .processRequest, .checkBlock .accepted]

/-- Between the rounds the tip changes, and another client declares under the same `request_id`. -/
def hiddenTipChange : List Event :=
  [.message (.connect 1), .message (.connect 2), .message (.allocateMiningJobToken 1 1),
    .message (.allocateMiningJobToken 2 1), .message (.declareMiningJob 1 (samplePayments 5 0)),
    .processRequest, .deliver, .templateUpdate (sampleTemplate 8 []),
    .message (.declareMiningJob 2 (sampleDeclaration 5 1 [0x51])), .processRequest,
    .checkBlock .accepted, .deliver, .provide 1 5 [(samplePayment 2).encode], .processRequest]

def sampleRetry (tip : UInt8) : InFlight where
  client := 1
  declaration := samplePayments 5 0
  token := 0
  retry := true
  previous := some ⟨List.replicate 32 tip, 0x207fffff, 1700000000⟩

theorem samplePayments_listed :
    Lists Sha256.digestTwice [(samplePayment 1).encode, (samplePayment 2).encode]
      (samplePayments 5 0) :=
  .cons ⟨samplePayment 1, by decide +kernel, rfl⟩
    (.cons ⟨samplePayment 2, by decide +kernel, rfl⟩ .nil)

/-- The retry of both runs has been answered; its first round asked for the second payment. -/
def SampleRetried (s : Jds) (tip : UInt8) (sampledAt : Nat) : Prop :=
  s.declarator.inFlight = some (sampleRetry tip) ∧ s.phase.isAnswered = true ∧
    (s.firstRounds (1, 5)).map (fun first => (first.declaration, first.missing, first.tipChanges)) =
      some (samplePayments 5 0, [Sha256.digestTwice (samplePayment 2).encode], 0) ∧
    s.transactionList = [(samplePayment 2).encode] ∧ s.sampledAt = sampledAt

instance (s : Jds) (tip : UInt8) (sampledAt : Nat) : Decidable (SampleRetried s tip sampledAt) :=
  inferInstanceAs (Decidable (_ ∧ _))

theorem retried_on_the_same_tip :
    SampleRetried (reached Sha256.digestTwice [0x51] (sampleTemplate 9 [samplePayment 1]) oneRetry)
      9 0 := by
  decide +kernel

theorem retried_on_another_tip :
    SampleRetried
      (reached Sha256.digestTwice [0x51] (sampleTemplate 9 [samplePayment 1]) hiddenTipChange)
      8 1 := by
  decide +kernel

/-- The client of both runs answers as it was asked. -/
theorem SampleRetried.answers {s : Jds} {tip : UInt8} {sampledAt : Nat}
    (h : SampleRetried s tip sampledAt) {k : DownstreamId × RequestId}
    {first : FirstRound} (hfirst : s.firstRounds k = some first) (hk : k = (1, 5)) :
    first.declaration = samplePayments 5 0 ∧ first.tipChanges = 0 ∧
      Answers Sha256.digestTwice first s.transactionList := by
  obtain ⟨-, -, hround, hlist, -⟩ := h
  rw [← hk, hfirst, Option.map_some] at hround
  simp only [Option.some.injEq, Prod.mk.injEq] at hround
  obtain ⟨hdeclaration, hmissing, htip⟩ := hround
  refine ⟨hdeclaration, htip, _, hdeclaration ▸ samplePayments_listed, ?_⟩
  rw [hlist, hdeclaration, hmissing]
  decide +kernel

/-! ### The result -/

/-- **When a retry with the transactions that were asked for is answered with `missing-txs`**, in
any run, with any messages of other clients and any templates: when a transaction that the first
round had found is gone and the engine does not notice that the tip has changed. While it has not
changed, every transaction is found. -/
theorem retry_answered_iff (hash : Bytes → Bytes) (script : Bytes) (t : Template) (es : List Event)
    {f : InFlight} {answer : NodeAnswer}
    (hf : (reached hash script t es).declarator.inFlight = some f) (hretry : f.retry = true)
    (hphase : (reached hash script t es).phase = .answered answer)
    (hlen : f.declaration.wtxidList.length < 2 ^ 16)
    (hanswers : ∀ first,
      (reached hash script t es).firstRounds (f.client, f.declaration.requestId) = some first →
        Answers hash first (reached hash script t es).transactionList) :
    ∃ first,
      (reached hash script t es).firstRounds (f.client, f.declaration.requestId) = some first ∧
      first.declaration = f.declaration ∧
      (¬RepliesMissing hash (reached hash script t es) f ↔
        ∀ initial ∈ answer.initial?, Kept first initial ∨ Noticed f initial) ∧
      (first.tipChanges = (reached hash script t es).sampledAt →
        ∀ initial ∈ answer.initial?, initial.verify f.declaration.wtxidList = []) := by
  have hrounds := rounds_reached hash script t es
  obtain ⟨first, hfirst, hsame⟩ := hrounds.retry f hf hretry
  refine ⟨first, hfirst, hsame, ?_⟩
  have hprovided := hanswers first hfirst
  rw [← hsame] at hlen
  -- the sample misses a transaction exactly when one that was found is gone
  have hgone : ∀ initial ∈ answer.initial?,
      (initial.verify f.declaration.wtxidList = [] ↔ Kept first initial) := by
    intro initial hinitial
    have hs := hrounds.sampled initial (by rw [hphase]; exact hinitial)
    rw [← hsame]
    exact hs.verify_eq_nil_iff hlen hprovided
  constructor
  · rw [repliesMissing_iff hf hphase hretry]
    constructor
    · intro hnot initial hinitial
      by_contra hneither
      obtain ⟨hlost, hunnoticed⟩ := not_or.mp hneither
      have hs := hrounds.sampled initial (by rw [hphase]; exact hinitial)
      have hmissing := (hs.found f hf).mpr (mt (hgone initial hinitial).mp hlost)
      rw [hphase] at hmissing
      exact hnot ⟨initial, NodePhase.answered.inj hmissing, hunnoticed⟩
    · rintro hall ⟨initial, rfl, hunnoticed⟩
      have hs := hrounds.sampled initial (by rw [hphase]; rfl)
      have hkept := (hall initial rfl).resolve_right hunnoticed
      exact (hs.found f hf).mp hphase ((hgone initial rfl).mpr hkept)
  · intro htip initial hinitial
    have hs := hrounds.sampled initial (by rw [hphase]; exact hinitial)
    exact (hgone initial hinitial).mpr (hs.keeps hfirst htip)

theorem retry_on_the_same_tip :
    ¬RepliesMissing Sha256.digestTwice
      (reached Sha256.digestTwice [0x51] (sampleTemplate 9 [samplePayment 1]) oneRetry)
      (sampleRetry 9) := by
  have hrun := retried_on_the_same_tip
  obtain ⟨answer, hanswer⟩ := NodePhase.exists_answer hrun.2.1
  obtain ⟨first, hfirst, hsame, hiff, hfound⟩ :=
    retry_answered_iff Sha256.digestTwice [0x51] (sampleTemplate 9 [samplePayment 1]) oneRetry
      (f := sampleRetry 9) hrun.1 rfl hanswer (by decide)
      fun _ hfirst => (hrun.answers hfirst rfl).2.2
  have htip := (hrun.answers hfirst rfl).2.1.trans hrun.2.2.2.2.symm
  rw [hiff]
  intro initial hinitial
  refine .inl fun w hw _ => ?_
  rw [hsame] at hw
  exact MempoolMirror.verify_eq_nil.mp (hfound htip initial hinitial) w hw

/-- The first payment went with the tip; the context of the other client is the current one. -/
theorem other_client_hides_tip_change :
    let s := reached Sha256.digestTwice [0x51] (sampleTemplate 9 [samplePayment 1]) hiddenTipChange
    s.declarator.inFlight = some (sampleRetry 8) ∧
      (∃ first, s.firstRounds (1, 5) = some first ∧ first.declaration = samplePayments 5 0 ∧
        Answers Sha256.digestTwice first s.transactionList ∧ first.tipChanges < s.sampledAt) ∧
      RepliesMissing Sha256.digestTwice s (sampleRetry 8) := by
  have hrun := retried_on_another_tip
  refine ⟨hrun.1, ?_, by unfold RepliesMissing; decide +kernel⟩
  obtain ⟨first, hfirst, -⟩ := Option.map_eq_some_iff.mp hrun.2.2.1
  obtain ⟨hsame, htip, hanswers⟩ := hrun.answers hfirst rfl
  refine ⟨first, hfirst, hsame, hanswers, ?_⟩
  rw [htip, hrun.2.2.2.2]
  decide

end Jds

end GridPoolSv2.JobDeclarator
