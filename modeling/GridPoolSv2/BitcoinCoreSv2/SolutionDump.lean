import GridPoolSv2.BitcoinCoreSv2.TemplateStream
import GridPoolSv2.Lib.Retention
import GridPoolSv2.Pool.MerklePath
import GridPoolSv2.Pool.ShareProof

/-!
# BitcoinCoreSv2.SolutionDump: the blocks that are written for solutions

`submit_solution` spawns a task that writes the solved block to disk (`dump_solution_to_disk`), and
hands the solution to Bitcoin Core. The task has a copy of the template, checks the solution against
it and asks Bitcoin Core for the transactions. By the time it has them the server may have removed
the template, and published others.

* `Dump` is one of these tasks: `Dump.header` is what it does before the request, `Dump.block` the
  rest.
* `step_templates` says what an event of the server does to the templates and to the messages about
  them: nothing is added, or one template under a new id, with its own messages.
* `Known` is what holds of a template from then on, also when it is removed.
* `Job` is what a client makes of the messages. `files_solve` compares the blocks with it.

`getBlock` is trusted for one thing (`Honest`): the coinbase merkle path of the template is that of
the transactions of its block.

The block is compared with the messages and not with the stored template, because the task may
outlive it: `Known` is kept by every event once the template is stored, `Spawned` ties the copy
of a task to it, and `Built` reads off that the header is the one the client hashed.

Proof shape: the templates are known by their ids, a task has a copy of the one it was started
for, and a file is what such a task makes of its copy and the node's answer. The three
invariants are about these three things, and each is used once.
-/

namespace GridPoolSv2.BitcoinCoreSv2

open Consensus (Bytes Transaction leNat)
open Payout (Text)
open Sha256 (digestTwice)

/-! ### The dump task

The checks are those of `dump_solution_to_disk` in its order. A task that fails one of them writes
nothing. -/

/-- A task of `dump_solution_to_disk`, with its copy of the template. -/
structure Dump where
  template : TemplateData
  solutionCoinbaseTx : Transaction
  solution : SubmitSolution
  deriving Repr, DecidableEq

/-- The witness `getCoinbaseTx` gave for a template, and `validate_pow` against the target of the
header itself. -/
structure DumpEnv where
  witness : TemplateId → List Bytes
  validatePow : Pool.Header → Bool

namespace Dump

/-- The solved coinbase is congruent with the original one. -/
def congruent (env : DumpEnv) (p : Dump) : Bool :=
  match p.solutionCoinbaseTx.input with
  | [input] =>
      p.solutionCoinbaseTx.version == p.template.coinbaseTx.version.toUInt32.toNat &&
        p.solutionCoinbaseTx.lockTime == p.template.coinbaseTx.lockTime.toNat &&
        input.sequence == p.template.coinbaseTx.sequence.toNat &&
        input.witness == env.witness p.template.templateId &&
        input.previousOutput == Pool.nullOutpoint
  | _ => false

def solutionHeader (p : Dump) : Pool.Header where
  version := p.solution.version
  prevBlockhash := p.template.header.prevBlockhash
  merkleRoot := Pool.applyMerklePath digestTwice (digestTwice p.solutionCoinbaseTx.encodeBase)
    p.template.merklePath
  time := p.solution.headerTimestamp
  bits := p.template.header.bits
  nonce := p.solution.headerNonce

/-- The header of a solution that is validated. -/
def header (env : DumpEnv) (p : Dump) : Option Pool.Header :=
  if p.congruent env && env.validatePow p.solutionHeader then some p.solutionHeader else none

/-- The block, once `getBlock` was answered. A request that fails ends the task, and so does a block
without transactions. -/
def block (env : DumpEnv) (p : Dump) (answer : Option Pool.Block) : Option Pool.Block :=
  match p.header env, answer with
  | some solutionHeader, some ⟨_, _ :: txdata⟩ =>
      some ⟨solutionHeader, p.solutionCoinbaseTx :: txdata⟩
  | _, _ => none

/-- A task gets past the proof of work only with the header of its solution. -/
theorem header_eq_some {env : DumpEnv} {p : Dump} {h : Pool.Header} (hh : p.header env = some h) :
    p.congruent env = true ∧ env.validatePow h = true ∧ h = p.solutionHeader := by
  unfold header at hh
  split at hh
  case isTrue hvalid =>
    rw [Bool.and_eq_true] at hvalid
    obtain rfl := Option.some.inj hh
    exact ⟨hvalid.1, hvalid.2, rfl⟩
  case isFalse => cases hh

/-- The block on disk has the header of the solution, the coinbase of the solution, and the other
transactions of the node's answer. -/
theorem block_eq_some {env : DumpEnv} {p : Dump} {answer : Option Pool.Block} {b : Pool.Block}
    (h : p.block env answer = some b) :
    p.header env = some b.header ∧ ∃ header first txdata, answer = some ⟨header, first :: txdata⟩ ∧
      b.txdata = p.solutionCoinbaseTx :: txdata := by
  unfold block at h
  split at h
  · rename_i header first txdata hheader
    obtain rfl := Option.some.inj h
    exact ⟨hheader, _, first, txdata, rfl, rfl⟩
  · cases h

/-- What a congruent coinbase has in common with the original one. -/
theorem congruent_fields {env : DumpEnv} {p : Dump} (h : p.congruent env = true) :
    p.solutionCoinbaseTx.version = p.template.coinbaseTx.version.toUInt32.toNat ∧
      p.solutionCoinbaseTx.lockTime = p.template.coinbaseTx.lockTime.toNat ∧
      ∃ input, p.solutionCoinbaseTx.input = [input] ∧
        input.sequence = p.template.coinbaseTx.sequence.toNat := by
  unfold congruent at h
  split at h
  · rename_i input hinput
    simp only [Bool.and_eq_true, beq_iff_eq] at h
    obtain ⟨⟨⟨⟨hversion, hlock⟩, hsequence⟩, -⟩, -⟩ := h
    exact ⟨hversion, hlock, input, hinput, hsequence⟩
  · cases h

end Dump

/-! ### Templates and their messages

`Sends` says which messages a stored template accounts for. Everything a client learns of a template
is in them. -/

/-- The template a template message is about. -/
def TemplateDistribution.templateId? : TemplateDistribution → Option TemplateId
  | .newTemplate t => some t.templateId
  | .setNewPrevHash m => some m.templateId
  | .requestTransactionDataSuccess .. | .requestTransactionDataError .. => none

namespace TemplateData

/-- The messages about a template. -/
def Sends (d : TemplateData) (m : TemplateDistribution) : Prop :=
  (∃ f t, m = .newTemplate t ∧ d.getNewTemplateMessage f = .ok t) ∨
    m = .setNewPrevHash d.getSetNewPrevHashMessage

/-- The message is under the id of the template. -/
theorem Sends.templateId {d : TemplateData} {m : TemplateDistribution} (h : d.Sends m) :
    m.templateId? = some d.templateId := by
  obtain ⟨f, t, rfl, ht⟩ | rfl := h
  · exact congrArg some (getNewTemplateMessage_ok ht).1
  · rfl

theorem Sends.setNewPrevHash {d : TemplateData} {m : SetNewPrevHash}
    (h : d.Sends (.setNewPrevHash m)) : m = d.getSetNewPrevHashMessage := by
  obtain ⟨f, t, heq, -⟩ | heq := h
  · cases heq
  · exact TemplateDistribution.setNewPrevHash.inj heq

/-- A `NewTemplate` of a template may announce it as a future one or not. -/
theorem Sends.newTemplate {d : TemplateData} {t : NewTemplate} (h : d.Sends (.newTemplate t)) :
    ∃ f, d.getNewTemplateMessage f = .ok t := by
  obtain ⟨f, t', heq, ht⟩ | heq := h
  · obtain rfl := TemplateDistribution.newTemplate.inj heq
    exact ⟨f, ht⟩
  · cases heq

theorem toU32_eq_some {v : Int32} {u : UInt32} (h : toU32 v = some u) : u = v.toUInt32 := by
  unfold toU32 at h
  split at h
  case isTrue hv =>
    obtain rfl := Option.some.inj h
    have hnonneg : 0 ≤ v := Int32.le_iff_toInt_le.mpr hv
    have hnat : v.toUInt32.toNat = v.toInt.toNat := Int32.toNat_toUInt32_of_le hnonneg
    rw [← hnat, UInt32.ofNat_toNat]
  case isFalse => cases h

/-- What a client builds a coinbase and a merkle root from. -/
theorem getNewTemplateMessage_fields {d : TemplateData} {f : Bool} {t : NewTemplate}
    (h : d.getNewTemplateMessage f = .ok t) :
    t.merklePath = d.merklePath ∧ t.coinbaseTxVersion = d.coinbaseTx.version.toUInt32 ∧
      t.coinbaseTxLocktime = d.coinbaseTx.lockTime ∧
      t.coinbaseTxInputSequence = d.coinbaseTx.sequence := by
  unfold getNewTemplateMessage at h
  split at h
  · cases h
  · split at h
    · cases h
    · rename_i coinbaseTxVersion hversion
      split at h
      · cases h
      · split at h
        · cases h
        · split at h
          · cases h
          · rename_i merklePath hpath
            obtain rfl := Except.ok.inj h
            refine ⟨?_, toU32_eq_some hversion, rfl, rfl⟩
            unfold BlockTemplate.getMerklePath at hpath
            split at hpath
            · cases hpath
            · split at hpath
              · cases hpath
              · exact (Except.ok.inj hpath).symm

end TemplateData

/-! ### What an event does to the templates

`Keeps` is a step without a new template, and `Adds` one with a new template. Both let messages that
were waiting go out. -/

/-- The answers to requests for transactions are no template messages. -/
theorem BitcoinCoreSv2TDP.answer_isTemplate {s : BitcoinCoreSv2TDP} {id : TemplateId}
    {fetched : Option (List Bytes)} {m : TemplateDistribution} (h : s.answer id fetched = .ok m) :
    m.isTemplate = false := by
  unfold answer at h
  split at h
  · obtain rfl := Except.ok.inj h
    rfl
  · split at h
    · obtain rfl := Except.ok.inj h
      rfl
    · split at h
      · cases h
      · obtain rfl := Except.ok.inj h
        rfl

namespace Tasks

/-- The messages about templates that were sent, and those a task is about to send. -/
def messages (x : Tasks) : List TemplateDistribution :=
  x.stream ++ x.unsent

/-- No template was added. -/
structure Keeps (x x' : Tasks) : Prop where
  publications : x'.tdp.publications = x.tdp.publications
  templateData : ∀ id d, x'.tdp.templateData.lookup id = some d →
    x.tdp.templateData.lookup id = some d
  messages : ∀ m ∈ x'.messages, m ∈ x.messages
  open_messages : x'.tdp.outgoingOpen = true →
    x.tdp.outgoingOpen = true ∧ ∀ m ∈ x.messages, m ∈ x'.messages
  solutions : x.tdp.solutions ⊆ x'.tdp.solutions

/-- A template was stored under a new id, and its messages are on their way. -/
structure Adds (x x' : Tasks) (d : TemplateData) : Prop where
  fresh : ∀ p ∈ x.tdp.publications, p.templateId ≠ d.templateId
  publications : ∃ tipChange,
    x'.tdp.publications = x.tdp.publications ++ [⟨d.templateId, d.prevHash, tipChange⟩]
  templateData : x'.tdp.templateData = x.tdp.templateData.insert d.templateId d
  messages : ∀ m ∈ x'.messages, m ∈ x.messages ∨ d.Sends m
  outgoingOpen : x'.tdp.outgoingOpen = x.tdp.outgoingOpen
  open_messages : ∀ m ∈ x.messages, m ∈ x'.messages
  newTemplate : ∃ f t, .newTemplate t ∈ x'.messages ∧ d.getNewTemplateMessage f = .ok t
  solutions : x.tdp.solutions ⊆ x'.tdp.solutions

theorem Keeps.of_eq {x x' : Tasks} (hpubs : x'.tdp.publications = x.tdp.publications)
    (htemplates : x'.tdp.templateData = x.tdp.templateData) (hmessages : x'.messages = x.messages)
    (hopen : x'.tdp.outgoingOpen = true → x.tdp.outgoingOpen = true)
    (hsolutions : x.tdp.solutions ⊆ x'.tdp.solutions) : Keeps x x' where
  publications := hpubs
  templateData _ _ h := htemplates ▸ h
  messages _ h := hmessages ▸ h
  open_messages h := ⟨hopen h, fun _ hm => hmessages.symm ▸ hm⟩
  solutions := hsolutions

/-- A step that leaves the templates, the stream and what is left to send alone. -/
theorem Keeps.refl (x : Tasks) : Keeps x x :=
  .of_eq rfl rfl rfl (fun h => h) (List.Subset.refl _)

theorem keeps_requestNewBlock (x : Tasks) : Keeps x x.requestNewBlock := by
  unfold requestNewBlock
  split
  · exact .of_eq rfl rfl rfl (fun h => h) (List.Subset.refl _)
  · exact .of_eq rfl rfl rfl (fun h => h) (List.Subset.refl _)

theorem keeps_takeUpConstraints (x : Tasks) : Keeps x x.takeUpConstraints := by
  unfold takeUpConstraints
  cases x.tdp.incoming with
  | firstConstraints => exact keeps_requestNewBlock x
  | listening =>
      show Keeps x (if _ then _ else _)
      split
      · exact .of_eq rfl rfl rfl (fun h => h) (List.Subset.refl _)
      · exact keeps_requestNewBlock x
  | bootstrapping => exact .refl x
  | fetching id => exact .refl x
  | stopped => exact .refl x

theorem keeps_joined (x : Tasks) : Keeps x x.joined := by
  unfold joined
  split
  · exact keeps_requestNewBlock x
  · exact .refl x

theorem keeps_createNewBlock (x : Tasks) (created : Bool) : Keeps x (x.createNewBlock created) := by
  unfold createNewBlock
  split
  · split
    · exact .of_eq rfl rfl rfl (fun h => h) (List.Subset.refl _)
    · exact .of_eq rfl rfl rfl (fun h => h) (List.Subset.refl _)
  · exact .refl x

/-- The messages after a publication began, and the template it stored. -/
theorem adds_beginPublication {x x' : Tasks} {d : TemplateData} {f b : Bool}
    {s : BitcoinCoreSv2TDP} {m : TemplateDistribution} {rest : List TemplateDistribution}
    (hfresh : ∀ p ∈ x.tdp.publications, p.templateId ≠ d.templateId)
    (hbegin : x.tdp.beginPublication d f b = some (s, m, rest)) (htdp : x'.tdp = s)
    (hunsent : ∀ n, n ∈ x'.unsent ↔ n ∈ x.unsent ∨ n ∈ m :: rest) : Adds x x' d := by
  unfold BitcoinCoreSv2TDP.beginPublication at hbegin
  cases hm : d.getNewTemplateMessage f with
  | error e => simp [hm] at hbegin
  | ok t =>
      simp only [hm, Option.some.injEq, Prod.mk.injEq] at hbegin
      obtain ⟨rfl, rfl, rfl⟩ := hbegin
      have hstream : x'.stream = x.stream := by
        rw [stream, htdp]
        rfl
      have hmem : ∀ n, n ∈ x'.messages ↔ n ∈ x.messages ∨ n ∈ TemplateDistribution.newTemplate t ::
          if b then [.setNewPrevHash d.getSetNewPrevHashMessage] else [] := fun n => by
        rw [messages, messages, List.mem_append, List.mem_append, hstream, hunsent, or_assoc]
      exact {
        fresh := hfresh
        publications := ⟨_, by rw [htdp]⟩
        templateData := by rw [htdp]; rfl
        messages := fun n hn => ((hmem n).mp hn).imp_right fun hnew => by
          obtain rfl | hrest := List.mem_cons.mp hnew
          · exact .inl ⟨f, t, rfl, hm⟩
          · cases b with
            | false => cases hrest
            | true => exact .inr (List.mem_singleton.mp hrest)
        outgoingOpen := by rw [htdp]; rfl
        open_messages := fun n hn => (hmem n).mpr (.inl hn)
        newTemplate := ⟨f, t, (hmem _).mpr (.inr (List.mem_cons_self ..)), hm⟩
        solutions := by rw [htdp]; exact List.Subset.refl _ }

/-- The answer of the node during the bootstrap stores one template, or none. -/
theorem bootstrapFetched_templates {x : Tasks} (h : x.Takes) (fetched : Option BlockTemplate) :
    Keeps x (x.bootstrapFetched fetched) ∨ ∃ d, Adds x (x.bootstrapFetched fetched) d := by
  unfold bootstrapFetched
  split
  · exact .inl (.of_eq rfl rfl rfl (fun h => h) (List.Subset.refl _))
  · rename_i id b hincoming hsending
    split
    · exact .inl (.of_eq rfl rfl rfl (fun h => h) (List.Subset.refl _))
    · rename_i s m rest hbegin
      refine .inr ⟨_, adds_beginPublication ((h.incomingId id hincoming).2 hsending) hbegin rfl ?_⟩
      intro n
      simp only [unsent, left, hsending, List.mem_append, List.nil_append]
      exact or_comm
  · exact .inl (.refl x)

theorem monitorFetched_templates {x : Tasks} (h : x.Takes) (fetched : Option BlockTemplate) :
    Keeps x (x.monitorFetched fetched) ∨ ∃ d, Adds x (x.monitorFetched fetched) d := by
  unfold monitorFetched
  split
  · rename_i id b currentPrevHash hmonitor hsending _
    dsimp only
    split
    · exact .inl (.of_eq rfl rfl rfl (fun h => h) (List.Subset.refl _))
    · rename_i s m rest hbegin
      refine .inr ⟨_, adds_beginPublication ((h.monitorId id hmonitor).2 hsending) hbegin rfl ?_⟩
      intro n
      simp only [unsent, left, hsending, List.mem_append, List.append_nil]
  · exact .inl (.of_eq rfl rfl rfl (fun h => h) (List.Subset.refl _))
  · exact .inl (.refl x)

/-- A message that was sent is no longer on its way. -/
theorem keeps_send {x x' : Tasks} (h : x.Flows) {m : TemplateDistribution} {s : BitcoinCoreSv2TDP}
    (hsend : x.tdp.send m = some s) (hpubs : x'.tdp.publications = x.tdp.publications)
    (htemplates : x'.tdp.templateData = x.tdp.templateData)
    (hout : x'.tdp.outgoing = s.outgoing) (hsolutions : x'.tdp.solutions = x.tdp.solutions)
    (hunsent : ∀ n, n ∈ x.unsent ↔ n = m ∨ n ∈ x'.unsent) : Keeps x x' := by
  obtain ⟨hopen, rfl⟩ := BitcoinCoreSv2TDP.send_eq_some hsend
  have htemplate : m.isTemplate = true :=
    (h.complete hopen).isTemplate m (List.mem_append_right _ ((hunsent m).mpr (.inl rfl)))
  have hstream : x'.stream = x.stream ++ [m] := by
    rw [stream, hout]
    simp [stream, List.filter_append, htemplate]
  have hmem : ∀ n, n ∈ x'.messages ↔ n ∈ x.messages := fun n => by
    rw [messages, messages, List.mem_append, List.mem_append, hstream, hunsent, List.mem_append,
      List.mem_singleton, or_assoc]
  exact {
    publications := hpubs
    templateData := fun _ _ hd => htemplates ▸ hd
    messages := fun n hn => (hmem n).mp hn
    open_messages := fun _ => ⟨hopen, fun n hn => (hmem n).mpr hn⟩
    solutions := hsolutions ▸ List.Subset.refl _ }

/-- A message that nobody receives ends the publication. -/
theorem keeps_send_none {x x' : Tasks} {m : TemplateDistribution} (hsend : x.tdp.send m = none)
    (hpubs : x'.tdp.publications = x.tdp.publications)
    (htemplates : x'.tdp.templateData = x.tdp.templateData)
    (hout : x'.tdp.outgoing = x.tdp.outgoing)
    (hopen : x'.tdp.outgoingOpen = x.tdp.outgoingOpen)
    (hsolutions : x'.tdp.solutions = x.tdp.solutions)
    (hunsent : ∀ n ∈ x'.unsent, n ∈ x.unsent) : Keeps x x' where
  publications := hpubs
  templateData _ _ hd := htemplates ▸ hd
  messages n hn := by
    rw [messages, stream, hout] at hn
    exact (List.mem_append.mp hn).elim (List.mem_append_left _)
      fun hn => List.mem_append_right _ (hunsent n hn)
  open_messages h := by
    rw [hopen, BitcoinCoreSv2TDP.send_eq_none hsend] at h
    cases h
  solutions := hsolutions ▸ List.Subset.refl _

/-- A message of the incoming task that goes out was one of the messages before. -/
theorem keeps_incomingSent {x : Tasks} (h : x.Flows) : Keeps x x.incomingSent := by
  unfold incomingSent
  split
  · exact .refl x
  · rename_i m rest stale hsending
    have hunsent : ∀ n, n ∈ x.unsent ↔ n = m ∨ n ∈ rest ++ left x.monitorSending := fun n => by
      rw [unsent, hsending]
      exact List.mem_cons
    split
    · rename_i hsend
      refine keeps_send_none hsend rfl rfl rfl rfl rfl fun n hn => ?_
      exact (hunsent n).mpr (.inr (List.mem_append_right _ hn))
    · rename_i s m' rest' hsend
      have heq := (BitcoinCoreSv2TDP.send_eq_some hsend).2
      exact keeps_send h hsend (by rw [heq]) (by rw [heq]) rfl (by rw [heq]) hunsent
    · rename_i s hsend
      have heq := (BitcoinCoreSv2TDP.send_eq_some hsend).2
      exact keeps_send h hsend (by rw [heq]) (by rw [heq]) rfl (by rw [heq]) hunsent

theorem keeps_monitorSent {x : Tasks} (h : x.Flows) : Keeps x x.monitorSent := by
  unfold monitorSent
  split
  · exact .refl x
  · rename_i m rest stale hsending
    have hunsent : ∀ n, n ∈ x.unsent ↔ n = m ∨ n ∈ left x.incomingSending ++ rest := fun n => by
      rw [unsent, hsending]
      show n ∈ left x.incomingSending ++ m :: rest ↔ _
      rw [List.mem_append, List.mem_cons, List.mem_append, or_left_comm]
    split
    · rename_i hsend
      refine keeps_send_none hsend rfl rfl rfl rfl rfl fun n hn => ?_
      refine (hunsent n).mpr (.inr (List.mem_append_left _ ?_))
      simpa [unsent, left] using hn
    · rename_i s m' rest' hsend
      have heq := (BitcoinCoreSv2TDP.send_eq_some hsend).2
      exact keeps_send h hsend (by rw [heq]) (by rw [heq]) rfl (by rw [heq]) hunsent
    · rename_i s hsend
      have heq := (BitcoinCoreSv2TDP.send_eq_some hsend).2
      cases stale with
      | none => exact keeps_send h hsend (by rw [heq]) (by rw [heq]) rfl (by rw [heq]) hunsent
      | some ids =>
          exact keeps_send h hsend (by rw [heq]; rfl) (by rw [heq]; rfl) rfl (by rw [heq]; rfl)
            hunsent

theorem keeps_requestTransactionData (x : Tasks) (id : TemplateId) (fetched : Option (List Bytes)) :
    Keeps x { x with tdp := x.tdp.step (.requestTransactionData id fetched) } := by
  simp only [BitcoinCoreSv2TDP.step]
  split
  · unfold BitcoinCoreSv2TDP.handleRequestTransactionData
    cases hm : x.tdp.answer id fetched with
    | error e => exact .of_eq rfl rfl rfl (fun h => h) (List.Subset.refl _)
    | ok m =>
        dsimp only
        cases hsend : x.tdp.send m with
        | none => exact .of_eq rfl rfl rfl (fun h => h) (List.Subset.refl _)
        | some s =>
            obtain ⟨-, rfl⟩ := BitcoinCoreSv2TDP.send_eq_some hsend
            refine .of_eq rfl rfl ?_ (fun h => h) (List.Subset.refl _)
            simp [messages, stream, unsent, List.filter_append,
              BitcoinCoreSv2TDP.answer_isTemplate hm]
  · exact .refl x

theorem keeps_submitSolution (x : Tasks) (m : SubmitSolution) (dir accepted : Bool) :
    Keeps x { x with tdp := x.tdp.step (.submitSolution m dir accepted) } := by
  simp only [BitcoinCoreSv2TDP.step]
  split
  · unfold BitcoinCoreSv2TDP.handleSubmitSolution
    split
    · exact .refl x
    · split
      · split
        · exact .refl x
        · exact .of_eq rfl rfl rfl (fun h => h) (List.subset_append_left _ _)
      · exact .refl x
  · exact .refl x

theorem keeps_removeStale (x : Tasks) (i : Nat) (destroyed : Bool) :
    Keeps x { x with tdp := x.tdp.step (.removeStale i destroyed) } := by
  simp only [BitcoinCoreSv2TDP.step, BitcoinCoreSv2TDP.removeStale]
  split
  · exact .refl x
  · rename_i ids _
    exact {
      publications := rfl
      templateData := fun id d hd => by
        have hmem : id ∈ ids.foldl (fun m id => m.erase id) x.tdp.templateData :=
          AList.lookup_isSome.mp (by rw [hd]; rfl)
        have hid := ((Retention.mem_foldl_erase ids _).mp hmem).2
        rwa [Retention.lookup_foldl_erase ids _ hid] at hd
      messages := fun _ hm => hm
      open_messages := fun h => ⟨h, fun _ hm => hm⟩
      solutions := List.Subset.refl _ }

/-- An event adds no template, or one under a new id. -/
theorem step_templates {x : Tasks} (h : x.Inv) (e : TaskEvent) :
    Keeps x (x.step e) ∨ ∃ d, Adds x (x.step e) d := by
  cases e with
  | joined => exact .inl (keeps_joined x)
  | incomingSent => exact .inl (keeps_incomingSent h.flows)
  | monitorSent => exact .inl (keeps_monitorSent h.flows)
  | runTakesHandle =>
      refine .inl ?_
      show Keeps x (if _ then _ else _)
      split
      · exact .of_eq rfl rfl rfl (fun h => h) (List.Subset.refl _)
      · exact .refl x
  | tdp e =>
      cases e with
      | bootstrapFetched fetched => exact bootstrapFetched_templates h.takes fetched
      | monitorFetched fetched => exact monitorFetched_templates h.takes fetched
      | coinbaseOutputConstraints => exact .inl (keeps_takeUpConstraints x)
      | createNewBlock created => exact .inl (keeps_createNewBlock x created)
      | requestTransactionData id fetched =>
          exact .inl (keeps_requestTransactionData x id fetched)
      | submitSolution m dir accepted => exact .inl (keeps_submitSolution x m dir accepted)
      | removeStale i destroyed => exact .inl (keeps_removeStale x i destroyed)
      | waitNext result =>
          refine .inl ?_
          show Keeps x { x with tdp := x.tdp.step (.waitNext result) }
          simp only [BitcoinCoreSv2TDP.step]
          split <;> exact .of_eq rfl rfl rfl (fun h => h) (List.Subset.refl _)
      | monitorCancelled interrupted =>
          refine .inl ?_
          show Keeps x { x with tdp := x.tdp.step (.monitorCancelled interrupted) }
          simp only [BitcoinCoreSv2TDP.step]
          split <;> exact .of_eq rfl rfl rfl (fun h => h) (List.Subset.refl _)
      | cancel => exact .inl (.of_eq rfl rfl rfl (fun h => h) (List.Subset.refl _))
      | receiverDropped => exact .inl (.of_eq rfl rfl rfl (fun h => by cases h)
          (List.Subset.refl _))

/-! ### What holds of a template for good

`Known` does not mention the stored templates. It survives the removal of the template, which is
when a task still holds its copy. -/

/-- The template was published with its previous hash; all messages under its id are its own, and
as long as anybody receives them there is one. -/
structure Known (x : Tasks) (d : TemplateData) : Prop where
  published : HasPrevHash x.tdp.publications d.templateId d.prevHash
  messages : ∀ m ∈ x.messages, m.templateId? = some d.templateId → d.Sends m
  newTemplate : x.tdp.outgoingOpen = true →
    ∃ f t, .newTemplate t ∈ x.messages ∧ d.getNewTemplateMessage f = .ok t

structure Sound (x : Tasks) : Prop where
  inv : x.Inv
  /-- No id is published twice. -/
  distinct : ∀ p ∈ x.tdp.publications, ∀ q ∈ x.tdp.publications,
    p.templateId = q.templateId → p = q
  messages : ∀ m ∈ x.messages, ∀ id, m.templateId? = some id →
    ∃ p ∈ x.tdp.publications, p.templateId = id
  stored : ∀ id d, x.tdp.templateData.lookup id = some d → d.templateId = id ∧ x.Known d

theorem sound_new : new.Sound where
  inv := inv_new
  distinct _ hp := by cases hp
  messages _ hm := by cases hm
  stored _ _ h := by cases h

theorem Known.keeps {x x' : Tasks} {d : TemplateData} (h : x.Known d) (hk : Keeps x x') :
    x'.Known d where
  published := by
    rw [hk.publications]
    exact h.published
  messages m hm := h.messages m (hk.messages m hm)
  newTemplate hopen := by
    obtain ⟨hopen, hmessages⟩ := hk.open_messages hopen
    obtain ⟨f, t, ht, hok⟩ := h.newTemplate hopen
    exact ⟨f, t, hmessages _ ht, hok⟩

/-- A template that is added does not disturb the others: its id is new. -/
theorem Known.adds {x x' : Tasks} {d d' : TemplateData} (h : x.Known d) (ha : Adds x x' d') :
    x'.Known d where
  published := by
    obtain ⟨tipChange, hpubs⟩ := ha.publications
    obtain ⟨p, hp, hid, hprev⟩ := h.published
    exact ⟨p, hpubs ▸ List.mem_append_left _ hp, hid, hprev⟩
  messages m hm hid := by
    obtain hm | hm := ha.messages m hm
    · exact h.messages m hm hid
    · obtain ⟨p, hp, hpid, -⟩ := h.published
      rw [hm.templateId, Option.some.injEq] at hid
      exact absurd (hpid.trans hid.symm) (ha.fresh p hp)
  newTemplate hopen := by
    obtain ⟨f, t, ht, hok⟩ := h.newTemplate (ha.outgoingOpen ▸ hopen)
    exact ⟨f, t, ha.open_messages _ ht, hok⟩

/-- A template is known from the step on that stores it. -/
theorem Adds.known {x x' : Tasks} {d : TemplateData} (h : x.Sound) (ha : Adds x x' d) :
    x'.Known d where
  published := by
    obtain ⟨tipChange, hpubs⟩ := ha.publications
    exact ⟨_, hpubs ▸ List.mem_append_right _ (List.mem_singleton.mpr rfl), rfl, rfl⟩
  messages m hm hid := by
    obtain hm | hm := ha.messages m hm
    · obtain ⟨p, hp, hpid⟩ := h.messages m hm _ hid
      exact absurd hpid (ha.fresh p hp)
    · exact hm
  newTemplate _ := ha.newTemplate

/-- A template stays known. -/
theorem known_step {x : Tasks} (h : x.Sound) {d : TemplateData} (hd : x.Known d) (e : TaskEvent) :
    (x.step e).Known d := by
  obtain hk | ⟨d', ha⟩ := step_templates h.inv e
  · exact hd.keeps hk
  · exact hd.adds ha

theorem solutions_step {x : Tasks} (h : x.Sound) (e : TaskEvent) :
    x.tdp.solutions ⊆ (x.step e).tdp.solutions := by
  obtain hk | ⟨d', ha⟩ := step_templates h.inv e
  · exact hk.solutions
  · exact ha.solutions

theorem sound_step {x : Tasks} (h : x.Sound) (e : TaskEvent) : (x.step e).Sound := by
  obtain hk | ⟨d', ha⟩ := step_templates h.inv e
  · exact {
      inv := inv_step h.inv e
      distinct := hk.publications.symm ▸ h.distinct
      messages := fun m hm => hk.publications.symm ▸ h.messages m (hk.messages m hm)
      stored := fun id d hd =>
        (h.stored id d (hk.templateData id d hd)).imp_right fun hd => hd.keeps hk }
  · obtain ⟨tipChange, hpubs⟩ := ha.publications
    have hsub : ∀ p ∈ x.tdp.publications, p ∈ (x.step e).tdp.publications := fun p hp =>
      hpubs ▸ List.mem_append_left _ hp
    refine ⟨inv_step h.inv e, ?_, ?_, ?_⟩
    · rw [hpubs]
      intro p hp q hq hid
      rw [List.mem_append, List.mem_singleton] at hp hq
      rcases hp with hp | rfl <;> rcases hq with hq | rfl
      · exact h.distinct p hp q hq hid
      · exact absurd hid (ha.fresh p hp)
      · exact absurd hid.symm (ha.fresh q hq)
      · rfl
    · intro m hm id hid
      obtain hm | hm := ha.messages m hm
      · obtain ⟨p, hp, hpid⟩ := h.messages m hm id hid
        exact ⟨p, hsub p hp, hpid⟩
      · rw [hm.templateId, Option.some.injEq] at hid
        obtain ⟨p, hp, hpid, -⟩ := (ha.known h).published
        exact ⟨p, hp, hpid.trans hid⟩
    · intro id d hd
      rw [ha.templateData] at hd
      by_cases hid : id = d'.templateId
      · subst hid
        rw [AList.lookup_insert] at hd
        obtain rfl := Option.some.inj hd
        exact ⟨rfl, ha.known h⟩
      · rw [AList.lookup_insert_ne hid] at hd
        exact (h.stored id d hd).imp_right fun hd => hd.adds ha

/-! ### A client -/

/-- What a client builds a job from: a future template and the `SetNewPrevHash` that names it, or
any other template and the last previous hash before it. -/
inductive Job (ms : List TemplateDistribution) : NewTemplate → SetNewPrevHash → Prop
  | activated {t : NewTemplate} {tip : SetNewPrevHash} (ht : .newTemplate t ∈ ms)
      (future : t.futureTemplate = true) (htip : .setNewPrevHash tip ∈ ms)
      (same : tip.templateId = t.templateId) : Job ms t tip
  | current {pre post : List TemplateDistribution} {t : NewTemplate} {tip : SetNewPrevHash}
      (hms : ms = pre ++ .newTemplate t :: post) (future : t.futureTemplate = false)
      (htip : .setNewPrevHash tip ∈ pre) (last : lastPrevHash pre = some tip.prevHash) :
      Job ms t tip

theorem Job.mem {ms : List TemplateDistribution} {t : NewTemplate} {tip : SetNewPrevHash}
    (h : Job ms t tip) : .newTemplate t ∈ ms := by
  cases h with
  | activated ht => exact ht
  | current hms => exact hms ▸ List.mem_append_right _ (List.mem_cons_self ..)

/-- A job of a known template has the previous hash of the template. -/
theorem Job.prevHash {x : Tasks} (h : x.Sound) {d : TemplateData} (hd : x.Known d)
    {t : NewTemplate} {tip : SetNewPrevHash} (hj : Job x.stream t tip)
    (hid : t.templateId = d.templateId) :
    tip.prevHash = d.prevHash ∧ (t.futureTemplate = true → tip.nBits = d.header.bits) := by
  cases hj with
  | activated ht future htip same =>
      have hsent := hd.messages _ (List.mem_append_left _ htip) (congrArg some (same.trans hid))
      obtain rfl := hsent.setNewPrevHash
      exact ⟨rfl, fun _ => rfl⟩
  | current hms future htip last =>
      obtain ⟨prevHash, hlast, p, hp, hpid, hprev⟩ :=
        h.inv.flows.wellFormed.tip _ _ _ hms future
      obtain ⟨q, hq, hqid, hqprev⟩ := hd.published
      obtain rfl := h.distinct p hp q hq (hpid.trans (hid.trans hqid.symm))
      rw [last] at hlast
      refine ⟨(Option.some.inj hlast).trans (hprev.symm.trans hqprev), fun htrue => ?_⟩
      rw [future] at htrue
      cases htrue

end Tasks

/-! ### The directory of solutions

The server is the tasks of `TemplateStream`, the dump tasks in flight, and the files that were
written. Events of the server and turns of the dump tasks come in any order. -/

/-- `<hash>.dat` -/
def solutionFileName (b : Pool.Block) : Text :=
  Pool.hexEncode (digestTwice b.header.serialize).reverse ++ ['.', 'd', 'a', 't']

/-- The server, its dump tasks that wait for `getBlock`, and the directory of solutions. -/
structure Server where
  tasks : Tasks
  dumps : List Dump
  solutionsDir : Text → Option Pool.Block

inductive ServerEvent where
  | task (e : TaskEvent)
  /-- A dump task has its answer, and writes the file. It has none if the request or the file
  fails. -/
  | getBlock (i : Nat) (answer : Option Pool.Block)

/-- The block of a template has the coinbase merkle path of the template. -/
def Dump.Honest (p : Dump) (answer : Option Pool.Block) : Prop :=
  ∀ header first txdata, answer = some ⟨header, first :: txdata⟩ →
    p.template.merklePath =
      MerkleTree.branch (Pool.hashPair digestTwice) (Pool.computeTxids digestTwice txdata)

/-- Where a dump task comes from. -/
structure Dump.Spawned (p : Dump) (x : Tasks) : Prop where
  handed : (p.template, p.solution) ∈ x.tdp.solutions
  templateId : p.template.templateId = p.solution.templateId
  coinbaseTx : Transaction.deserialize p.solution.coinbaseTx = some p.solutionCoinbaseTx
  known : x.Known p.template

namespace Server

def new : Server := ⟨.new, [], fun _ => none⟩

/-- The task `submit_solution` spawns. -/
def spawned (x : Tasks) : TaskEvent → Option Dump
  | .tdp (.submitSolution m true _) =>
      match x.tdp.incoming, x.tdp.templateData.lookup m.templateId,
        Transaction.deserialize m.coinbaseTx with
      | .listening, some d, some tx => some ⟨d, tx, m⟩
      | _, _, _ => none
  | _ => none

def step (env : DumpEnv) (s : Server) : ServerEvent → Server
  | .task e =>
      { s with tasks := s.tasks.step e, dumps := s.dumps ++ (spawned s.tasks e).toList }
  | .getBlock i answer =>
      match s.dumps[i]? with
      | none => s
      | some p =>
          { s with
            dumps := s.dumps.eraseIdx i
            solutionsDir := match p.block env answer with
              | none => s.solutionsDir
              | some b => Function.update s.solutionsDir (solutionFileName b) (some b) }

/-- Bitcoin Core answers with the block of the template. -/
def Honest (s : Server) : ServerEvent → Prop
  | .task _ => True
  | .getBlock i answer => ∀ p, s.dumps[i]? = some p → p.Honest answer

/-- A task is spawned for a solution that is handed to Bitcoin Core, with a template that is
stored. -/
theorem spawned_eq_some {x : Tasks} {e : TaskEvent} {p : Dump} (h : spawned x e = some p) :
    (p.template, p.solution) ∈ (x.step e).tdp.solutions ∧
      x.tdp.templateData.lookup p.solution.templateId = some p.template ∧
      Transaction.deserialize p.solution.coinbaseTx = some p.solutionCoinbaseTx := by
  unfold spawned at h
  split at h
  · rename_i m accepted
    split at h
    · rename_i d tx hincoming hlookup htx
      obtain rfl := Option.some.inj h
      refine ⟨?_, hlookup, htx⟩
      show (d, m) ∈ (x.tdp.step (.submitSolution m true accepted)).solutions
      simp [BitcoinCoreSv2TDP.step, hincoming, BitcoinCoreSv2TDP.handleSubmitSolution, hlookup, htx]
    · cases h
  · cases h

/-- The copy of a task stays a copy of its template. -/
theorem spawned_step {x : Tasks} (h : x.Sound) {p : Dump} (hp : p.Spawned x) (e : TaskEvent) :
    p.Spawned (x.step e) where
  handed := Tasks.solutions_step h e hp.handed
  templateId := hp.templateId
  coinbaseTx := hp.coinbaseTx
  known := Tasks.known_step h hp.known e

/-- Every file is the block of a dump task, under its name. -/
structure Inv (env : DumpEnv) (s : Server) : Prop where
  sound : s.tasks.Sound
  dumps : ∀ p ∈ s.dumps, p.Spawned s.tasks
  files : ∀ name b, s.solutionsDir name = some b → name = solutionFileName b ∧
    ∃ (p : Dump) (answer : Option Pool.Block),
      p.Spawned s.tasks ∧ p.Honest answer ∧ p.block env answer = some b

variable {env : DumpEnv}

theorem inv_new : Inv env new where
  sound := Tasks.sound_new
  dumps _ hp := by cases hp
  files _ _ h := by cases h

theorem inv_step (s : Server) (e : ServerEvent) (h : Inv env s) (honest : s.Honest e) :
    Inv env (s.step env e) := by
  cases e with
  | task e =>
      refine ⟨Tasks.sound_step h.sound e, ?_, ?_⟩
      · intro p hp
        obtain hp | hp := List.mem_append.mp hp
        · exact spawned_step h.sound (h.dumps p hp) e
        · obtain ⟨hhanded, hlookup, htx⟩ := spawned_eq_some (Option.mem_toList.mp hp)
          obtain ⟨hid, hknown⟩ := h.sound.stored _ _ hlookup
          exact ⟨hhanded, hid, htx, Tasks.known_step h.sound hknown e⟩
      · intro name b hb
        obtain ⟨hname, p, answer, hp, hrest⟩ := h.files name b hb
        exact ⟨hname, p, answer, spawned_step h.sound hp e, hrest⟩
  | getBlock i answer =>
      show Inv env (match s.dumps[i]? with | none => _ | some _ => _)
      cases hp : s.dumps[i]? with
      | none => exact h
      | some p =>
          refine ⟨h.sound, fun q hq => h.dumps q (List.mem_of_mem_eraseIdx hq), ?_⟩
          intro name b hb
          cases hblock : p.block env answer with
          | none =>
              simp only [hblock] at hb
              exact h.files name b hb
          | some b' =>
              simp only [hblock, Function.update_apply] at hb
              split at hb
              case isTrue hname =>
                obtain rfl := Option.some.inj hb
                exact ⟨hname, p, answer, h.dumps p (List.mem_of_getElem? hp), honest p hp, hblock⟩
              case isFalse => exact h.files name b hb

end Server

/-! ### The blocks -/

/-- The header and the coinbase are what a client makes of a template and a tip. The bits belong to
the tip only when it came with the template. -/
structure Built (t : NewTemplate) (tip : SetNewPrevHash) (coinbase : Transaction)
    (header : Pool.Header) : Prop where
  prevBlockhash : header.prevBlockhash = tip.prevHash
  bits : t.futureTemplate = true → header.bits = tip.nBits
  merkleRoot : header.merkleRoot =
    Pool.applyMerklePath digestTwice (digestTwice coinbase.encodeBase) t.merklePath
  version : coinbase.version = t.coinbaseTxVersion.toNat
  lockTime : coinbase.lockTime = t.coinbaseTxLocktime.toNat
  input : ∃ input, coinbase.input = [input] ∧ input.sequence = t.coinbaseTxInputSequence.toNat

/-- The block of a solution: it has work and commits to its transactions, its coinbase is the one of
the solution, and its header is the one the solver hashed, whatever job of the template that was. -/
structure Solves (env : DumpEnv) (x : Tasks) (m : SubmitSolution) (b : Pool.Block) : Prop where
  work : env.validatePow b.header = true
  commits : b.header.merkleRoot =
    Pool.BitcoinRpc.merkleRoot (Pool.hashPair digestTwice) (List.replicate 32 0)
      (Pool.computeTxids digestTwice b.txdata)
  version : b.header.version = m.version
  time : b.header.time = m.headerTimestamp
  nonce : b.header.nonce = m.headerNonce
  announced : x.tdp.outgoingOpen = true →
    ∃ t, .newTemplate t ∈ x.messages ∧ t.templateId = m.templateId
  coinbase : ∃ coinbase txs, b.txdata = coinbase :: txs ∧ coinbase.encode = m.coinbaseTx ∧
    ∀ t tip, Tasks.Job x.stream t tip → t.templateId = m.templateId → Built t tip coinbase b.header

theorem Dump.built {x : Tasks} (h : x.Sound) {env : DumpEnv} {p : Dump} (hp : p.Spawned x)
    (hcongruent : p.congruent env = true) {t : NewTemplate} {tip : SetNewPrevHash}
    (hj : Tasks.Job x.stream t tip) (hid : t.templateId = p.solution.templateId) :
    Built t tip p.solutionCoinbaseTx p.solutionHeader := by
  have hown := hp.known.messages _ (List.mem_append_left _ hj.mem)
    (congrArg some (hid.trans hp.templateId.symm))
  obtain ⟨f, ht⟩ := hown.newTemplate
  obtain ⟨hpath, hversion, hlock, hsequence⟩ := TemplateData.getNewTemplateMessage_fields ht
  obtain ⟨htip, hbits⟩ := hj.prevHash h hp.known (hid.trans hp.templateId.symm)
  obtain ⟨hversion', hlock', input, hinput, hsequence'⟩ := Dump.congruent_fields hcongruent
  exact {
    prevBlockhash := htip.symm
    bits := fun hf => (hbits hf).symm
    merkleRoot := by rw [hpath]; rfl
    version := by rw [hversion', hversion]
    lockTime := by rw [hlock', hlock]
    input := ⟨input, hinput, by rw [hsequence', hsequence]⟩ }

/-- The block a dump task writes solves its template. -/
theorem Dump.solves {x : Tasks} (h : x.Sound) {env : DumpEnv} {p : Dump} (hp : p.Spawned x)
    {answer : Option Pool.Block} (honest : p.Honest answer) {b : Pool.Block}
    (hblock : p.block env answer = some b) : Solves env x p.solution b := by
  obtain ⟨hheader, header, first, txdata, rfl, htxdata⟩ := Dump.block_eq_some hblock
  obtain ⟨hcongruent, hwork, heq⟩ := Dump.header_eq_some hheader
  have hroot : b.header.merkleRoot =
      Pool.BitcoinRpc.merkleRoot (Pool.hashPair digestTwice) (List.replicate 32 0)
        (Pool.computeTxids digestTwice b.txdata) := by
    rw [heq, htxdata]
    show Pool.applyMerklePath digestTwice _ p.template.merklePath = _
    rw [honest header first txdata rfl]
    show (MerkleTree.branch _ _).foldl _ _ =
      Pool.BitcoinRpc.merkleRoot _ _ (_ :: Pool.computeTxids digestTwice txdata)
    rw [MerkleTree.foldl_branch, Pool.BitcoinRpc.merkleRoot_cons]
  exact {
    work := hwork
    commits := hroot
    version := by rw [heq]; rfl
    time := by rw [heq]; rfl
    nonce := by rw [heq]; rfl
    announced := fun hopen => by
      obtain ⟨f, t, ht, hok⟩ := hp.known.newTemplate hopen
      exact ⟨t, ht, (TemplateData.getNewTemplateMessage_ok hok).1.trans hp.templateId⟩
    coinbase := ⟨p.solutionCoinbaseTx, txdata, htxdata,
      Transaction.encode_of_deserialize hp.coinbaseTx, fun t tip hj hid => by
        rw [heq]
        exact Dump.built h hp hcongruent hj hid⟩ }

/-- **The directory of solutions.** In every run whose `getBlock` answers are honest, every file has
the name of its block, and the block solves a solution that was handed to Bitcoin Core. -/
theorem files_solve {env : DumpEnv} {es : List ServerEvent}
    (honest : Runs.Along (Server.step env) Server.Honest .new es) :
    let s := Runs.exec (Server.step env) .new es
    ∀ name b, s.solutionsDir name = some b → name = solutionFileName b ∧
      ∃ d m, (d, m) ∈ s.tasks.tdp.solutions ∧ Solves env s.tasks m b := by
  intro s name b hb
  have h : Server.Inv env s :=
    Runs.exec_induct (fun s e h he => Server.inv_step s e h he) Server.inv_new honest
  obtain ⟨hname, p, answer, hp, hhonest, hblock⟩ := h.files name b hb
  exact ⟨hname, p.template, p.solution, hp.handed, Dump.solves h.sound hp hhonest hblock⟩

/-! ### A solution on regtest -/

/-- The target of `bits` is a mantissa of three bytes and an exponent. -/
def regtestEnv : DumpEnv where
  witness _ := [List.replicate 32 0]
  validatePow h := leNat (digestTwice h.serialize) ≤
    h.bits.toNat % 2 ^ 24 * 256 ^ (h.bits.toNat / 2 ^ 24 - 3)

def spendingTransaction : Transaction where
  version := 2
  input := [⟨List.replicate 36 7, [], 0xffffffff, []⟩]
  output := [⟨1000, [0x51]⟩]
  lockTime := 0

def solvedCoinbase : Transaction where
  version := 2
  input := [⟨Pool.nullOutpoint, [0x51, 0x00], 0xfffffffe, [List.replicate 32 0]⟩]
  output := [⟨5000, [0x51]⟩]
  lockTime := 0

def regtestTemplate : BlockTemplate where
  header := ⟨0x20000000, List.replicate 32 1, 10, 0x207fffff⟩
  coinbaseTx := ⟨2, [0x51], 0xfffffffe, [], 0⟩
  blockRewardRemaining := 5000
  merklePath := [digestTwice spendingTransaction.encodeBase]

def regtestDump : Dump where
  template := { regtestTemplate with templateId := 0 }
  solutionCoinbaseTx := solvedCoinbase
  solution := ⟨0, 0x20000000, 11, 2, solvedCoinbase.encode⟩

def regtestBlock : Pool.Block where
  header := regtestDump.solutionHeader
  txdata := [solvedCoinbase, spendingTransaction]

/-- The block Bitcoin Core has for the template, with a coinbase of its own. -/
def regtestAnswer : Option Pool.Block :=
  some ⟨regtestDump.solutionHeader, [{ solvedCoinbase with output := [] }, spendingTransaction]⟩

def untilSolution : List ServerEvent :=
  [.task (.tdp .coinbaseOutputConstraints), .task (.tdp (.createNewBlock true)),
    .task (.tdp (.bootstrapFetched (some regtestTemplate))), .task .incomingSent,
    .task .incomingSent, .task (.tdp (.submitSolution regtestDump.solution true true))]

theorem regtestDump_spawned :
    (Runs.exec (Server.step regtestEnv) .new untilSolution).dumps = [regtestDump] := by
  decide +kernel

theorem regtestDump_block : regtestDump.block regtestEnv regtestAnswer = some regtestBlock := by
  have hvalid : regtestDump.congruent regtestEnv = true ∧
      regtestEnv.validatePow regtestDump.solutionHeader = true := by
    decide +kernel
  have hheader : regtestDump.header regtestEnv = some regtestDump.solutionHeader := by
    rw [Dump.header, hvalid.1, hvalid.2]
    rfl
  unfold Dump.block
  simp only [hheader, regtestAnswer, regtestBlock]
  rfl

theorem regtestDump_honest : regtestDump.Honest regtestAnswer := by
  rintro header first txdata heq
  obtain ⟨rfl, rfl, rfl⟩ : regtestDump.solutionHeader = header ∧
      { solvedCoinbase with output := [] } = first ∧ [spendingTransaction] = txdata := by
    simpa [regtestAnswer] using heq
  show [digestTwice spendingTransaction.encodeBase] =
    MerkleTree.branch _ [digestTwice spendingTransaction.encodeBase]
  rw [MerkleTree.branch_cons, MerkleTree.level, MerkleTree.branch_nil]

theorem files_solve_regtest :
    ∃ s : Server, s.solutionsDir (solutionFileName regtestBlock) = some regtestBlock ∧
      ∃ d m, (d, m) ∈ s.tasks.tdp.solutions ∧ Solves regtestEnv s.tasks m regtestBlock := by
  have honest : Runs.Along (Server.step regtestEnv) Server.Honest .new
      (untilSolution ++ [.getBlock 0 regtestAnswer]) := by
    refine Runs.along_append.mpr ⟨by simp [untilSolution, Server.Honest], ?_, trivial⟩
    intro p hp
    rw [regtestDump_spawned] at hp
    obtain rfl := Option.some.inj hp
    exact regtestDump_honest
  have hfile : (Runs.exec (Server.step regtestEnv) .new
      (untilSolution ++ [.getBlock 0 regtestAnswer])).solutionsDir (solutionFileName regtestBlock) =
        some regtestBlock := by
    rw [Runs.exec_append, Runs.exec_cons, Runs.exec_nil]
    generalize hs : Runs.exec (Server.step regtestEnv) .new untilSolution = s
    have hdumps : s.dumps = [regtestDump] := hs ▸ regtestDump_spawned
    simp only [Server.step, hdumps, List.getElem?_cons_zero, regtestDump_block,
      Function.update_self]
  exact ⟨_, hfile, (files_solve honest _ _ hfile).2⟩

end GridPoolSv2.BitcoinCoreSv2
