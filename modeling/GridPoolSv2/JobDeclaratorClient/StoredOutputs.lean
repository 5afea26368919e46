import GridPoolSv2.JobDeclaratorClient.ExtranonceAgreement
import GridPoolSv2.JobDeclaratorClient.RewardOutputs

/-!
# JobDeclaratorClient.StoredOutputs: the bytes of the job declarator server

The outputs of a coinbase come as bytes, in the answers of the job declarator server. The handler
stores the bytes before it looks at them, and the handlers of templates, previous hashes,
transaction data and open requests read them again; most of them put the reward into the first
output.

* `Legible` is what they rely on: the stored bytes, and those kept with a declared job, can be read,
  there is a first output, and the channel types take the outputs.
* `JDCError.blamesOutputs` are the errors that end the client because of the bytes.
* `Reads` is the condition on a message under which the bytes can still be read; a run withstands
  the bytes only if it holds, and if it holds and the outputs are agreeable (`bytes_withstood`).

Proof shape: each handler `Spares` the bytes when they are legible before it, which gives one
direction for a run by induction. For the other one, a token without an output and a
declaration that does not fit are followed to the error that blames the bytes.
-/

namespace GridPoolSv2.JobDeclaratorClient

open Consensus (Bytes TxOut Transaction)
open Visit Handler Runs

/-- The bytes are read, are too few for a first output, or make a coinbase whose parts do not fit
into a message. -/
def JDCErrorKind.blamesOutputs : JDCErrorKind → Bool
  | .bitcoinEncodeError | .channelManagerHasBadCoinbaseOutputs
  | .declaredJobHasBadCoinbaseOutputs | .panic .indexOutOfBounds => true
  | .panic (.expect text) => text = "called `Result::unwrap()` on an `Err` value"
  | _ => false

/-- The errors above, and a shutdown with an error of a channel type that is about the outputs. -/
def JDCError.blamesOutputs (refusal : ChannelError → Bool) : JDCError → Bool
  | ⟨.channelSv2 e, .shutdown⟩ => refusal e
  | e => e.kind.blamesOutputs

theorem JDCError.blamesOutputs_expect {refusal : ChannelError → Bool} {text : String}
    (h : text ≠ "called `Result::unwrap()` on an `Err` value") :
    (JDCError.panic (.expect text)).blamesOutputs refusal = false :=
  decide_eq_false h

/-- The channel types give an error about the outputs only for a template, and for none that the
outputs agree with. -/
structure RefusesOutputs (api : ChannelsSv2) (refusal : ChannelError → Bool)
    (agrees : NewTemplate → List TxOut → Prop) : Prop where
  channel : ∀ {ch t o e}, agrees t o → api.channel.onNewTemplate ch t o = .error e →
    refusal e = false
  group : ∀ {g t o e}, agrees t o → api.group.onNewTemplate g t o = .error e → refusal e = false
  groupJob : ∀ {ch j e}, api.onGroupChannelJob ch j = .error e → refusal e = false
  prevHash : ∀ {ch m e}, api.channel.onSetNewPrevHash ch m = .error e → refusal e = false
  member : ∀ {g c n e}, api.addChannelId g c n = .error e → refusal e = false

/-- The bytes hold at least one output. -/
def HasOutput (bs : Bytes) : Prop :=
  ∃ o, deserializeOutputs bs = some o ∧ o ≠ []

/-- The outputs in the bytes agree with every template whose reward is put into the first one. -/
def Agreeable (agrees : NewTemplate → List TxOut → Prop) (bs : Bytes) : Prop :=
  ∀ o ∈ deserializeOutputs bs, ∀ t, agrees t (setReward t.coinbaseTxValueRemaining o)

namespace ChannelManager

variable {api : ChannelsSv2} {s : ChannelManager api} {refusal : ChannelError → Bool}
  {agrees : NewTemplate → List TxOut → Prop}

/-- The stored bytes hold an output, the outputs are agreeable, and the bytes of the declared jobs
can be read. -/
structure Legible (agrees : NewTemplate → List TxOut → Prop) (s : ChannelManager api) : Prop where
  outputs : HasOutput s.coinbaseOutputs
  agreeable : Agreeable agrees s.coinbaseOutputs
  jobs : ∀ x ∈ s.lastDeclareJobStore, (deserializeOutputs x.2.coinbaseOutput).isSome = true

theorem Legible.of_eq (h : Legible agrees s) {s' : ChannelManager api}
    (houtputs : s'.coinbaseOutputs = s.coinbaseOutputs)
    (hjobs : s'.lastDeclareJobStore = s.lastDeclareJobStore) : Legible agrees s' where
  outputs := by
    rw [houtputs]
    exact h.outputs
  agreeable := by
    rw [houtputs]
    exact h.agreeable
  jobs := by
    rw [hjobs]
    exact h.jobs

/-- A handler leaves the bytes legible, and does not end the client because of them. -/
abbrev Spares (refusal : ChannelError → Bool) (agrees : NewTemplate → List TxOut → Prop)
    (o : Handled api) : Prop :=
  Leaves (Legible agrees) (fun _ => True) (fun e => e.blamesOutputs refusal = false) o

theorem withReward_eq {reward : UInt64} {o : List TxOut} (hne : o ≠ []) :
    withReward reward o = some (setReward reward o) := by
  cases o with
  | nil => exact absurd rfl hne
  | cons x rest => rfl

/-- The outputs of a template can be had, and the channels agree to them. -/
theorem rewardOutputs_ok (h : Legible agrees s) (t : NewTemplate) :
    ∃ outputs, rewardOutputs s.coinbaseOutputs t = .ok outputs ∧ agrees t outputs := by
  obtain ⟨o, hdec, hne⟩ := h.outputs
  refine ⟨setReward t.coinbaseTxValueRemaining o, ?_, h.agreeable o hdec t⟩
  simp only [rewardOutputs, hdec, withReward_eq hne]

/-! ### Templates -/

theorem legible_customJob (h : Legible agrees s) (f : api.JobFactory) (u : api.Upstream)
    (token : AllocateMiningJobTokenSuccess) (m : SetNewPrevHash) (t : NewTemplate)
    (outputs : List TxOut) : Legible agrees (s.customJob f u token m t outputs).1 := by
  obtain ⟨o, hdec, -⟩ := h.outputs
  refine ⟨h.outputs, h.agreeable, fun x hx => ?_⟩
  simp only [customJob] at hx
  split at hx
  · exact h.jobs x hx
  · rcases List.mem_cons.mp hx with rfl | hx
    · exact Option.isSome_iff_exists.mpr ⟨o, hdec⟩
    · exact h.jobs x (List.mem_of_mem_filter hx)

theorem sendCustomJob_spares (h : Legible agrees s) {token : Option AllocateMiningJobTokenSuccess}
    {m : Option SetNewPrevHash} {t : Option NewTemplate} {outputs : List TxOut} :
    Spares refusal agrees (s.sendCustomJob token m t outputs) := by
  unfold sendCustomJob
  split
  · split
    · exact .fail h (JDCError.blamesOutputs_expect (by decide))
    · dsimp only
      split
      · exact .keep ((legible_customJob h _ _ _ _ _ _).of_eq rfl rfl)
      · exact .say ((legible_customJob h _ _ _ _ _ _).of_eq rfl rfl) fun _ _ => trivial
  · exact .keep h

theorem allocateTokenIf_spares (h : Legible agrees s) {taken : Bool} :
    Spares refusal agrees (s.allocateTokenIf taken) := by
  unfold allocateTokenIf
  split
  · exact .say (h.of_eq rfl rfl) fun _ _ => trivial
  · exact .keep h

theorem newTemplateStandard_spares (hlaw : RefusesOutputs api refusal agrees)
    (h : Legible agrees s) {t : NewTemplate} {outputs : List TxOut} (hagrees : agrees t outputs)
    {g : Job} {r : Bool} {d : DownstreamId} {c : ChannelId} :
    Spares refusal agrees (newTemplateStandard t outputs g r d c s) := by
  unfold newTemplateStandard
  split
  · exact .keep h
  · split
    · split
      · rename_i he
        exact .fail h (hlaw.channel hagrees he)
      · dsimp only
        split
        · exact .fail (h.of_eq rfl rfl) (JDCError.blamesOutputs_expect (by decide))
        · exact .say (h.of_eq rfl rfl) fun _ _ => trivial
    · dsimp only
      split
      · rename_i he
        exact .fail (h.of_eq rfl rfl) (hlaw.groupJob he)
      · exact .keep (h.of_eq rfl rfl)

theorem newTemplateExtended_spares (hlaw : RefusesOutputs api refusal agrees)
    (h : Legible agrees s) {t : NewTemplate} {g : Job} {d : DownstreamId} {c : ChannelId} :
    Spares refusal agrees (newTemplateExtended t g d c s) := by
  unfold newTemplateExtended
  split
  · exact .keep h
  · dsimp only
    split
    · rename_i he
      exact .fail (h.of_eq rfl rfl) (hlaw.groupJob he)
    · exact .keep (h.of_eq rfl rfl)

theorem newTemplateDownstream_spares (hlaw : RefusesOutputs api refusal agrees)
    (h : Legible agrees s) {t : NewTemplate} {outputs : List TxOut} (hagrees : agrees t outputs)
    {token : Option AllocateMiningJobTokenSuccess} {d : DownstreamId} :
    Spares refusal agrees (newTemplateDownstream t outputs token d s) := by
  unfold newTemplateDownstream
  split
  · exact .keep h
  · split
    · rename_i he
      exact .fail h (hlaw.group hagrees he)
    · rename_i ds _ group _
      have hgroup : Legible agrees (s.setGroup d group) := h.of_eq rfl rfl
      dsimp only
      split
      · exact .fail hgroup (JDCError.blamesOutputs_expect (by decide))
      · refine (sendCustomJob_spares hgroup).andThen fun _ h => ?_
        refine Leaves.andThen (.say h fun _ _ => trivial) fun _ h => ?_
        refine (Leaves.forEach (fun c _ s h => newTemplateStandard_spares hlaw h hagrees) h).andThen
          fun _ h => ?_
        exact .forEach (fun c _ s h => newTemplateExtended_spares hlaw h) h

theorem handleNewTemplate_spares (hlaw : RefusesOutputs api refusal agrees) (h : Legible agrees s)
    {t : NewTemplate} : Spares refusal agrees (s.handleNewTemplate t) := by
  unfold handleNewTemplate
  obtain ⟨outputs, houtputs, hagrees⟩ := rewardOutputs_ok h t
  simp only [houtputs]
  refine Leaves.andThen (.say (h.of_eq rfl rfl) fun _ _ => trivial) fun _ h => ?_
  exact (Leaves.forEach (fun d _ s h => newTemplateDownstream_spares hlaw h hagrees) h).collect
    fun _ h => allocateTokenIf_spares h

/-! ### Transaction data -/

/-- The parts of the coinbase that the handler of transaction data builds. -/
def declaredCoinbase (s : ChannelManager api) (templateId : TemplateId)
    (transactionList : List Bytes) : Option (Bytes × Bytes) :=
  match s.allocateTokens.head?, s.templateStore templateId, deserializeOutputs s.coinbaseOutputs,
      transactionList.mapM Transaction.deserialize, s.upstreamChannel, s.jobFactory with
  | some _, some t, some o, some txs, some u, some f =>
      if maxB064K < txs.length then none
      else
        (api.newCoinbaseTxPrefixAndSuffix f t (setReward t.coinbaseTxValueRemaining o)
          (api.upstreamFullSize u)).2.toOption
  | _, _, _, _, _, _ => none

/-- The parts fit into a `DeclareMiningJob`. -/
def DeclarationFits (s : ChannelManager api) (templateId : TemplateId)
    (transactionList : List Bytes) : Prop :=
  ∀ parts ∈ s.declaredCoinbase templateId transactionList,
    parts.1.length ≤ maxB064K ∧ parts.2.length ≤ maxB064K

theorem legible_storeDeclaredJob (h : Legible agrees s) {r : RequestId} {job : DeclaredJob}
    (hjob : (deserializeOutputs job.coinbaseOutput).isSome = true) :
    Legible agrees (s.storeDeclaredJob r job) := by
  refine ⟨h.outputs, h.agreeable, fun x hx => ?_⟩
  rcases List.mem_cons.mp hx with rfl | hx
  · exact hjob
  · exact h.jobs x (List.mem_of_mem_filter hx)

/-- The two halves that are built for an answer. -/
theorem mem_declaredCoinbase {i : TemplateId} {txs : List Bytes} {parts : Bytes × Bytes} :
    parts ∈ s.declaredCoinbase i txs ↔ ∃ token t o decoded u f,
      s.allocateTokens.head? = some token ∧ s.templateStore i = some t ∧
      deserializeOutputs s.coinbaseOutputs = some o ∧
      txs.mapM Transaction.deserialize = some decoded ∧ s.upstreamChannel = some u ∧
      s.jobFactory = some f ∧ decoded.length ≤ maxB064K ∧
      (api.newCoinbaseTxPrefixAndSuffix f t (setReward t.coinbaseTxValueRemaining o)
        (api.upstreamFullSize u)).2 = .ok parts := by
  constructor
  · intro h
    unfold declaredCoinbase at h
    split at h
    · rename_i token t o decoded u f htoken ht ho htxs hu hf
      split at h
      · cases h
      · rename_i hlen
        refine ⟨token, t, o, decoded, u, f, htoken, ht, ho, htxs, hu, hf, not_lt.mp hlen, ?_⟩
        cases hbuilt : (api.newCoinbaseTxPrefixAndSuffix f t
            (setReward t.coinbaseTxValueRemaining o) (api.upstreamFullSize u)).2 with
        | error e =>
            rw [hbuilt] at h
            cases h
        | ok built =>
            rw [hbuilt] at h
            rw [Option.some.inj h]
    · cases h
  · intro h
    obtain ⟨token, t, o, decoded, u, f, htoken, ht, ho, htxs, hu, hf, hlen, hbuilt⟩ := h
    unfold declaredCoinbase
    simp only [htoken, ht, ho, htxs, hu, hf, if_neg (not_lt.mpr hlen), hbuilt]
    rfl

theorem declareJob_spares (h : Legible agrees s) {requestId : RequestId}
    {prevHash : Option SetNewPrevHash} {token : AllocateMiningJobTokenSuccess} {t : NewTemplate}
    {outputs : List TxOut} {txs : List Bytes} {excess : Bytes}
    (houtputs : (deserializeOutputs (TxOut.encodeVec outputs)).isSome = true)
    (hfits : ∀ decoded u f parts, txs.mapM Transaction.deserialize = some decoded →
      decoded.length ≤ maxB064K → s.upstreamChannel = some u → s.jobFactory = some f →
      (api.newCoinbaseTxPrefixAndSuffix f t outputs (api.upstreamFullSize u)).2 = .ok parts →
      parts.1.length ≤ maxB064K ∧ parts.2.length ≤ maxB064K) :
    Spares refusal agrees (s.declareJob requestId prevHash token t outputs txs excess) := by
  unfold declareJob
  split
  · exact .fail h (JDCError.blamesOutputs_expect (by decide))
  · rename_i decoded htxs
    split
    · exact .fail h rfl
    · rename_i hlen
      split
      · rename_i u f hu hf
        dsimp only
        split
        · exact .keep (h.of_eq rfl rfl)
        · rename_i p q hbuilt
          obtain ⟨hp, hq⟩ := hfits decoded u f (p, q) htxs (not_lt.mp hlen) hu hf hbuilt
          rw [if_neg (not_or.mpr ⟨not_lt.mpr hp, not_lt.mpr hq⟩)]
          split
          · exact .keep (legible_storeDeclaredJob (by exact h.of_eq rfl rfl)
              (by exact houtputs))
          · exact .say (legible_storeDeclaredJob (by exact h.of_eq rfl rfl)
              (by exact houtputs)) fun _ _ => trivial
      · exact .keep h

theorem handleRequestTxDataSuccess_spares (h : Legible agrees s) {i : TemplateId} {txs : List Bytes}
    {excess : Bytes} (hfits : s.DeclarationFits i txs) :
    Spares refusal agrees (s.handleRequestTxDataSuccess i txs excess) := by
  obtain ⟨o, hdec, hne⟩ := h.outputs
  unfold handleRequestTxDataSuccess
  simp only [hdec]
  refine Leaves.andThen (.say (h.of_eq rfl rfl) fun _ _ => trivial) fun _ h' => ?_
  split
  · exact .keep h'
  · rename_i token htoken
    split
    · exact .fail h' rfl
    · rename_i t ht
      rw [withReward_eq hne]
      refine declareJob_spares h' ?_ fun decoded u f parts htxs hlen hu hf hbuilt => ?_
      · rw [deserializeOutputs_encodeVec hdec]
        rfl
      · exact hfits parts (mem_declaredCoinbase.mpr
          ⟨token, t, o, decoded, u, f, htoken, ht, hdec, htxs, hu, hf, hlen, hbuilt⟩)

/-- Where the parts do not fit, the handler panics. -/
theorem handleRequestTxDataSuccess_panics (refusal : ChannelError → Bool) {i : TemplateId}
    {txs : List Bytes} {excess : Bytes}
    (h : HasOutput s.coinbaseOutputs) (hfits : ¬ s.DeclarationFits i txs) :
    ∃ e, (s.handleRequestTxDataSuccess i txs excess).error = some e ∧
      e.blamesOutputs refusal = true := by
  unfold DeclarationFits at hfits
  push Not at hfits
  obtain ⟨parts, hparts, hlong⟩ := hfits
  obtain ⟨token, t, o, decoded, u, f, htoken, ht, ho, htxs, hu, hf, hlen, hbuilt⟩ :=
    mem_declaredCoinbase.mp hparts
  have hne : o ≠ [] := by
    obtain ⟨o', ho', hne⟩ := h
    obtain rfl := Option.some.inj (ho.symm.trans ho')
    exact hne
  refine ⟨.panic (.expect "called `Result::unwrap()` on an `Err` value"), ?_, rfl⟩
  have hover : maxB064K < parts.1.length ∨ maxB064K < parts.2.length := by
    by_cases hp : maxB064K < parts.1.length
    · exact .inl hp
    · exact .inr (hlong (not_lt.mp hp))
  simp only [handleRequestTxDataSuccess, ho, htoken, ht, withReward_eq hne]
  rw [Outcome.andThen_eq_of_ok rfl]
  simp only [declareJob, htxs, if_neg (not_lt.mpr hlen), allocateToken, hu, hf, hbuilt,
    if_pos hover]
  rfl

/-! ### Previous hashes -/

theorem prevHashChannel_spares (h : Legible agrees s) {m : SetNewPrevHash} {r : Bool}
    {d : DownstreamId} {k : ChannelKind} {c : ChannelId} :
    Spares refusal agrees (prevHashChannel m r d k c s) := by
  unfold prevHashChannel
  split
  · exact .keep h
  · split
    · exact .fail h rfl
    · dsimp only
      split
      · exact .keep (h.of_eq rfl rfl)
      · split
        · split
          · exact .fail (h.of_eq rfl rfl) (JDCError.blamesOutputs_expect (by decide))
          · exact .say (h.of_eq rfl rfl) fun _ _ => trivial
        · exact .keep (h.of_eq rfl rfl)

theorem prevHashDownstream_spares (h : Legible agrees s) {m : SetNewPrevHash} {d : DownstreamId} :
    Spares refusal agrees (prevHashDownstream m d s) := by
  unfold prevHashDownstream
  split
  · exact .keep h
  · split
    · exact .fail h rfl
    · dsimp only
      split
      · exact .fail (h.of_eq rfl rfl) (JDCError.blamesOutputs_expect (by decide))
      · refine Leaves.andThen ?_ fun _ h => ?_
        · split
          · exact .say (h.of_eq rfl rfl) fun _ _ => trivial
          · exact .keep (h.of_eq rfl rfl)
        · refine (Leaves.forEach (fun c _ s h => prevHashChannel_spares h) h).andThen fun _ h => ?_
          exact .forEach (fun c _ s h => prevHashChannel_spares h) h

theorem handleSetNewPrevHash_spares (h : Legible agrees s) {m : SetNewPrevHash} :
    Spares refusal agrees (s.handleSetNewPrevHash m) := by
  obtain ⟨o, hdec, -⟩ := h.outputs
  unfold handleSetNewPrevHash
  simp only [hdec]
  have happlied : Legible agrees (s.applyPrevHash m) := by
    refine ⟨h.outputs, h.agreeable, fun x hx => ?_⟩
    obtain ⟨y, hy, rfl⟩ := List.mem_map.mp hx
    -- a job that is activated keeps its bytes
    have hsame : (y.2.activate m).coinbaseOutput = y.2.coinbaseOutput := by
      unfold DeclaredJob.activate
      split <;> rfl
    rw [hsame]
    exact h.jobs y hy
  refine Leaves.andThen (.say (happlied.of_eq rfl rfl) fun _ _ => trivial) fun _ h => ?_
  refine Leaves.collect ((sendCustomJob_spares h).andThen fun _ h => ?_) fun _ h =>
    allocateTokenIf_spares h
  exact .forEach (fun d _ s h => prevHashDownstream_spares h) h

/-! ### Tokens and declarations -/

theorem handleAllocateMiningJobTokenSuccess_spares (h : Legible agrees s)
    {m : AllocateMiningJobTokenSuccess} (hm : HasOutput m.coinbaseOutputs)
    (hagree : Agreeable agrees m.coinbaseOutputs) :
    Spares refusal agrees (s.handleAllocateMiningJobTokenSuccess m) := by
  have hstored : Legible agrees
      { s with coinbaseOutputs := m.coinbaseOutputs, allocateTokens := s.allocateTokens ++ [m] } :=
    ⟨hm, hagree, h.jobs⟩
  obtain ⟨o, hdec, -⟩ := hm
  unfold handleAllocateMiningJobTokenSuccess
  simp only [hdec]
  split
  · exact .say (hstored.of_eq rfl rfl) fun _ _ => trivial
  · exact .keep (hstored.of_eq rfl rfl)

/-- The bytes are stored, whatever they are. -/
theorem coinbaseOutputs_handleAllocateMiningJobTokenSuccess (m : AllocateMiningJobTokenSuccess) :
    (s.handleAllocateMiningJobTokenSuccess m).value.coinbaseOutputs = m.coinbaseOutputs := by
  unfold handleAllocateMiningJobTokenSuccess
  dsimp only
  split
  · split <;> rfl
  · rfl

theorem handleDeclareMiningJobSuccess_spares (h : Legible agrees s) {r : RequestId}
    {token : Bytes} : Spares refusal agrees (s.handleDeclareMiningJobSuccess r token) := by
  unfold handleDeclareMiningJobSuccess
  split
  · exact .fail h rfl
  · rename_i job hjob
    have hbytes : (deserializeOutputs job.coinbaseOutput).isSome = true := by
      obtain ⟨before, after, hstore, -⟩ := List.lookup_eq_some_iff.mp hjob
      exact h.jobs (r, job) (by simp [hstore])
    split
    · exact .fail h rfl
    · split
      · rename_i hnone
        rw [hnone] at hbytes
        cases hbytes
      · split
        · dsimp only
          split
          · exact .fail (h.of_eq rfl rfl) rfl
          · exact .say (legible_storeDeclaredJob (by exact h.of_eq rfl rfl) (by exact hbytes))
              fun _ _ => trivial
        · exact .fail h rfl

theorem legible_removeDeclaredJob (h : Legible agrees s) (r : RequestId) :
    Legible agrees (s.removeDeclaredJob r) :=
  ⟨h.outputs, h.agreeable, fun x hx => h.jobs x (List.mem_of_mem_filter hx)⟩

/-! ### Channels and shares -/

theorem activateChannel_spares (hlaw : RefusesOutputs api refusal agrees) (h : Legible agrees s)
    {d : DownstreamId} {k : ChannelKind} {c : ChannelId} {requestId : Nat} {ch : api.Channel}
    {t : NewTemplate} {m : SetNewPrevHash} {outputs : List TxOut} (hagrees : agrees t outputs)
    {joins : Bool} {size : Nat} :
    Spares refusal agrees (s.activateChannel d k c requestId ch t m outputs joins size) := by
  unfold activateChannel
  split
  · rename_i he
    exact .fail h (hlaw.channel hagrees he)
  · split
    · exact .fail h (JDCError.blamesOutputs_expect (by decide))
    · split
      · rename_i he
        exact .fail h (hlaw.prevHash he)
      · split
        · exact .fail h rfl
        · dsimp only
          split
          · split
            · rename_i he
              exact .fail (h.of_eq rfl rfl) (hlaw.member he)
            · exact .say (h.of_eq rfl rfl) fun _ _ => trivial
          · exact .say (h.of_eq rfl rfl) fun _ _ => trivial

theorem handleOpenMiningChannel_spares (hlaw : RefusesOutputs api refusal agrees)
    (h : Legible agrees s) {r : PendingChannelRequest} {slot : Nat} :
    Spares refusal agrees (s.handleOpenMiningChannel r slot) := by
  obtain ⟨o, hdec, hne⟩ := h.outputs
  have h' : Legible agrees (s.nextChannelId r.downstreamId) := h.of_eq rfl rfl
  unfold handleOpenMiningChannel
  split
  · unfold handleOpenStandardMiningChannel
    simp only [hdec, withReward_eq hne]
    split
    · exact .fail h rfl
    · rename_i t ht
      split
      · exact .fail h rfl
      · split
        · exact .fail h rfl
        · split
          · exact .fail h' rfl
          · split
            · exact .say h' fun _ _ => trivial
            · exact .fail h' rfl
            · exact activateChannel_spares hlaw h' (h.agreeable o hdec t)
  · unfold handleOpenExtendedMiningChannel
    split
    · exact .fail h rfl
    · rename_i t ht
      obtain ⟨outputs, houtputs, hagrees⟩ := rewardOutputs_ok h' t
      split
      · exact .fail h rfl
      · split
        · exact .fail h rfl
        · split
          · exact .say h fun _ _ => trivial
          · dsimp only
            split
            · exact .say h' fun _ _ => trivial
            · split
              · exact .say h' fun _ _ => trivial
              · exact .fail h' rfl
              · simp only [houtputs]
                exact activateChannel_spares hlaw h' hagrees

theorem handleDownstreamOpen_spares (hlaw : RefusesOutputs api refusal agrees)
    (h : Legible agrees s) {r : PendingChannelRequest} {slot : Nat} :
    Spares refusal agrees (s.handleDownstreamOpen r slot) := by
  unfold handleDownstreamOpen
  split
  · exact .say (h.of_eq rfl rfl) fun _ _ => trivial
  · exact .keep (h.of_eq rfl rfl)
  · exact handleOpenMiningChannel_spares hlaw h
  · exact handleOpenMiningChannel_spares hlaw h

theorem legible_upstreamCustomJob (h : Legible agrees s) (u : api.Upstream)
    (token : Option AllocateMiningJobTokenSuccess) (outputs : List TxOut) :
    Legible agrees (s.upstreamCustomJob u token outputs).1 := by
  unfold upstreamCustomJob
  split
  · exact legible_customJob h _ _ _ _ _ _
  · exact h

theorem handleOpenExtendedMiningChannelSuccess_spares
    (hlaw : RefusesOutputs api refusal agrees) (h : Legible agrees s)
    {m : OpenExtendedMiningChannelSuccess} {slots : Nat → Nat} :
    Spares refusal agrees (s.handleOpenExtendedMiningChannelSuccess m slots) := by
  obtain ⟨o, hdec, -⟩ := h.outputs
  have hgiveUp : Spares refusal agrees (s.giveUpUpstream m.channelId) :=
    .say (h.of_eq rfl rfl) fun _ _ => trivial
  unfold handleOpenExtendedMiningChannelSuccess
  simp only [hdec]
  split
  · exact .fail h rfl
  · split
    · exact hgiveUp
    · split
      · exact hgiveUp
      · refine Leaves.andThen (.say ?_ fun _ _ => trivial) fun _ h => ?_
        · exact (legible_upstreamCustomJob (by exact h.of_eq rfl rfl) _ _ _).of_eq rfl rfl
        · refine (allocateTokenIf_spares h).andThen fun _ h => ?_
          exact .forEach (fun r _ s h => handleOpenMiningChannel_spares hlaw h) (h.of_eq rfl rfl)

theorem handleSetExtranoncePrefix_spares (h : Legible agrees s) {p : Bytes}
    {slots : DownstreamId → ChannelKind → ChannelId → Nat} :
    Spares refusal agrees (s.handleSetExtranoncePrefix p slots) := by
  have hreassign : ∀ {d k c} {s : ChannelManager api}, Legible agrees s →
      Spares refusal agrees (reassignPrefix slots d k c s) := by
    intro d k c s h
    unfold reassignPrefix
    split
    · exact .keep h
    · dsimp only
      split
      · exact .keep h
      · split
        · exact .keep h
        · exact .say (h.of_eq rfl rfl) fun _ _ => trivial
  unfold handleSetExtranoncePrefix
  split
  · exact .keep h
  · split
    · exact .fail h rfl
    · split
      · exact .fail h rfl
      · dsimp only
        split
        · exact .fail (h.of_eq rfl rfl) rfl
        · split
          · exact .fail (h.of_eq rfl rfl) rfl
          · refine .forEach (fun d _ s h => ?_) (h.of_eq rfl rfl)
            exact (Leaves.forEach (fun c _ s h => hreassign h) h).andThen fun _ h =>
              .forEach (fun c _ s h => hreassign h) h

theorem relayShare_spares (h : Legible agrees s) {k : ChannelKind} {m : SetNewPrevHash}
    {origin : Origin} {share : SubmitSharesExtended} {solution : api.Upstream → Bytes}
    {oversized : JDCError} (hoversized : oversized.blamesOutputs refusal = false) :
    Spares refusal agrees (s.relayShare k m origin share solution oversized) := by
  unfold relayShare
  split
  · exact .keep h
  · dsimp only
    split
    · exact .say (h.of_eq rfl rfl) fun _ _ => trivial
    · split
      · exact .fail (h.of_eq rfl rfl) hoversized
      · exact .say (h.of_eq rfl rfl) fun _ _ => trivial
    · split
      · exact .fail (h.of_eq rfl rfl) rfl
      · exact .keep (h.of_eq rfl rfl)

theorem translateShare_spares (h : Legible agrees s) {k : ChannelKind} {d : DownstreamId}
    {m : SetNewPrevHash} {ch : api.Channel} {msg : SubmitSharesExtended}
    {res : ShareValidationResult} : Spares refusal agrees (s.translateShare k d m ch msg res) := by
  unfold translateShare
  split
  · exact .keep h
  · dsimp only
    split
    · exact .fail h rfl
    · split
      · exact .fail h (by cases k <;> rfl)
      · split
        · exact relayShare_spares h rfl
        · split
          · exact .keep h
          · exact .keep (h.of_eq rfl rfl)

theorem submitShares_spares (h : Legible agrees s) {k : ChannelKind} {d : DownstreamId}
    {msg : SubmitSharesExtended}
    {validate : api.Channel → api.Channel × Except ShareValidationError ShareValidationResult} :
    Spares refusal agrees (s.submitShares k d msg validate) := by
  unfold submitShares
  split
  · exact .fail h rfl
  · split
    · exact .fail h rfl
    · split
      · exact .say h fun _ _ => trivial
      · dsimp only
        refine checkVardiff_leaves ?_ (fun _ _ => trivial) fun _ _ hp => hp
        split
        · split
          · exact .fail (h.of_eq rfl rfl) rfl
          · exact .say (h.of_eq rfl rfl) fun _ _ => trivial
        · refine Leaves.andThen (acknowledgeShare_leaves
            (R := fun e => e.blamesOutputs refusal = false) ?_ (fun _ _ => trivial)
            (fun _ _ _ _ _ => trivial) rfl) fun _ h => translateShare_spares h
          exact h.of_eq rfl rfl

theorem handleSetCustomMiningJobSuccess_spares (h : Legible agrees s) {r : RequestId}
    {j : JobId} : Spares refusal agrees (s.handleSetCustomMiningJobSuccess r j) := by
  have hremoved := legible_removeDeclaredJob h r
  unfold handleSetCustomMiningJobSuccess
  split
  · exact .fail h rfl
  · dsimp only
    split
    · exact .fail (hremoved.of_eq rfl rfl) rfl
    · split
      · exact .fail (hremoved.of_eq rfl rfl) rfl
      · split
        · exact .fail (hremoved.of_eq rfl rfl) rfl
        · exact .fail (hremoved.of_eq rfl rfl) rfl
        · split
          · refine Leaves.collect (.forEach (fun entry _ s h => ?_) (hremoved.of_eq rfl rfl))
              fun _ h => .keep h
            exact relayShare_spares h (JDCError.blamesOutputs_expect (by decide))
          · exact .keep (hremoved.of_eq rfl rfl)

theorem handleSetCustomMiningJobError_spares (h : Legible agrees s) {r : RequestId}
    {code : String} : Spares refusal agrees (s.handleSetCustomMiningJobError r code) := by
  unfold handleSetCustomMiningJobError
  split
  · split
    · exact .keep h
    · exact .keep ((legible_removeDeclaredJob h r).of_eq rfl rfl)
  · exact .fail h rfl

/-! ### Events

`Reads` is asked of two events only: the bytes of a token must be readable, and a declaration must
fit. -/

/-- The bytes of a token hold an output, and the coinbase of a declaration fits into its message. -/
def Reads (s : ChannelManager api) : Event → Prop
  | .allocateMiningJobTokenSuccess m => HasOutput m.coinbaseOutputs
  | .requestTxDataSuccess i txs _ => s.DeclarationFits i txs
  | _ => True

/-- Every handler keeps the bytes legible under its condition. -/
theorem handler_spares (hlaw : RefusesOutputs api refusal agrees) (h : Legible agrees s) {e : Event}
    (hreads : s.Reads e)
    (hagree : ∀ m, e = .allocateMiningJobTokenSuccess m → Agreeable agrees m.coinbaseOutputs) :
    Spares refusal agrees (handler e s) := by
  cases e with
  | activate mode => exact .keep (h.of_eq rfl rfl)
  | requestInitialTokens =>
      have hallocate : ∀ s : ChannelManager api, Legible agrees s →
          Spares refusal agrees s.allocateToken := fun s h =>
        .say (h.of_eq rfl rfl) fun _ _ => trivial
      exact (hallocate { s with upstreamState := .noChannel } (h.of_eq rfl rfl)).andThen fun _ h =>
        hallocate _ h
  | connect r =>
      obtain ⟨i, ds, hvalue, hnotes, herror⟩ := s.connect_spec r
      refine ⟨?_, fun _ _ => trivial, fun e he => ?_⟩
      · show Legible agrees (s.connect r).value
        rw [hvalue]
        exact h.of_eq rfl rfl
      · rw [herror e he]
        rfl
  | disconnect d => exact .keep (h.of_eq rfl rfl)
  | newTemplate t => exact handleNewTemplate_spares hlaw h
  | requestTxDataSuccess i txs excess => exact handleRequestTxDataSuccess_spares h hreads
  | setNewPrevHash m => exact handleSetNewPrevHash_spares h
  | allocateMiningJobTokenSuccess m =>
      exact handleAllocateMiningJobTokenSuccess_spares h hreads (hagree m rfl)
  | declareMiningJobSuccess r token => exact handleDeclareMiningJobSuccess_spares h
  | declareMiningJobError code =>
      simp only [handler, handleDeclareMiningJobError]
      split
      · exact .keep h
      · exact .fail h rfl
  | openExtendedMiningChannelSuccess m slots =>
      exact handleOpenExtendedMiningChannelSuccess_spares hlaw h
  | openStandardMiningChannelSuccess => exact .fail h rfl
  | openMiningChannelError => exact .fail h rfl
  | closeUpstreamChannel => exact .fail (h.of_eq rfl rfl) rfl
  | setExtranoncePrefix p slots => exact handleSetExtranoncePrefix_spares h
  | setCustomMiningJobSuccess r j => exact handleSetCustomMiningJobSuccess_spares h
  | setCustomMiningJobError r code => exact handleSetCustomMiningJobError_spares h
  | openMiningChannel r slot => exact handleDownstreamOpen_spares hlaw h
  | closeChannel d c =>
      obtain ⟨ds, vardiff, hvalue, hnotes, herror⟩ := s.handleCloseChannel_spec d c
      refine ⟨?_, fun _ _ => trivial, fun e he => ?_⟩
      · show Legible agrees (s.handleCloseChannel d c).value
        rw [hvalue]
        exact h.of_eq rfl rfl
      · rw [herror e he]
        rfl
  | submitSharesStandard d m => exact submitShares_spares h
  | submitSharesExtended d m => exact submitShares_spares h

/-- An event does not end the client because of the bytes, and leaves bytes that hold an output. -/
def Withstands (refusal : ChannelError → Bool) (s : ChannelManager api) (e : Event) : Prop :=
  (∀ err, (handler e s).error = some err → err.blamesOutputs refusal = false) ∧
    HasOutput (handler e s).value.coinbaseOutputs

theorem reads_of_withstands (h : HasOutput s.coinbaseOutputs) {e : Event}
    (hw : s.Withstands refusal e) : s.Reads e := by
  cases e with
  | allocateMiningJobTokenSuccess m =>
      have hstored := hw.2
      simp only [handler, coinbaseOutputs_handleAllocateMiningJobTokenSuccess] at hstored
      exact hstored
  | requestTxDataSuccess i txs excess =>
      by_contra hfits
      obtain ⟨err, herr, hblames⟩ := handleRequestTxDataSuccess_panics refusal h hfits
      rw [hw.1 err herr] at hblames
      cases hblames
  | _ => trivial

end ChannelManager

namespace Client

variable {api : ChannelsSv2} {refusal : ChannelError → Bool}
  {agrees : NewTemplate → List TxOut → Prop}

/-! ### Runs -/

/-- The events that reach a handler satisfy `ChannelManager.Reads`. -/
def Reads (w : Client api) (e : Event) : Prop :=
  w.handles e = true → w.manager.Reads e

/-- A token that reaches its handler carries agreeable outputs. -/
def Agrees (agrees : NewTemplate → List TxOut → Prop) (w : Client api) (e : Event) : Prop :=
  w.handles e = true →
    ∀ m, e = .allocateMiningJobTokenSuccess m → Agreeable agrees m.coinbaseOutputs

/-- No event that reaches its handler ends the client because of the bytes, or leaves bytes without
an output. -/
def Withstands (refusal : ChannelError → Bool) (w : Client api) (e : Event) : Prop :=
  w.handles e = true → w.manager.Withstands refusal e

/-- The bytes are legible as long as the loop goes on. -/
def Legible (agrees : NewTemplate → List TxOut → Prop) (w : Client api) : Prop :=
  w.running = true → w.manager.Legible agrees

/-- What the loop does about an error changes no bytes. -/
theorem Legible.managerAfter {o : Handled api} (h : o.value.Legible agrees) :
    (managerAfter o).Legible agrees := by
  unfold Client.managerAfter
  split
  · exact h.of_eq rfl rfl
  · exact h

theorem manager_step_of_handles {w : Client api} {e : Event} (h : w.handles e = true) :
    (w.step e).manager = managerAfter (ChannelManager.handler e w.manager) := by
  simp only [handles, Bool.and_eq_true, Bool.not_eq_true'] at h
  simp only [step, h.1, if_true, ChannelManager.handle, h.2, Bool.false_eq_true, if_false]

theorem step_withstands (hlaw : RefusesOutputs api refusal agrees) {w : Client api} {e : Event}
    (h : w.Legible agrees) (hreads : w.Reads e) (hagree : w.Agrees agrees e) :
    (w.step e).Legible agrees ∧ w.Withstands refusal e := by
  cases hhandles : w.handles e with
  | false =>
      obtain ⟨hmanager, -, -, hrunning⟩ := Numbered.step_of_not_handles hhandles
      refine ⟨fun hrun => ?_, fun hyes => ?_⟩
      · rw [hmanager]
        exact h (hrunning hrun)
      · rw [hhandles] at hyes
        cases hyes
  | true =>
      have hrun : w.running = true := by
        simp only [handles, Bool.and_eq_true] at hhandles
        exact hhandles.1
      have hspares := ChannelManager.handler_spares hlaw (h hrun) (hreads hhandles)
        (hagree hhandles)
      refine ⟨fun _ => ?_, fun _ => ⟨hspares.error, hspares.value.outputs⟩⟩
      rw [manager_step_of_handles hhandles]
      exact Legible.managerAfter hspares.value

theorem start_legible {outputs : Bytes} (houtputs : HasOutput outputs)
    (hagree : Agreeable agrees outputs) (reserved : Nat) :
    (start outputs reserved : Client api).Legible agrees :=
  fun _ => ⟨houtputs, hagree, fun _ hx => absurd hx List.not_mem_nil⟩

/-- No error of a channel type is taken to be about the outputs, and all outputs agree. -/
theorem refusesOutputs_none : RefusesOutputs api (fun _ => false) fun _ _ => True :=
  ⟨fun _ _ => rfl, fun _ _ => rfl, fun _ => rfl, fun _ => rfl, fun _ => rfl⟩

/-- **The stored outputs.** A run in which no bytes of the job declarator server end the client, or
stay without an output, is one in which every token carries an output and every declared coinbase
fits; and a run in which they do, and the channel types take the outputs, is of that kind. -/
theorem bytes_withstood (hlaw : RefusesOutputs api refusal agrees) {outputs : Bytes}
    (houtputs : HasOutput outputs) (hagree : Agreeable agrees outputs) (reserved : Nat)
    (es : List Event) :
    let w : Client api := start outputs reserved
    (Along step (Withstands refusal) w es → Along step Reads w es) ∧
      (Along step (fun w e => w.Reads e ∧ w.Agrees agrees e) w es →
        Along step (Withstands refusal) w es) := by
  intro w
  constructor
  · intro hwithstood
    -- what the channel types refuse plays no part here
    have hany : w.Legible fun _ _ => True := start_legible houtputs (fun _ _ _ => trivial) reserved
    refine Along.of_invariant (fun w e h hw => ?_) hany hwithstood
    have hreads : w.Reads e := fun hhandles => by
      have hrun : w.running = true := by
        simp only [handles, Bool.and_eq_true] at hhandles
        exact hhandles.1
      exact ChannelManager.reads_of_withstands (h hrun).outputs (hw hhandles)
    exact ⟨(step_withstands refusesOutputs_none h hreads fun _ _ _ _ _ _ => trivial).1, hreads⟩
  · exact Along.of_invariant (fun w e h hc => step_withstands hlaw h hc.1 hc.2)
      (start_legible houtputs hagree reserved)

/-! ### An empty list of outputs -/

/-- Outputs without a value agree with every template: the reward is all they hold. -/
theorem agreeable_of_zeroValued {bs : Bytes} {o : List TxOut}
    (hdec : deserializeOutputs bs = some o) (hzero : ZeroValued o) (hne : o ≠ []) :
    Agreeable (fun t o => totalValue o = t.coinbaseTxValueRemaining.toNat) bs := by
  intro o' ho' t
  obtain rfl := Option.some.inj (hdec.symm.trans ho')
  exact totalValue_setReward hzero hne

/-- The plain implementation refuses outputs that do not sum up to the reward. -/
theorem reference_refusesOutputs : RefusesOutputs reference
    (fun e => e = .other "outputs and reward differ")
    fun t o => totalValue o = t.coinbaseTxValueRemaining.toNat where
  channel _ he := by cases he
  group _ he := by cases he
  groupJob he := by cases he
  prevHash {ch m e} he := by
    change ch.onSetNewPrevHash m = .error e at he
    unfold RefChannel.onSetNewPrevHash RefChannel.setPrevHash at he
    split at he
    · cases he
    · split at he
      · cases he
      · obtain rfl := Except.error.inj he
        decide
  member he := by cases he

/-- The tokens of the run carry outputs that can be read, and nothing is declared in it. -/
theorem coinbaseOnlyRun_reads {e : Event} (he : e ∈ coinbaseOnlyRun) (w : Client reference) :
    w.Reads e ∧
      w.Agrees (fun t o => totalValue o = t.coinbaseTxValueRemaining.toNat) e := by
  cases e with
  | allocateMiningJobTokenSuccess m =>
      have houtputs : m.coinbaseOutputs = sampleOutputs := by
        simp only [coinbaseOnlyRun, List.mem_cons, reduceCtorEq,
          Event.allocateMiningJobTokenSuccess.injEq, List.not_mem_nil, false_or, or_false] at he
        rcases he with rfl | rfl | rfl <;> rfl
      have hagree : Agreeable (fun t o => totalValue o = t.coinbaseTxValueRemaining.toNat)
          m.coinbaseOutputs := by
        rw [houtputs]
        exact agreeable_of_zeroValued rfl (by decide) (by decide)
      refine ⟨fun _ => ?_, fun _ m' hm' => ?_⟩
      · show HasOutput m.coinbaseOutputs
        rw [houtputs]
        exact ⟨_, rfl, by decide⟩
      · obtain rfl := Event.allocateMiningJobTokenSuccess.inj hm'
        exact hagree
  | requestTxDataSuccess i txs excess =>
      simp only [coinbaseOnlyRun, List.mem_cons, reduceCtorEq, List.not_mem_nil, or_false] at he
  | _ => exact ⟨fun _ => trivial, fun _ m hm => by cases hm⟩

theorem bytes_withstood_coinbaseOnlyRun :
    let w : Client reference := start sampleOutputs 4
    let refusal : ChannelError → Bool := fun e => e = .other "outputs and reward differ"
    Along step (Withstands refusal) w coinbaseOnlyRun ∧ Along step Reads w coinbaseOnlyRun := by
  intro w refusal
  have hout : HasOutput sampleOutputs := ⟨_, rfl, by decide⟩
  have hagree : Agreeable (fun t o => totalValue o = t.coinbaseTxValueRemaining.toNat)
      sampleOutputs := agreeable_of_zeroValued rfl (by decide) (by decide)
  obtain ⟨hreads, hwithstands⟩ :=
    bytes_withstood reference_refusesOutputs hout hagree 4 coinbaseOnlyRun
  have hwithstood : Along step (Withstands refusal) w coinbaseOnlyRun :=
    hwithstands (along_iff_splits.mpr fun pre e post hsplit =>
      coinbaseOnlyRun_reads (by rw [hsplit]; simp) _)
  exact ⟨hwithstood, hreads hwithstood⟩

/-- The job declarator server answers the first token request with an empty list of outputs. -/
def emptyOutputsRun : List Event :=
  [.activate .coinbaseOnly, .requestInitialTokens, .allocateMiningJobTokenSuccess ⟨0, [7], [0]⟩,
    .newTemplate (sampleTemplate 1 true)]

/-- The empty list is stored, and the next template finds no first output; bytes that end early are
stored, and end the client at once. -/
theorem empty_outputs_end_client :
    let w : Client reference := start sampleOutputs 4
    ¬ Along step (Withstands fun _ => false) w emptyOutputsRun ∧
      (exec step w emptyOutputsRun).failures = [.panic .indexOutOfBounds] ∧
      (exec step w emptyOutputsRun).running = false ∧
      (exec step w [.activate .coinbaseOnly, .requestInitialTokens,
        .allocateMiningJobTokenSuccess ⟨0, [7], [1]⟩]).running = false := by
  intro w
  refine ⟨fun h => ?_, by decide +kernel, by decide +kernel, by decide +kernel⟩
  obtain ⟨o, hdec, hne⟩ := (h.2.2.1 (by decide +kernel)).2
  have hempty : deserializeOutputs [0] = some [] := by decide
  exact hne (Option.some.inj (hdec.symm.trans hempty))

end Client

end GridPoolSv2.JobDeclaratorClient
