import GridPoolSv2.JobDeclaratorClient.TokenSupply
import GridPoolSv2.JobDeclaratorClient.Walk

/-!
# JobDeclaratorClient.RewardOutputs: one coinbase for a template

The client builds coinbases for a template in several places: for the jobs of its
downstream channels, for `DeclareMiningJob`, and for `SetCustomMiningJob` in five handlers.
All of them start from the outputs stored in `coinbase_outputs`. Most write the reward of
the template into the first one; `handle_set_new_prev_hash` and
`handle_open_extended_mining_channel_success` do not, and the stored outputs can change
between two builds.

`Traced` records, as ghost data, for which templates a coinbase was built and from which
stored outputs. With respect to such a record `W`

* `RewardFor W t r`: `r` are recorded outputs, with the reward of `t` in the first one and
  no value besides it;
* `Agrees W`: the jobs of all channels, and all declared jobs, have such outputs;
* `NoteAgrees W`: so have the messages that declare a job.

When the record has one entry for each template, this makes the outputs of a declared job
those of the downstream jobs.

Proof shape: `Working` is the invariant inside a handler, where the stored outputs and the last
future template are fixed, and `Paying` the one between two events. Every handler keeps the
first, and `Working.paying` leads back to the second. The condition that a record has one entry
for each template is only used at the end, by `declaredOutputsAgree_of_inv`.
-/

namespace GridPoolSv2.JobDeclaratorClient

open Consensus (Bytes TxOut)
open Visit Handler

/-! ### Outputs and their values -/

/-- What outputs pay in all. -/
def totalValue (outputs : List TxOut) : Nat :=
  (outputs.map (·.value.toNat)).sum

@[simp] theorem totalValue_append (xs ys : List TxOut) :
    totalValue (xs ++ ys) = totalValue xs + totalValue ys := by
  simp [totalValue]

/-- The outputs a job declarator server may send: they pay nothing yet. -/
def ZeroValued (outputs : List TxOut) : Prop :=
  ∀ o ∈ outputs, o.value = 0

instance (outputs : List TxOut) : Decidable (ZeroValued outputs) :=
  inferInstanceAs (Decidable (∀ o ∈ outputs, o.value = 0))

theorem totalValue_zeroValued {outputs : List TxOut} (h : ZeroValued outputs) :
    totalValue outputs = 0 := by
  induction outputs with
  | nil => rfl
  | cons o rest ih =>
      obtain ⟨ho, hrest⟩ := List.forall_mem_cons.mp h
      simpa [totalValue, ho] using ih hrest

/-- The reward in the first output. -/
def setReward (reward : UInt64) : List TxOut → List TxOut
  | [] => []
  | o :: rest => { o with value := reward } :: rest

/-- The reward is written if there is an output. -/
theorem withReward_eq_some {reward : UInt64} {o r : List TxOut} (h : withReward reward o = some r) :
    r = setReward reward o ∧ o ≠ [] := by
  cases o with
  | nil => cases h
  | cons x rest => exact ⟨(Option.some.inj h).symm, by simp⟩

theorem totalValue_setReward {reward : UInt64} {o : List TxOut} (h : ZeroValued o) (hne : o ≠ []) :
    totalValue (setReward reward o) = reward.toNat := by
  cases o with
  | nil => exact absurd rfl hne
  | cons x rest =>
      have hrest : totalValue rest = 0 :=
        totalValue_zeroValued fun y hy => h y (List.mem_cons_of_mem _ hy)
      simpa [totalValue, setReward] using hrest

theorem setReward_zero {o : List TxOut} (h : ZeroValued o) : setReward 0 o = o := by
  cases o with
  | nil => rfl
  | cons x rest =>
      have hx : x.value = 0 := h x List.mem_cons_self
      rw [setReward, ← hx]

theorem deserializeOutputs_eq_some {bs : Bytes} {o : List TxOut}
    (h : deserializeOutputs bs = some o) :
    Consensus.decodeVec TxOut.decode bs = some (o, []) := by
  unfold deserializeOutputs at h
  split at h
  · rename_i o' hdec
    rw [hdec, Option.some.inj h]
  · cases h

/-- Stored outputs survive the reward, encoding and decoding. -/
theorem deserializeOutputs_encodeVec {bs : Bytes} {o : List TxOut}
    (h : deserializeOutputs bs = some o) (reward : UInt64) :
    deserializeOutputs (TxOut.encodeVec (setReward reward o)) = some (setReward reward o) := by
  obtain ⟨hlen, hall⟩ := TxOut.decodeVec_wellFormed (deserializeOutputs_eq_some h)
  have hdec : Consensus.decodeVec TxOut.decode (TxOut.encodeVec (setReward reward o)) =
      some (setReward reward o, []) := by
    refine TxOut.decodeVec_encodeVec ?_ ?_
    · cases o with
      | nil => simp [setReward]
      | cons x rest => simpa [setReward] using hlen
    · cases o with
      | nil => simp [setReward]
      | cons x rest =>
          obtain ⟨hx, hrest⟩ := List.forall_mem_cons.mp hall
          exact List.forall_mem_cons.mpr ⟨hx, hrest⟩
  simp only [deserializeOutputs, hdec]

/-! ### Outputs on record

A record pairs a template with stored outputs. The reward itself is not in it, since it follows from
the template. -/

/-- Templates for which a coinbase was built, with the outputs stored at that moment. -/
abbrev Record := List (NewTemplate × List TxOut)

/-- `r` are recorded outputs for `t`, and they pay exactly the reward. -/
structure RewardFor (W : Record) (t : NewTemplate) (r : List TxOut) : Prop where
  recorded : ∃ o, (t.activated, o) ∈ W ∧ r = setReward t.coinbaseTxValueRemaining o
  total : totalValue r = t.coinbaseTxValueRemaining.toNat

/-- The outputs of a coinbase for `t`: the reward outputs, then those of the template. -/
def OutputsFor (W : Record) (t : NewTemplate) (outputs : List TxOut) : Prop :=
  ∃ r, RewardFor W t r ∧ outputs = r ++ t.coinbaseTxOutputs

theorem RewardFor.mono {W W' : Record} {t : NewTemplate} {r : List TxOut} (h : RewardFor W t r)
    (hW : ∀ x ∈ W, x ∈ W') : RewardFor W' t r := by
  obtain ⟨⟨o, ho, hr⟩, htotal⟩ := h
  exact ⟨⟨o, hW _ ho, hr⟩, htotal⟩

theorem OutputsFor.mono {W W' : Record} {t : NewTemplate} {outputs : List TxOut}
    (h : OutputsFor W t outputs) (hW : ∀ x ∈ W, x ∈ W') : OutputsFor W' t outputs := by
  obtain ⟨r, hr, ho⟩ := h
  exact ⟨r, hr.mono hW, ho⟩

/-- A record with one entry for each template determines the outputs. -/
theorem OutputsFor.eq {W : Record} (hW : ∀ x ∈ W, ∀ y ∈ W, x.1 = y.1 → x.2 = y.2)
    {t t' : NewTemplate} {outputs outputs' : List TxOut} (h : OutputsFor W t outputs)
    (h' : OutputsFor W t' outputs') (ht : t.activated = t'.activated) : outputs = outputs' := by
  obtain ⟨_, ⟨⟨o, ho, rfl⟩, -⟩, rfl⟩ := h
  obtain ⟨_, ⟨⟨o', ho', rfl⟩, -⟩, rfl⟩ := h'
  have hsame : o = o' := hW _ ho _ ho' ht
  have hreward : t.coinbaseTxValueRemaining = t'.coinbaseTxValueRemaining := by
    simpa using congrArg NewTemplate.coinbaseTxValueRemaining ht
  have houts : t.coinbaseTxOutputs = t'.coinbaseTxOutputs := by
    simpa using congrArg NewTemplate.coinbaseTxOutputs ht
  rw [hsame, hreward, houts]

/-- A coinbase on record has the whole value of its template. -/
theorem OutputsFor.total {W : Record} {t : NewTemplate} {outputs : List TxOut}
    (h : OutputsFor W t outputs) :
    totalValue outputs = t.coinbaseTxValueRemaining.toNat + totalValue t.coinbaseTxOutputs := by
  obtain ⟨r, hr, rfl⟩ := h
  rw [totalValue_append, hr.total]

/-- The outputs of a message that declares a job, with its template. -/
def Note.declared? (api : ChannelsSv2) : Note → Option (NewTemplate × List TxOut)
  | .setCustomMiningJob t _ m => some (t, m.coinbaseTxOutputs)
  | .declareMiningJob t _ m => some (t, api.coinbaseOutputs m.coinbaseTxPrefix m.coinbaseTxSuffix)
  | _ => none

def NoteAgrees (api : ChannelsSv2) (W : Record) (n : Note) : Prop :=
  ∀ t outputs, n.declared? api = some (t, outputs) → OutputsFor W t outputs

/-- Stored outputs for which a coinbase for `t` is on record. -/
def RawFor (W : Record) (t : NewTemplate) (stored : Bytes) : Prop :=
  ∃ o, deserializeOutputs stored = some o ∧ (t.activated, o) ∈ W ∧ ZeroValued o

/-- A job that was declared keeps the outputs of its declaration; a custom job keeps the outputs as
they were stored. -/
structure DeclaredJob.Agrees (api : ChannelsSv2) (W : Record) (job : DeclaredJob) : Prop where
  declared : ∀ m, job.declareMiningJob = some m → ∃ r, RewardFor W job.template r ∧
    deserializeOutputs job.coinbaseOutput = some r ∧
    api.coinbaseOutputs m.coinbaseTxPrefix m.coinbaseTxSuffix = r ++ job.template.coinbaseTxOutputs
  custom : job.declareMiningJob = none → RawFor W job.template job.coinbaseOutput

theorem DeclaredJob.Agrees.mono {api : ChannelsSv2} {W W' : Record} {job : DeclaredJob}
    (h : job.Agrees api W) (hW : ∀ x ∈ W, x ∈ W') : job.Agrees api W' where
  declared m hm := by
    obtain ⟨r, hr, hdec, houts⟩ := h.declared m hm
    exact ⟨r, hr.mono hW, hdec, houts⟩
  custom hm := by
    obtain ⟨o, hdec, ho, hz⟩ := h.custom hm
    exact ⟨o, hdec, hW _ ho, hz⟩

theorem DeclaredJob.Agrees.activate {api : ChannelsSv2} {W : Record} {job : DeclaredJob}
    (h : job.Agrees api W) (m : SetNewPrevHash) : (job.activate m).Agrees api W := by
  unfold DeclaredJob.activate
  split
  · refine ⟨fun d hd => ?_, h.custom⟩
    obtain ⟨r, ⟨hr, htotal⟩, hdec, houts⟩ := h.declared d hd
    exact ⟨r, ⟨hr, htotal⟩, hdec, houts⟩
  · exact h

/-- The outputs of a token answer pay nothing yet. -/
def Event.AnswersZero : Event → Prop
  | .allocateMiningJobTokenSuccess m =>
      ZeroValued ((deserializeOutputs m.coinbaseOutputs).getD [])
  | _ => True

instance (e : Event) : Decidable e.AnswersZero :=
  match e with
  | .allocateMiningJobTokenSuccess _ => inferInstanceAs (Decidable (ZeroValued _))
  | .activate _ | .requestInitialTokens | .connect _ | .disconnect _ | .newTemplate _
  | .requestTxDataSuccess _ _ _ | .setNewPrevHash _ | .declareMiningJobSuccess _ _
  | .declareMiningJobError _ | .openExtendedMiningChannelSuccess _ _
  | .openStandardMiningChannelSuccess | .openMiningChannelError
  | .closeUpstreamChannel | .setExtranoncePrefix _ _ | .setCustomMiningJobSuccess _ _
  | .setCustomMiningJobError _ _ | .openMiningChannel _ _ | .closeChannel _ _
  | .submitSharesStandard _ _ | .submitSharesExtended _ _ => isTrue trivial

namespace ChannelManager

variable {api : ChannelsSv2} {W : Record} {s : ChannelManager api}

/-- The jobs of the channels and the declared jobs have recorded outputs. -/
structure Agrees (W : Record) (s : ChannelManager api) : Prop where
  jobs : ∀ d k c ch, s.channel? d k c = some ch → ∀ j ∈ api.jobs ch,
    OutputsFor W j.template j.coinbaseOutputs
  store : ∀ e ∈ s.lastDeclareJobStore, e.2.Agrees api W

theorem Agrees.mono (h : Agrees W s) {W' : Record} (hW : ∀ x ∈ W, x ∈ W') : Agrees W' s where
  jobs d k c ch hch j hj := (h.jobs d k c ch hch j hj).mono hW
  store e he := (h.store e he).mono hW

/-- `Agrees`, with what the loops read and do not change: the stored outputs `b` and the last future
template. `E` is what the existence of a channel stands for. -/
structure Working (W : Record) (E : Prop) (b : Bytes) (t : Option NewTemplate)
    (s : ChannelManager api) : Prop extends Agrees W s where
  channel : ∀ d k c ch, s.channel? d k c = some ch → E
  outputs : s.coinbaseOutputs = b
  future : s.lastFutureTemplate = t

variable {E : Prop} {b : Bytes} {lf : Option NewTemplate}

/-- A change that adds no channel and keeps the store, the outputs and the future template. -/
theorem Working.of_channels {s' : ChannelManager api} (h : Working W E b lf s)
    (hch : ∀ d k c ch, s'.channel? d k c = some ch → s.channel? d k c = some ch)
    (hstore : ∀ e ∈ s'.lastDeclareJobStore, e.2.Agrees api W)
    (hb : s'.coinbaseOutputs = s.coinbaseOutputs)
    (hlf : s'.lastFutureTemplate = s.lastFutureTemplate) : Working W E b lf s' where
  jobs d k c ch h' := h.jobs d k c ch (hch d k c ch h')
  store := hstore
  channel d k c ch h' := h.channel d k c ch (hch d k c ch h')
  outputs := hb.trans h.outputs
  future := hlf.trans h.future

/-- The condition on a channel. -/
def Paid (W : Record) (E : Prop) (_ : ChannelKind) (ch : api.Channel) : Prop :=
  (∀ j ∈ api.jobs ch, OutputsFor W j.template j.coinbaseOutputs) ∧ E

/-- A channel whose jobs are on record may be written. -/
theorem Working.setChannel (h : Working W E b lf s) {d : DownstreamId} {k : ChannelKind}
    {c : ChannelId} {ch : api.Channel} (hch : Paid W E k ch) :
    Working W E b lf (s.setChannel d k c ch) where
  jobs d' k' c' ch' h' := by
    rcases channel?_setChannel h' with h' | ⟨-, rfl⟩
    · exact h.jobs d' k' c' ch' h'
    · exact hch.1
  store := h.store
  channel d' k' c' ch' h' := by
    rcases channel?_setChannel h' with h' | ⟨-, rfl⟩
    · exact h.channel d' k' c' ch' h'
    · exact hch.2
  outputs := h.outputs
  future := h.future

/-- The invariant is one that the rules of `Walk` can carry. -/
theorem carries_working :
    Carries (Working W E b lf) (Paid W E : ChannelKind → api.Channel → Prop) (NoteAgrees api W)
      (fun _ => True) where
  channel h hch := ⟨h.jobs _ _ _ _ hch, h.channel _ _ _ _ hch⟩
  setChannel h hch := h.setChannel hch
  setGroup h := h.of_channels (fun _ _ _ _ => channel?_modifyDownstream fun _ => rfl)
    h.store rfl rfl
  nextChannelId h :=
    h.of_channels (fun _ _ _ _ => channel?_modifyDownstream fun _ => rfl) h.store rfl rfl
  mapJob h := ⟨⟨h.jobs, h.store⟩, h.channel, h.outputs, h.future⟩
  mapJobs h := ⟨⟨h.jobs, h.store⟩, h.channel, h.outputs, h.future⟩
  vardiff h := ⟨⟨h.jobs, h.store⟩, h.channel, h.outputs, h.future⟩
  note _ _ _ _ h := by cases h
  error _ _ := trivial

/-- Two changes of one field each that `Working` does not see, by the fields it sees. -/
theorem Working.of_eq {s' : ChannelManager api} (h : Working W E b lf s)
    (hd : s'.downstream = s.downstream) (hstore : s'.lastDeclareJobStore = s.lastDeclareJobStore)
    (hb : s'.coinbaseOutputs = s.coinbaseOutputs)
    (hlf : s'.lastFutureTemplate = s.lastFutureTemplate) : Working W E b lf s' := by
  refine h.of_channels (fun d k c ch hch => ?_) (hstore ▸ h.store) hb hlf
  unfold channel? at hch ⊢
  rwa [hd] at hch

/-- Storing a declared job with recorded outputs. -/
theorem Working.storeDeclaredJob (h : Working W E b lf s) {r : RequestId} {job : DeclaredJob}
    (hjob : job.Agrees api W) : Working W E b lf (s.storeDeclaredJob r job) := by
  refine h.of_channels (fun _ _ _ _ hch => hch) (fun e he => ?_) rfl rfl
  rcases List.mem_cons.mp he with rfl | he
  · exact hjob
  · exact h.store e (List.mem_of_mem_filter he)

/-! ### The builds -/

/-- The outputs that are stored, with the reward of a recorded template. -/
theorem rewardFor_withReward {t : NewTemplate} {o r : List TxOut} (hW : (t.activated, o) ∈ W)
    (hz : ZeroValued o) (h : withReward t.coinbaseTxValueRemaining o = some r) :
    RewardFor W t r := by
  obtain ⟨rfl, hne⟩ := withReward_eq_some h
  exact ⟨⟨o, hW, rfl⟩, totalValue_setReward hz hne⟩

/-- The outputs as they are stored, for a template without a reward. -/
theorem rewardFor_raw {t : NewTemplate} {o : List TxOut} (hW : (t.activated, o) ∈ W)
    (hz : ZeroValued o) (h : t.coinbaseTxValueRemaining = 0) : RewardFor W t o := by
  refine ⟨⟨o, hW, ?_⟩, ?_⟩
  · rw [h, setReward_zero hz]
  · rw [h, totalValue_zeroValued hz]
    rfl

/-- The job of a template has the outputs it is given. -/
theorem takesTemplate_paid (hlaw : api.Lawful) {t : NewTemplate} {outputs : List TxOut}
    (h : E → RewardFor W t outputs) :
    TakesTemplate (Paid W E : ChannelKind → api.Channel → Prop) t outputs where
  onNewTemplate := by
    rintro k ch ch' ⟨hjobs, hE⟩ hok
    refine ⟨fun j hj => ?_, hE⟩
    rcases (hlaw.onNewTemplate hok).2 j hj with hj | ⟨ht, hout, -⟩
    · exact hjobs j hj
    · exact ⟨outputs, ht ▸ h hE, by rw [hout, ht]⟩
  onGroupChannelJob := by
    rintro k ch ch' g ⟨hjobs, hE⟩ ht hout hok
    refine ⟨fun j hj => ?_, hE⟩
    rcases (hlaw.onGroupChannelJob hok).2 j hj with hj | rfl
    · exact hjobs j hj
    · exact ⟨outputs, ht ▸ h hE, by rw [hout, ht]⟩

theorem customJob_working (hlaw : api.Lawful) (h : Working W E b lf s) {f : api.JobFactory}
    {u : api.Upstream} {token : AllocateMiningJobTokenSuccess} {m : SetNewPrevHash}
    {t : NewTemplate} {outputs : List TxOut} (hr : RewardFor W t outputs) (hraw : RawFor W t b) :
    Working W E b lf (s.customJob f u token m t outputs).1 ∧
      ∀ message, (s.customJob f u token m t outputs).2.2 = some message →
        OutputsFor W t message.coinbaseTxOutputs := by
  simp only [customJob]
  cases hbuilt : api.newCustomJob f (api.upstreamChannelId u) s.requestIdFactory
    token.miningJobToken m.chainTip t outputs (api.upstreamFullSize u) with
  | mk f' built =>
      cases built with
      | error e =>
          exact ⟨⟨⟨h.jobs, h.store⟩, h.channel, h.outputs, h.future⟩, fun _ hm => by cases hm⟩
      | ok message =>
          have hjob : DeclaredJob.Agrees api W
              ⟨none, t, some m, some message, s.coinbaseOutputs, []⟩ :=
            ⟨fun _ hm => (by cases hm), fun _ => h.outputs.symm ▸ hraw⟩
          have h' := h.storeDeclaredJob (r := s.requestIdFactory) hjob
          refine ⟨⟨⟨h'.jobs, h'.store⟩, h'.channel, h'.outputs, h'.future⟩, fun message' heq => ?_⟩
          obtain rfl := Option.some.inj heq
          exact ⟨outputs, hr, hlaw.newCustomJob hbuilt⟩

theorem sendCustomJob_working (hlaw : api.Lawful) (h : Working W E b lf s)
    {token : Option AllocateMiningJobTokenSuccess} {m : Option SetNewPrevHash}
    {t : Option NewTemplate} {outputs : List TxOut}
    (hr : token.isSome → s.upstreamChannel.isSome → ∀ t' ∈ t,
      RewardFor W t' outputs ∧ RawFor W t' b) :
    Leaves (Working W E b lf) (NoteAgrees api W) (fun _ => True)
      (s.sendCustomJob token m t outputs) := by
  unfold sendCustomJob
  split
  · rename_i token u m t hu
    obtain ⟨hr', hraw⟩ := hr rfl (by simp [hu]) t rfl
    split
    · exact .fail h trivial
    · rename_i f hf
      obtain ⟨h', hmessage⟩ : Working W E b lf (s.customJob f u token m t outputs).1 ∧
          ∀ message, (s.customJob f u token m t outputs).2.2 = some message →
            OutputsFor W t message.coinbaseTxOutputs := customJob_working hlaw h hr' hraw
      have h'' : Working W E b lf { (s.customJob f u token m t outputs).1 with
          jobFactory := some (s.customJob f u token m t outputs).2.1 } :=
        ⟨⟨h'.jobs, h'.store⟩, h'.channel, h'.outputs, h'.future⟩
      dsimp only
      split
      · exact .keep h''
      · rename_i message hm
        refine .say h'' fun n hn => ?_
        obtain rfl := List.mem_singleton.mp hn
        intro t' outputs' hdecl
        obtain ⟨rfl, rfl⟩ := Prod.mk.inj (Option.some.inj hdecl)
        exact hmessage message hm
  · exact .keep h

/-! ### The events that build a coinbase

`Recorded` is the condition on the record, and `RewardIncluded` the one on the handlers that do not
write the reward. -/

/-- Whether some downstream has a channel. -/
def anyChannel (s : ChannelManager api) : Bool :=
  s.downstream.keys.any fun d =>
    !(s.channelIds d .standard).isEmpty || !(s.channelIds d .extended).isEmpty

theorem anyChannel_of_channel? {d : DownstreamId} {k : ChannelKind} {c : ChannelId}
    {ch : api.Channel} (h : s.channel? d k c = some ch) : s.anyChannel = true := by
  obtain ⟨hd, hc⟩ := mem_channelIds h
  have hids : (s.channelIds d k).isEmpty = false :=
    List.isEmpty_eq_false_iff.mpr (List.ne_nil_of_mem hc)
  refine List.any_eq_true.mpr ⟨d, hd, ?_⟩
  cases k with
  | standard => simp [hids]
  | extended => simp [hids]

/-- The templates an event builds a coinbase for, if nothing fails. -/
def builtTemplates (s : ChannelManager api) : Event → List NewTemplate
  | .newTemplate t =>
      if s.anyChannel || (s.wantsTemplateToken t && !s.allocateTokens.isEmpty) then [t] else []
  | .requestTxDataSuccess t _ _ =>
      if s.allocateTokens.isEmpty || s.upstreamChannel.isNone then []
      else (s.templateStore t).toList
  | .setNewPrevHash _ =>
      if s.mode = .coinbaseOnly && !s.allocateTokens.isEmpty && s.upstreamChannel.isSome then
        s.lastFutureTemplate.toList
      else []
  | .openMiningChannel _ _ =>
      if s.upstreamState = .connected || s.upstreamState = .soloMining then
        s.lastFutureTemplate.toList
      else []
  | .openExtendedMiningChannelSuccess _ _ =>
      if s.pendingDownstreamRequests.isEmpty then [] else s.lastFutureTemplate.toList
  | _ => []

/-- The templates an event builds a custom job for from the outputs as they are stored. -/
def rawTemplates (s : ChannelManager api) : Event → List NewTemplate
  | .setNewPrevHash m => s.builtTemplates (.setNewPrevHash m)
  | .openExtendedMiningChannelSuccess m slots =>
      if s.wantsUpstreamToken && !s.allocateTokens.isEmpty then
        s.builtTemplates (.openExtendedMiningChannelSuccess m slots)
      else []
  | .declareMiningJobSuccess r _ =>
      -- the answer to a custom job, which was stored with the outputs it was built from
      match s.declaredJob? r with
      | some ⟨none, t, _, _, _, _⟩ => [t]
      | _ => []
  | _ => []

/-- What a handler needs of the record: the builds are recorded, with the stored outputs. -/
def Recorded (W : Record) (s : ChannelManager api) (e : Event) : Prop :=
  ∀ t ∈ s.builtTemplates e, ∀ o, deserializeOutputs s.coinbaseOutputs = some o →
    (t.activated, o) ∈ W

/-- The outputs that are stored pay nothing yet. -/
def StoredZero (s : ChannelManager api) : Prop :=
  ∀ o, deserializeOutputs s.coinbaseOutputs = some o → ZeroValued o

/-- What holds between two events. -/
structure Paying (W : Record) (s : ChannelManager api) : Prop extends Agrees W s where
  zero : s.StoredZero

theorem Working.paying (h : Working W E s.coinbaseOutputs lf s') (hz : s.StoredZero) :
    Paying W s' where
  toAgrees := h.toAgrees
  zero o ho := hz o (h.outputs ▸ ho)

/-! ### The handlers -/

theorem allocateTokenIf_working (h : Working W E b lf s) {taken : Bool} :
    Leaves (Working W E b lf) (NoteAgrees api W) (fun _ => True) (s.allocateTokenIf taken) := by
  unfold allocateTokenIf
  split
  · exact .say (by exact h.of_eq rfl rfl rfl rfl) (by simp [NoteAgrees, Note.declared?])
  · exact .keep h

/-- The jobs of the channels, and a custom job in the coinbase-only mode. -/
theorem handleNewTemplate_paying (hlaw : api.Lawful) (h : Paying W s) {t : NewTemplate}
    (hW : s.Recorded W (.newTemplate t)) :
    Leaves (Paying W) (NoteAgrees api W) (fun _ => True) (s.handleNewTemplate t) := by
  unfold handleNewTemplate
  dsimp only
  split
  · exact .fail ⟨⟨h.jobs, h.store⟩, h.zero⟩ trivial
  · rename_i outputs houtputs
    obtain ⟨o, hdec, ho⟩ := rewardOutputs_eq_ok houtputs
    have hbuilt : (s.anyChannel || (s.wantsTemplateToken t && !s.allocateTokens.isEmpty)) = true →
        RewardFor W t outputs ∧ RawFor W t s.coinbaseOutputs := by
      intro hb
      have hrecorded : (t.activated, o) ∈ W := hW t (by simp [builtTemplates, hb]) o hdec
      exact ⟨rewardFor_withReward hrecorded (h.zero o hdec) ho, o, hdec, hrecorded, h.zero o hdec⟩
    refine Leaves.mono (P := Working W (s.anyChannel = true) s.coinbaseOutputs
      (if t.futureTemplate then some t else s.lastFutureTemplate)) ?_
      (fun _ h' => h'.paying h.zero) (fun _ hn => hn) (fun _ he => he)
    have hstart : Working W (s.anyChannel = true) s.coinbaseOutputs
        (if t.futureTemplate then some t else s.lastFutureTemplate)
        ({ s with
          templateStore := Function.update s.templateStore t.templateId (some t)
          lastFutureTemplate := if t.futureTemplate then some t else s.lastFutureTemplate
          }.takeToken (s.wantsTemplateToken t)).2 :=
      ⟨⟨h.jobs, h.store⟩, fun _ _ _ _ hch => anyChannel_of_channel? hch, rfl, rfl⟩
    refine (Leaves.say (by exact hstart) ?_).andThen fun _ h' => ?_
    · split <;> simp [NoteAgrees, Note.declared?]
    · refine (Leaves.forEach (fun d _ s' hs' => ?_) h').collect fun _ h' =>
        allocateTokenIf_working h'
      refine carries_working.newTemplateDownstream hlaw
        (takesTemplate_paid hlaw fun hE => (hbuilt (by simp [hE])).1) (fun s'' hs'' => ?_) hs'
      refine sendCustomJob_working hlaw hs'' fun htoken _ t' ht' => ?_
      obtain rfl := Option.mem_some_iff.mp ht'
      obtain ⟨hwanted, hsome⟩ := takeToken_isSome htoken
      exact hbuilt (by simp [show s.wantsTemplateToken t = true from hwanted,
        show s.allocateTokens.isEmpty = false from hsome])

theorem handleRequestTxDataSuccess_paying (hlaw : api.Lawful) (h : Paying W s) {i : TemplateId}
    {txs : List Bytes} {excess : Bytes} (hW : s.Recorded W (.requestTxDataSuccess i txs excess)) :
    Leaves (Paying W) (NoteAgrees api W) (fun _ => True)
      (s.handleRequestTxDataSuccess i txs excess) := by
  have hworking : Working W True s.coinbaseOutputs s.lastFutureTemplate s :=
    ⟨h.toAgrees, fun _ _ _ _ _ => trivial, rfl, rfl⟩
  refine Leaves.mono (P := Working W True s.coinbaseOutputs s.lastFutureTemplate) ?_
    (fun _ h' => h'.paying h.zero) (fun _ hn => hn) (fun _ he => he)
  unfold handleRequestTxDataSuccess
  split
  · exact .fail hworking trivial
  · rename_i o hdec
    dsimp only
    refine Leaves.andThen (.say (by exact hworking.of_eq rfl rfl rfl rfl)
      (by simp [NoteAgrees, Note.declared?])) fun _ h' => ?_
    split
    · exact .keep h'
    · rename_i token htoken
      split
      · exact .fail h' trivial
      · rename_i t ht
        split
        · exact .fail h' trivial
        · rename_i outputs houtputs
          unfold declareJob
          split
          · exact .fail h' trivial
          · split
            · exact .fail h' trivial
            · split
              · rename_i u f hu hf
                have hmem : (t.activated, o) ∈ W := by
                  refine hW t ?_ o hdec
                  have hu' : s.upstreamChannel = some u := hu
                  have hne : s.allocateTokens.isEmpty = false := by
                    cases htokens : s.allocateTokens with
                    | nil => simp [htokens] at htoken
                    | cons => rfl
                  simp [builtTemplates, hne, hu', ht]
                have hreward : RewardFor W t outputs :=
                  rewardFor_withReward hmem (h.zero o hdec) houtputs
                dsimp only
                split
                · exact .keep (by exact h'.of_eq rfl rfl rfl rfl)
                · rename_i p q hpq
                  split
                  · exact .fail (by exact h'.of_eq rfl rfl rfl rfl) trivial
                  · have hcoinbase : api.coinbaseOutputs p q = outputs ++ t.coinbaseTxOutputs :=
                      hlaw.newCoinbaseTxPrefixAndSuffix (Prod.ext rfl hpq)
                    obtain ⟨rfl, -⟩ := withReward_eq_some houtputs
                    have hjob : ∀ message : DeclareMiningJob, message.coinbaseTxPrefix = p →
                        message.coinbaseTxSuffix = q → ∀ prevHash txs, DeclaredJob.Agrees api W
                        ⟨some message, t, prevHash, none,
                          TxOut.encodeVec (setReward t.coinbaseTxValueRemaining o), txs⟩ := by
                      rintro message rfl rfl prevHash txs
                      refine ⟨fun m hm => ?_, nofun⟩
                      obtain rfl := Option.some.inj hm
                      exact ⟨_, hreward, deserializeOutputs_encodeVec hdec _, hcoinbase⟩
                    split
                    · refine .keep (Working.storeDeclaredJob ?_ (hjob _ rfl rfl _ _))
                      exact h'.of_eq rfl rfl rfl rfl
                    · refine .say (Working.storeDeclaredJob ?_ (hjob _ rfl rfl _ _)) fun n hn => ?_
                      · exact h'.of_eq rfl rfl rfl rfl
                      obtain rfl := List.mem_singleton.mp hn
                      intro t' outputs' hdecl
                      obtain ⟨rfl, rfl⟩ := Prod.mk.inj (Option.some.inj hdecl)
                      exact ⟨_, hreward, hcoinbase⟩
              · exact .keep h'

theorem declareFuture_agrees (h : Agrees W s) : ∀ n ∈ s.declareFuture, NoteAgrees api W n := by
  intro n hn
  unfold declareFuture at hn
  split at hn
  · split at hn
    · rename_i message t prevHash custom output txs hjob
      obtain rfl := List.mem_singleton.mp hn
      intro t' outputs' hdecl
      obtain ⟨rfl, rfl⟩ := Prod.mk.inj (Option.some.inj hdecl)
      obtain ⟨r, hmem, -⟩ := mem_futureDeclaredJob hjob
      obtain ⟨reward, hr, -, houts⟩ := (h.store _ hmem).declared message rfl
      exact ⟨reward, hr, houts⟩
    · simp at hn
  · simp at hn

/-- The custom job is built from the stored outputs as they are, so the reward must be zero. -/
theorem handleSetNewPrevHash_paying (hlaw : api.Lawful) (h : Paying W s) {m : SetNewPrevHash}
    (hW : s.Recorded W (.setNewPrevHash m))
    (hraw : ∀ t ∈ s.rawTemplates (.setNewPrevHash m), t.coinbaseTxValueRemaining = 0) :
    Leaves (Paying W) (NoteAgrees api W) (fun _ => True) (s.handleSetNewPrevHash m) := by
  unfold handleSetNewPrevHash
  split
  · exact .fail h trivial
  · rename_i o hdec
    dsimp only
    refine Leaves.mono (P := Working W True s.coinbaseOutputs s.lastFutureTemplate) ?_
      (fun _ h' => h'.paying h.zero) (fun _ hn => hn) (fun _ he => he)
    have hstart : Working W True s.coinbaseOutputs s.lastFutureTemplate
        ((s.applyPrevHash m).takeToken
          (s.mode = .coinbaseOnly && s.lastFutureTemplate.isSome)).2 := by
      refine ⟨⟨h.jobs, fun e he => ?_⟩, fun _ _ _ _ _ => trivial, rfl, rfl⟩
      obtain ⟨e', he', rfl⟩ := List.mem_map.mp he
      exact (h.store e' he').activate m
    refine (Leaves.say (by exact hstart) (declareFuture_agrees h.toAgrees)).andThen fun _ h' => ?_
    refine (Leaves.andThen (sendCustomJob_working hlaw h' fun htoken hu t ht => ?_) fun _ h' =>
      .forEach (fun d _ s' hs' => ?_) h').collect fun _ h' => allocateTokenIf_working h'
    · have hbuilt : t ∈ s.builtTemplates (.setNewPrevHash m) := by
        obtain ⟨hwanted, hsome⟩ := takeToken_isSome htoken
        have hsome' : s.allocateTokens.isEmpty = false := hsome
        have hu' : s.upstreamChannel.isSome = true := by
          simpa [takeToken, applyPrevHash] using hu
        have ht' : s.lastFutureTemplate = some t := ht
        simp only [Bool.and_eq_true, decide_eq_true_eq] at hwanted
        simp [builtTemplates, hwanted.1, hsome', hu', ht']
      have hmem : (t.activated, o) ∈ W := hW t hbuilt o hdec
      exact ⟨rewardFor_raw hmem (h.zero o hdec) (hraw t hbuilt), o, hdec, hmem, h.zero o hdec⟩
    · refine carries_working.prevHashDownstream (fun hφ hok => ?_) hs'
      exact ⟨fun j hj => hφ.1 j ((hlaw.onSetNewPrevHash hok).2.2 j hj), hφ.2⟩

theorem handleDeclareMiningJobSuccess_paying (hlaw : api.Lawful) (h : Paying W s) {r : RequestId}
    {token : Bytes}
    (hraw : ∀ t ∈ s.rawTemplates (.declareMiningJobSuccess r token),
      t.coinbaseTxValueRemaining = 0) :
    Leaves (Paying W) (NoteAgrees api W) (fun _ => True)
      (s.handleDeclareMiningJobSuccess r token) := by
  unfold handleDeclareMiningJobSuccess
  split
  · exact .fail h trivial
  · rename_i job hjob
    have hagrees : job.Agrees api W := by
      obtain ⟨before, after, hstore, -⟩ := List.lookup_eq_some_iff.mp hjob
      exact h.store (r, job) (by rw [hstore]; simp)
    split
    · exact .fail h trivial
    · split
      · exact .fail h trivial
      · rename_i outputs hdec
        have hreward : RewardFor W job.template outputs := by
          cases hm : job.declareMiningJob with
          | some message =>
              obtain ⟨r', hr', hdec', -⟩ := hagrees.declared message hm
              obtain rfl := Option.some.inj (hdec'.symm.trans hdec)
              exact hr'
          | none =>
              obtain ⟨o, hdec', ho, hz⟩ := hagrees.custom hm
              obtain rfl := Option.some.inj (hdec'.symm.trans hdec)
              refine rewardFor_raw ho hz (hraw job.template ?_)
              obtain ⟨declared, template, prevHash, custom, output, txs⟩ := job
              obtain rfl : declared = none := hm
              simp [rawTemplates, hjob]
        split
        · rename_i u f hu hf
          dsimp only
          split
          · exact .fail ⟨⟨h.jobs, h.store⟩, h.zero⟩ trivial
          · rename_i message hmessage
            refine .say ⟨⟨h.jobs, fun e he => ?_⟩, h.zero⟩ fun n hn => ?_
            · rcases List.mem_cons.mp he with rfl | he
              · exact ⟨hagrees.declared, hagrees.custom⟩
              · exact h.store e (List.mem_of_mem_filter he)
            · obtain rfl := List.mem_singleton.mp hn
              intro t' outputs' hdecl
              obtain ⟨rfl, rfl⟩ := Prod.mk.inj (Option.some.inj hdecl)
              exact ⟨outputs, hreward, hlaw.newCustomJob (Prod.ext rfl hmessage)⟩
        · exact .fail h trivial

/-- A new channel gets a job of the last future template. -/
theorem opensChannel_paid (hlaw : api.Lawful)
    (hlf : ∀ t ∈ lf, ∀ o, deserializeOutputs b = some o → (t.activated, o) ∈ W ∧ ZeroValued o) :
    OpensChannel (fun s : ChannelManager api => Working W True b lf s) (Paid W True) := by
  have hopen : ∀ {s : ChannelManager api} {ch ch' ch'' : api.Channel} {t : NewTemplate}
      {m : SetNewPrevHash} {o outputs : List TxOut}, Working W True b lf s →
      s.lastFutureTemplate = some t → api.jobs ch = [] →
      deserializeOutputs s.coinbaseOutputs = some o →
      withReward t.coinbaseTxValueRemaining o = some outputs →
      api.channel.onNewTemplate ch t outputs = .ok ch' →
      api.channel.onSetNewPrevHash ch' m = .ok ch'' →
      ∀ j ∈ api.jobs ch'', OutputsFor W j.template j.coinbaseOutputs := by
    intro s ch ch' ch'' t m o outputs h ht hnew hdec houtputs hok hok' j hj
    have hj' := (hlaw.onSetNewPrevHash hok').2.2 j hj
    rcases (hlaw.onNewTemplate hok).2 j hj' with hj' | ⟨htemplate, hout, -⟩
    · rw [hnew] at hj'
      cases hj'
    · obtain ⟨hmem, hz⟩ := hlf t (h.future ▸ ht) o (h.outputs ▸ hdec)
      exact ⟨outputs, htemplate ▸ rewardFor_withReward hmem hz houtputs, by rw [hout, htemplate]⟩
  constructor
  · intro s slot p c msg ch t m o outputs ch' ch'' h ht hm hp hch hdec houtputs hok hok'
    exact ⟨hopen h ht (hlaw.newStandard hch).1 hdec houtputs hok hok', trivial⟩
  · intro s slot p c msg n ch t m o outputs ch' ch'' h ht hm hp hch hdec houtputs hok hok'
    exact ⟨hopen h ht (hlaw.newExtended hch).1 hdec houtputs hok hok', trivial⟩

theorem Paying.working (h : Paying W s) :
    Working W True s.coinbaseOutputs s.lastFutureTemplate s :=
  ⟨h.toAgrees, fun _ _ _ _ _ => trivial, rfl, rfl⟩

theorem handleDownstreamOpen_paying (hlaw : api.Lawful) (h : Paying W s)
    {r : PendingChannelRequest} {slot : Nat} (hW : s.Recorded W (.openMiningChannel r slot)) :
    Leaves (Paying W) (NoteAgrees api W) (fun _ => True) (s.handleDownstreamOpen r slot) := by
  have hopen (hstate : s.upstreamState = .connected ∨ s.upstreamState = .soloMining) :
      Leaves (Paying W) (NoteAgrees api W) (fun _ => True) (s.handleOpenMiningChannel r slot) := by
    refine (carries_working.handleOpenMiningChannel (opensChannel_paid hlaw fun t ht o ho => ?_)
      h.working).mono (fun _ h' => h'.paying h.zero) (fun _ hn => hn) (fun _ he => he)
    refine ⟨hW t ?_ o ho, h.zero o ho⟩
    rw [builtTemplates, if_pos (by simpa using hstate)]
    exact Option.mem_toList.mpr ht
  unfold handleDownstreamOpen
  split
  · exact .say ⟨⟨h.jobs, h.store⟩, h.zero⟩ (by simp [NoteAgrees, Note.declared?])
  · exact .keep ⟨⟨h.jobs, h.store⟩, h.zero⟩
  · exact hopen (.inl ‹_›)
  · exact hopen (.inr ‹_›)

theorem upstreamCustomJob_working (hlaw : api.Lawful) (h : Working W E b lf s) (u : api.Upstream)
    (token : Option AllocateMiningJobTokenSuccess) (outputs : List TxOut)
    (hr : token.isSome → ∀ t ∈ lf, RewardFor W t outputs ∧ RawFor W t b) :
    Working W E b lf (s.upstreamCustomJob u token outputs).1 ∧
      ∀ t message, (s.upstreamCustomJob u token outputs).2.2 = some (t, message) →
        OutputsFor W t message.coinbaseTxOutputs := by
  unfold upstreamCustomJob
  split
  · rename_i token m t hm ht
    obtain ⟨hreward, hraw⟩ := hr rfl t (h.future ▸ ht)
    obtain ⟨h', hmessage⟩ : Working W E b lf (s.customJob api.newJobFactory u token m t outputs).1 ∧
        ∀ message, (s.customJob api.newJobFactory u token m t outputs).2.2 = some message →
          OutputsFor W t message.coinbaseTxOutputs := customJob_working hlaw h hreward hraw
    refine ⟨h', fun t' message heq => ?_⟩
    obtain ⟨message', hmessage', hpair⟩ := Option.map_eq_some_iff.mp heq
    obtain ⟨rfl, rfl⟩ := Prod.mk.inj hpair
    exact hmessage _ hmessage'
  · exact ⟨h, fun t message heq => by cases heq⟩

/-- The first custom job is built without the reward too, and the waiting requests are opened. -/
theorem handleOpenExtendedMiningChannelSuccess_paying (hlaw : api.Lawful) (h : Paying W s)
    {m : OpenExtendedMiningChannelSuccess} {slots : Nat → Nat}
    (hW : s.Recorded W (.openExtendedMiningChannelSuccess m slots))
    (hraw : ∀ t ∈ s.rawTemplates (.openExtendedMiningChannelSuccess m slots),
      t.coinbaseTxValueRemaining = 0) :
    Leaves (Paying W) (NoteAgrees api W) (fun _ => True)
      (s.handleOpenExtendedMiningChannelSuccess m slots) := by
  have hgiveUp : Leaves (Paying W) (NoteAgrees api W) (fun _ => True)
      (s.giveUpUpstream m.channelId) :=
    .say ⟨⟨h.jobs, h.store⟩, h.zero⟩ (by simp [NoteAgrees, Note.declared?])
  unfold handleOpenExtendedMiningChannelSuccess
  split
  · exact .fail h trivial
  · rename_i o hdec
    split
    · exact .fail h trivial
    · split
      · exact hgiveUp
      · rename_i first hfirst
        dsimp only
        split
        · exact hgiveUp
        · rename_i allocator hallocator
          have hbuilt : ∀ t ∈ s.lastFutureTemplate,
              t ∈ s.builtTemplates (.openExtendedMiningChannelSuccess m slots) := by
            intro t ht
            have hpending : s.pendingDownstreamRequests.isEmpty = false := by
              cases hp : s.pendingDownstreamRequests with
              | nil => simp [hp] at hfirst
              | cons => rfl
            simpa [builtTemplates, hpending] using ht
          have hrecorded : ∀ t ∈ s.lastFutureTemplate, (t.activated, o) ∈ W :=
            fun t ht => hW t (hbuilt t ht) o hdec
          have hzero := h.zero o hdec
          have hstart : Working W True s.coinbaseOutputs s.lastFutureTemplate
              (s.takeToken s.wantsUpstreamToken).2 := h.working.of_eq rfl rfl rfl rfl
          obtain ⟨h', hmessage⟩ := upstreamCustomJob_working hlaw hstart
            (s.upstreamOf m first.message.nominalHashRate) (s.takeToken s.wantsUpstreamToken).1 o
            fun htoken t ht => by
              obtain ⟨hwanted, hsome⟩ := takeToken_isSome htoken
              have hzeroReward : t.coinbaseTxValueRemaining = 0 := by
                refine hraw t ?_
                simpa [rawTemplates, hwanted, hsome] using hbuilt t ht
              exact ⟨rewardFor_raw (hrecorded t ht) hzero hzeroReward, o, hdec,
                hrecorded t ht, hzero⟩
          refine Leaves.mono (P := Working W True s.coinbaseOutputs s.lastFutureTemplate) ?_
            (fun _ h' => h'.paying h.zero) (fun _ hn => hn) (fun _ he => he)
          refine (Leaves.say ?_ fun n hn => ?_).andThen fun _ h' => ?_
          · exact h'.of_channels (fun d k c ch hch => channel?_resizeGroups hch) h'.store rfl rfl
          · rcases List.mem_append.mp hn with hn | hn
            · split at hn
              · obtain rfl := List.mem_singleton.mp hn
                exact nofun
              · simp at hn
            · split at hn
              · rename_i t message heq
                obtain rfl := List.mem_singleton.mp hn
                intro t' outputs' hdecl
                obtain ⟨rfl, rfl⟩ := Prod.mk.inj (Option.some.inj hdecl)
                exact hmessage _ _ heq
              · simp at hn
          · refine (allocateTokenIf_working h').andThen fun _ h' => ?_
            refine .forEach (fun r _ s' hs' => ?_) (by exact h'.of_eq rfl rfl rfl rfl)
            exact carries_working.handleOpenMiningChannel (opensChannel_paid hlaw
              fun t ht o' ho' => by
                obtain rfl := Option.some.inj (hdec.symm.trans ho')
                exact ⟨hrecorded t ht, hzero⟩) hs'

/-! ### The events that build none -/

theorem handleAllocateMiningJobTokenSuccess_paying (h : Paying W s)
    {m : AllocateMiningJobTokenSuccess}
    (hz : ∀ o, deserializeOutputs m.coinbaseOutputs = some o → ZeroValued o) :
    Leaves (Paying W) (NoteAgrees api W) (fun _ => True)
      (s.handleAllocateMiningJobTokenSuccess m) := by
  unfold handleAllocateMiningJobTokenSuccess
  dsimp only
  split
  · split
    · exact .fail ⟨⟨h.jobs, h.store⟩, hz⟩ trivial
    · exact .say ⟨⟨h.jobs, h.store⟩, hz⟩ (by simp [NoteAgrees, Note.declared?])
  · exact .keep ⟨⟨h.jobs, h.store⟩, hz⟩

/-- A change of the channels that leaves no job but those that were there. -/
theorem Paying.of_channels {s' : ChannelManager api} (h : Paying W s)
    (hch : ∀ d k c ch, s'.channel? d k c = some ch → s.channel? d k c = some ch)
    (hstore : ∀ e ∈ s'.lastDeclareJobStore, e ∈ s.lastDeclareJobStore)
    (hb : s'.coinbaseOutputs = s.coinbaseOutputs) : Paying W s' where
  jobs d k c ch h' := h.jobs d k c ch (hch d k c ch h')
  store e he := h.store e (hstore e he)
  zero o ho := h.zero o (hb ▸ ho)

theorem Paying.setChannel (h : Paying W s) {d : DownstreamId} {k : ChannelKind} {c : ChannelId}
    {ch ch' : api.Channel} (hch : s.channel? d k c = some ch)
    (hjobs : ∀ j ∈ api.jobs ch', j ∈ api.jobs ch) : Paying W (s.setChannel d k c ch') := by
  have h' : Working W True s.coinbaseOutputs s.lastFutureTemplate (s.setChannel d k c ch') :=
    h.working.setChannel ⟨fun j hj => h.jobs d k c ch hch j (hjobs j hj), trivial⟩
  exact h'.paying h.zero

theorem connect_paying (h : Paying W s) {r : Bool} :
    Leaves (Paying W) (NoteAgrees api W) (fun _ => True) (s.connect r) := by
  obtain ⟨i, ds, hvalue, hnotes, -⟩ := s.connect_spec r
  have hch : ∀ d k c ch, (s.connect r).value.channel? d k c = some ch →
    s.channel? d k c = some ch :=
    fun _ _ _ _ => channel?_connect
  rw [hvalue] at hch
  refine ⟨hvalue ▸ h.of_channels hch (fun e he => he) rfl, ?_, fun _ _ => trivial⟩
  simp [hnotes]

theorem handleCloseChannel_paying (h : Paying W s) {d : DownstreamId} {c : ChannelId} :
    Leaves (Paying W) (NoteAgrees api W) (fun _ => True) (s.handleCloseChannel d c) := by
  obtain ⟨ds, vardiff, hvalue, hnotes, -⟩ := s.handleCloseChannel_spec d c
  have hch : ∀ d' k c' ch, (s.handleCloseChannel d c).value.channel? d' k c' = some ch →
      s.channel? d' k c' = some ch := fun _ _ _ _ => channel?_handleCloseChannel
  rw [hvalue] at hch
  refine ⟨hvalue ▸ h.of_channels hch (fun e he => he) rfl, ?_, fun _ _ => trivial⟩
  simp [hnotes]

theorem handleSetExtranoncePrefix_paying (hlaw : api.Lawful) (h : Paying W s) {p : Bytes}
    {slots : DownstreamId → ChannelKind → ChannelId → Nat} :
    Leaves (Paying W) (NoteAgrees api W) (fun _ => True) (s.handleSetExtranoncePrefix p slots) := by
  refine (carries_working.handleSetExtranoncePrefix (fun hφ hok => ⟨fun j hj => ?_, hφ.2⟩)
    (fun h => ⟨⟨h.jobs, h.store⟩, h.channel, h.outputs, h.future⟩)
    (fun h => ⟨⟨h.jobs, h.store⟩, h.channel, h.outputs, h.future⟩) h.working).mono
    (fun _ h' => h'.paying h.zero) (fun _ hn => hn) fun _ he => he
  rw [(hlaw.setExtranoncePrefix hok).2.1] at hj
  exact hφ.1 j hj

theorem relayShare_paying (h : Paying W s) {k : ChannelKind} {m : SetNewPrevHash} {origin : Origin}
    {share : SubmitSharesExtended} {solution : api.Upstream → Bytes} {oversized : JDCError} :
    Leaves (Paying W) (NoteAgrees api W) (fun _ => True)
      (s.relayShare k m origin share solution oversized) := by
  unfold relayShare
  split
  · exact .keep h
  · dsimp only
    split
    · exact .say ⟨⟨h.jobs, h.store⟩, h.zero⟩ (by simp [NoteAgrees, Note.declared?])
    · split
      · exact .fail ⟨⟨h.jobs, h.store⟩, h.zero⟩ trivial
      · exact .say ⟨⟨h.jobs, h.store⟩, h.zero⟩ (by simp [NoteAgrees, Note.declared?])
    · split
      · exact .fail ⟨⟨h.jobs, h.store⟩, h.zero⟩ trivial
      · exact .keep ⟨⟨h.jobs, h.store⟩, h.zero⟩

theorem translateShare_paying (h : Paying W s) {k : ChannelKind} {d : DownstreamId}
    {m : SetNewPrevHash} {ch : api.Channel} {msg : SubmitSharesExtended}
    {res : ShareValidationResult} :
    Leaves (Paying W) (NoteAgrees api W) (fun _ => True) (s.translateShare k d m ch msg res) := by
  unfold translateShare
  split
  · exact .keep h
  · dsimp only
    split
    · exact .fail h trivial
    · split
      · exact .fail h trivial
      · split
        · exact relayShare_paying h
        · split
          · exact .keep h
          · exact .keep ⟨⟨h.jobs, h.store⟩, h.zero⟩

theorem submitShares_paying (h : Paying W s) {k : ChannelKind} {d : DownstreamId}
    {msg : SubmitSharesExtended}
    {validate : api.Channel → api.Channel × Except ShareValidationError ShareValidationResult}
    (hsub : ∀ ch, ∀ j ∈ api.jobs (validate ch).1, j ∈ api.jobs ch) :
    Leaves (Paying W) (NoteAgrees api W) (fun _ => True) (s.submitShares k d msg validate) := by
  unfold submitShares
  split
  · exact .fail h trivial
  · split
    · exact .fail h trivial
    · split
      · exact .say h (by simp [NoteAgrees, Note.declared?])
      · rename_i ch hch
        have h' := h.setChannel hch (hsub ch)
        dsimp only
        refine checkVardiff_leaves ?_ (fun _ _ => nofun) fun _ _ _ => trivial
        split
        · split
          · exact .fail h' trivial
          · exact .say h' (by simp [NoteAgrees, Note.declared?])
        · exact (acknowledgeShare_leaves h' (fun _ _ => nofun) (fun _ _ _ _ _ => nofun)
            trivial).andThen fun _ h' => translateShare_paying h'

theorem handleSetCustomMiningJobSuccess_paying (h : Paying W s) {r : RequestId} {j : JobId} :
    Leaves (Paying W) (NoteAgrees api W) (fun _ => True)
      (s.handleSetCustomMiningJobSuccess r j) := by
  have h' : Paying W (s.removeDeclaredJob r) :=
    h.of_channels (fun _ _ _ _ hch => hch) (fun e he => List.mem_of_mem_filter he) rfl
  unfold handleSetCustomMiningJobSuccess
  split
  · exact .fail h trivial
  · dsimp only
    split
    · exact .fail ⟨⟨h'.jobs, h'.store⟩, h'.zero⟩ trivial
    · split
      · exact .fail ⟨⟨h'.jobs, h'.store⟩, h'.zero⟩ trivial
      · split
        · exact .fail ⟨⟨h'.jobs, h'.store⟩, h'.zero⟩ trivial
        · exact .fail ⟨⟨h'.jobs, h'.store⟩, h'.zero⟩ trivial
        · split
          · refine (Leaves.forEach (fun entry _ s' hs' => ?_) ⟨⟨h'.jobs, h'.store⟩,
              h'.zero⟩).collect fun _ h => .keep h
            exact relayShare_paying hs'
          · exact .keep ⟨⟨h'.jobs, h'.store⟩, h'.zero⟩

theorem handleSetCustomMiningJobError_paying (h : Paying W s) {r : RequestId} {code : String} :
    Leaves (Paying W) (NoteAgrees api W) (fun _ => True)
      (s.handleSetCustomMiningJobError r code) := by
  have h' : Paying W (s.removeDeclaredJob r) :=
    h.of_channels (fun _ _ _ _ hch => hch) (fun e he => List.mem_of_mem_filter he) rfl
  unfold handleSetCustomMiningJobError
  split
  · split
    · exact .keep h
    · exact .keep ⟨⟨h'.jobs, h'.store⟩, h'.zero⟩
  · exact .fail h trivial

/-! ### One event -/

/-- No custom job is built without the reward of its template. -/
def RewardIncluded (s : ChannelManager api) (e : Event) : Prop :=
  ∀ t ∈ s.rawTemplates e, t.coinbaseTxValueRemaining = 0

instance (s : ChannelManager api) (e : Event) : Decidable (s.RewardIncluded e) :=
  inferInstanceAs (Decidable (∀ t ∈ s.rawTemplates e, t.coinbaseTxValueRemaining = 0))

theorem handler_paying (hlaw : api.Lawful) (h : Paying W s) {e : Event} (hz : e.AnswersZero)
    (hW : s.Recorded W e) (hraw : s.RewardIncluded e) :
    Leaves (Paying W) (NoteAgrees api W) (fun _ => True) (handler e s) := by
  cases e with
  | activate mode => exact .keep ⟨⟨h.jobs, h.store⟩, h.zero⟩
  | requestInitialTokens =>
      refine ⟨⟨⟨h.jobs, h.store⟩, h.zero⟩, fun n hn => ?_, fun _ _ => trivial⟩
      have hn' : n = .allocateMiningJobToken s.requestIdFactory ∨
          n = .allocateMiningJobToken (s.requestIdFactory + 1) := by
        simpa [handler, requestInitialTokens, allocateToken, Outcome.andThen] using hn
      rcases hn' with rfl | rfl <;> intro _ _ hdecl <;> cases hdecl
  | connect r => exact connect_paying h
  | disconnect d =>
      exact .keep (h.of_channels (fun _ _ _ _ hch => channel?_removeDownstream hch)
        (fun e he => he) rfl)
  | newTemplate t => exact handleNewTemplate_paying hlaw h hW
  | requestTxDataSuccess i txs excess => exact handleRequestTxDataSuccess_paying hlaw h hW
  | setNewPrevHash m => exact handleSetNewPrevHash_paying hlaw h hW hraw
  | allocateMiningJobTokenSuccess m =>
      refine handleAllocateMiningJobTokenSuccess_paying h fun o ho => ?_
      simpa [Event.AnswersZero, ho] using hz
  | declareMiningJobSuccess r token => exact handleDeclareMiningJobSuccess_paying hlaw h hraw
  | declareMiningJobError code =>
      simp only [handler, handleDeclareMiningJobError]
      split
      · exact .keep h
      · exact .fail h trivial
  | openExtendedMiningChannelSuccess m slots =>
      exact handleOpenExtendedMiningChannelSuccess_paying hlaw h hW hraw
  | openStandardMiningChannelSuccess => exact .fail h trivial
  | openMiningChannelError => exact .fail h trivial
  | closeUpstreamChannel => exact .fail ⟨⟨h.jobs, h.store⟩, h.zero⟩ trivial
  | setExtranoncePrefix p slots => exact handleSetExtranoncePrefix_paying hlaw h
  | setCustomMiningJobSuccess r j => exact handleSetCustomMiningJobSuccess_paying h
  | setCustomMiningJobError r code => exact handleSetCustomMiningJobError_paying h
  | openMiningChannel r slot => exact handleDownstreamOpen_paying hlaw h hW
  | closeChannel d c => exact handleCloseChannel_paying h
  | submitSharesStandard d m => exact submitShares_paying h fun ch => hlaw.validateStandard.2
  | submitSharesExtended d m => exact submitShares_paying h fun ch => hlaw.validateExtended.2

theorem handle_paying (hlaw : api.Lawful) (h : Paying W s) {e : Event} (hz : e.AnswersZero)
    (hW : s.Recorded W e) (hraw : s.RewardIncluded e) :
    Leaves (Paying W) (NoteAgrees api W) (fun _ => True) (handle e s) := by
  unfold handle
  split
  · exact .keep h
  · exact handler_paying hlaw h hz hW hraw

end ChannelManager

/-! ### Runs -/

/-- A client, with the record of its coinbases. -/
structure Traced (api : ChannelsSv2) where
  client : Client api
  coinbases : Record

namespace Traced

variable {api : ChannelsSv2}

def start (coinbaseOutputs : Bytes) (reserved : Nat) : Traced api :=
  ⟨.start coinbaseOutputs reserved, []⟩

/-- The coinbases an event builds: their templates, and the outputs that are stored then. -/
def newCoinbases (x : Traced api) (e : Event) : Record :=
  match deserializeOutputs x.client.manager.coinbaseOutputs with
  | none => []
  | some o => (x.client.manager.builtTemplates e).map fun t => (t.activated, o)

def step (x : Traced api) (e : Event) : Traced api :=
  ⟨x.client.step e, x.coinbases ++ x.newCoinbases e⟩

/-- The record does not change the client. -/
theorem exec_client (x : Traced api) (es : List Event) :
    (Runs.exec step x es).client = Runs.exec Client.step x.client es := by
  induction es generalizing x with
  | nil => rfl
  | cons e es ih => exact ih (x.step e)

/-- A template's coinbases are built from the outputs of its first one. -/
def SameOutputs (x : Traced api) (e : Event) : Prop :=
  ∀ new ∈ x.newCoinbases e, ∀ old ∈ x.coinbases, old.1 = new.1 → old.2 = new.2

/-- The conditions on an event. -/
def Consistent (x : Traced api) (e : Event) : Prop :=
  e.AnswersZero ∧ x.SameOutputs e ∧ x.client.manager.RewardIncluded e

instance (x : Traced api) (e : Event) : Decidable (x.Consistent e) :=
  have : Decidable (x.SameOutputs e) :=
    inferInstanceAs (Decidable (∀ new ∈ x.newCoinbases e, ∀ old ∈ x.coinbases,
      old.1 = new.1 → old.2 = new.2))
  inferInstanceAs (Decidable (_ ∧ _ ∧ _))

/-- The invariant: one entry for each template, and everything agrees with the record. -/
structure Inv (x : Traced api) : Prop where
  functional : ∀ c ∈ x.coinbases, ∀ c' ∈ x.coinbases, c.1 = c'.1 → c.2 = c'.2
  manager : x.client.manager.Paying x.coinbases
  history : ∀ n ∈ x.client.history, NoteAgrees api x.coinbases n

theorem functional_step {x : Traced api} {e : Event} (h : x.Inv) (hsame : x.SameOutputs e) :
    ∀ c ∈ (x.step e).coinbases, ∀ c' ∈ (x.step e).coinbases, c.1 = c'.1 → c.2 = c'.2 := by
  have hnew : ∀ c ∈ x.newCoinbases e, ∀ c' ∈ x.newCoinbases e, c.2 = c'.2 := by
    intro c hc c' hc'
    unfold newCoinbases at hc hc'
    cases hdec : deserializeOutputs x.client.manager.coinbaseOutputs with
    | none => simp [hdec] at hc
    | some o =>
        simp only [hdec] at hc hc'
        obtain ⟨t, -, rfl⟩ := List.mem_map.mp hc
        obtain ⟨t', -, rfl⟩ := List.mem_map.mp hc'
        rfl
  intro c hc c' hc' hcc
  rcases List.mem_append.mp hc with hc | hc <;> rcases List.mem_append.mp hc' with hc' | hc'
  · exact h.functional c hc c' hc' hcc
  · exact hsame c' hc' c hc hcc
  · exact (hsame c hc c' hc' hcc.symm).symm
  · exact hnew c hc c' hc'

theorem recorded_step (x : Traced api) (e : Event) :
    x.client.manager.Recorded (x.step e).coinbases e := by
  intro t ht o ho
  refine List.mem_append_right _ ?_
  simp only [newCoinbases, ho]
  exact List.mem_map_of_mem ht

theorem inv_step (hlaw : api.Lawful) {x : Traced api} {e : Event} (h : x.Inv)
    (hc : x.Consistent e) : (x.step e).Inv := by
  have hsub : ∀ c ∈ x.coinbases, c ∈ (x.step e).coinbases :=
    fun c hc => List.mem_append_left _ hc
  have hstart : x.client.manager.Paying (x.step e).coinbases :=
    ⟨h.manager.toAgrees.mono hsub, h.manager.zero⟩
  have hnotes : ∀ n ∈ x.client.history, NoteAgrees api (x.step e).coinbases n :=
    fun n hn t outputs hdecl => (h.history n hn t outputs hdecl).mono hsub
  have hfunctional := functional_step h hc.2.1
  cases hrun : x.client.running with
  | false =>
      have hsame : (x.step e).client = x.client := Client.step_stopped hrun e
      exact ⟨hfunctional, hsame ▸ hstart, hsame ▸ hnotes⟩
  | true =>
      have hafter := ChannelManager.handle_paying hlaw hstart hc.1 (x.recorded_step e) hc.2.2
      refine ⟨hfunctional, ?_, ?_⟩ <;>
        simp only [step, Client.step, hrun, if_true] at hafter hnotes ⊢
      · unfold Client.managerAfter
        split
        · exact hafter.value.of_channels (fun _ _ _ _ hch =>
            ChannelManager.channel?_removeDownstream hch) (fun e he => he) rfl
        · exact hafter.value
      · intro n hn
        rcases List.mem_append.mp hn with hn | hn
        · exact hnotes n hn
        · exact hafter.notes n hn

theorem inv_start {outputs : Bytes} {reserved : Nat}
    (hz : ∀ o, deserializeOutputs outputs = some o → ZeroValued o) :
    (start outputs reserved : Traced api).Inv where
  functional := nofun
  manager :=
    { jobs := fun d k c ch hch => by
        obtain ⟨ds, hds, -⟩ := ChannelManager.channel?_eq_some.mp hch
        simp [start, Client.start, ChannelManager.new] at hds
      store := nofun
      zero := hz }
  history := nofun

end Traced

namespace Client

variable {api : ChannelsSv2}

/-- Every job that was declared for a template has the outputs of the downstream jobs for it, and
pays the reward of the template and its own outputs. -/
structure DeclaredOutputsAgree (w : Client api) : Prop where
  jobs : ∀ n ∈ w.history, ∀ t outputs, n.declared? api = some (t, outputs) →
    ∀ d k c ch, w.manager.channel? d k c = some ch → ∀ j ∈ api.jobs ch,
      j.template.activated = t.activated → j.coinbaseOutputs = outputs
  total : ∀ n ∈ w.history, ∀ t outputs, n.declared? api = some (t, outputs) →
    totalValue outputs = t.coinbaseTxValueRemaining.toNat + totalValue t.coinbaseTxOutputs

/-- With one entry for each template, declared and downstream outputs are the same. -/
theorem declaredOutputsAgree_of_inv {x : Traced api} (h : x.Inv) :
    x.client.DeclaredOutputsAgree where
  jobs n hn t outputs hdecl d k c ch hch j hj ht :=
    (h.manager.jobs d k c ch hch j hj).eq h.functional (h.history n hn t outputs hdecl) ht
  total n hn t outputs hdecl := (h.history n hn t outputs hdecl).total

/-- **One coinbase for a template.** In a run in which the outputs of token answers pay nothing, a
template's coinbases are built from the same stored outputs and no custom job leaves a reward out,
the declared jobs and the downstream jobs of a template have the same outputs in every state. -/
theorem declared_outputs_agree (hlaw : api.Lawful) (outputs : Bytes) (reserved : Nat)
    (es : List Event) (hz : ∀ o, deserializeOutputs outputs = some o → ZeroValued o)
    (hes : Runs.Along Traced.step (fun x e => x.Consistent e)
      (Traced.start outputs reserved : Traced api) es) :
    (Runs.exec step (start outputs reserved : Client api) es).DeclaredOutputsAgree := by
  have hinv := Runs.exec_induct (fun _ _ h hc => Traced.inv_step hlaw h hc)
    (Traced.inv_start hz) hes
  have hagree := declaredOutputsAgree_of_inv hinv
  rwa [Traced.exec_client] at hagree

/-- A full-template start, and a declaration for the template the downstream channel mines. -/
def fullTemplateRun : List Event :=
  [.activate .fullTemplate, .requestInitialTokens,
    .newTemplate (sampleTemplate 1 true), .setNewPrevHash (samplePrevHash 1),
    .allocateMiningJobTokenSuccess (sampleToken 0), .allocateMiningJobTokenSuccess (sampleToken 1),
    .connect false, .openMiningChannel (sampleOpen .extended) 0,
    .openExtendedMiningChannelSuccess ⟨5, [], [1, 2], 8⟩ fun _ => 0,
    .requestTxDataSuccess 1 [] [], .declareMiningJobSuccess 2 [8]]

theorem fullTemplateRun_agrees :
    ((Runs.exec step (start sampleOutputs 4 : Client reference) fullTemplateRun).history.filterMap
        (Note.declared? reference)).length = 2 ∧
      (Runs.exec step (start sampleOutputs 4 : Client reference)
        fullTemplateRun).DeclaredOutputsAgree :=
  ⟨by decide +kernel, declared_outputs_agree reference_lawful _ _ _
    (fun o ho => by
      have hdec : deserializeOutputs sampleOutputs = some [⟨0, []⟩] := by decide +kernel
      obtain rfl := Option.some.inj (hdec.symm.trans ho)
      decide)
    (by decide +kernel)⟩

/-- The custom job a previous hash brings in coinbase-only mode pays nothing. -/
theorem coinbaseOnlyRun_loses_reward :
    ¬ (Runs.exec step (start sampleOutputs 4 : Client reference)
      coinbaseOnlyRun).DeclaredOutputsAgree := by
  intro h
  have htotal : ∀ n ∈ (Runs.exec step (start sampleOutputs 4 : Client reference)
      coinbaseOnlyRun).history, ∀ p ∈ n.declared? reference,
      totalValue p.2 = p.1.coinbaseTxValueRemaining.toNat + totalValue p.1.coinbaseTxOutputs :=
    fun n hn p hp => h.total n hn p.1 p.2 hp
  revert htotal
  decide +kernel

end Client

end GridPoolSv2.JobDeclaratorClient
