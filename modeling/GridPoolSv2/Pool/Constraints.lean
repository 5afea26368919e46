import GridPoolSv2.Lib.Runs
import GridPoolSv2.Pool.History

/-!
# Pool.Constraints: GridPool jobs and the coinbase output constraints

The pool tells its template provider once, when it starts, how large the outputs of its
jobs can get. In GridPool mode the bound is computed from the work selection of that
moment; the jobs use whatever selection a poll or a tip refresh installed later.

* `outputsFor_eq_ok` takes the outputs of a job apart: one output for slot zero, and the
  outputs of the selection in force.
* `Fits` is the condition on an installed selection: next to a slot zero of the largest
  kind (51 bytes, one signature operation) its outputs stay below the bound.
* `placed_outputs_within_constraints` is the result over runs that install fitting
  selections only.
-/

namespace GridPoolSv2.Pool

open Consensus (Bytes TxOut)
open Payout (Text)
open Runs ChannelManager

/-- What addresses stand for: at most a witness program of 40 bytes, at most one signature
operation. -/
def AddressScripts (read : AddressReader) : Prop :=
  ∀ network address script, read network address = .ok script →
    script.length ≤ 42 ∧ Consensus.countSigopsLegacy script ≤ 1

/-! ### The outputs of a job -/

/-- The outputs of a selection; none when one of its scripts cannot be read. -/
def WorkSelection.suffix (w : WorkSelection) : List TxOut :=
  match suffixOutputs w.coinbaseOutputs with
  | .ok outputs => outputs
  | .error _ => []

/-- The outputs of a job are slot zero and the suffix of the selection. -/
theorem outputsFor_eq_ok {read : AddressReader} {w : WorkSelection} {address : Text}
    {total : UInt64} {outputs : List TxOut} (h : outputsFor read w address total = .ok outputs) :
    ∃ value script, parseAddress read address w.bitcoinNetwork = .ok script ∧
      outputs = ⟨value, script⟩ :: w.suffix := by
  unfold outputsFor at h
  split at h
  · cases h
  · split at h
    · cases h
    · split at h
      · cases h
      · rename_i script hscript
        split at h
        · cases h
        · rename_i suffix hsuffix
          cases h
          exact ⟨_, script, hscript, by rw [WorkSelection.suffix, hsuffix]⟩

section Sizes

@[simp] theorem outputsSize_cons (o : TxOut) (outputs : List TxOut) :
    outputsSize (o :: outputs) = o.size + outputsSize outputs := by
  simp [outputsSize]

@[simp] theorem sigopCost_cons (o : TxOut) (outputs : List TxOut) :
    sigopCost (o :: outputs) =
      4 * Consensus.countSigopsLegacy o.scriptPubkey + sigopCost outputs := by
  simp [sigopCost]

/-- The largest kind of address has 51 bytes and one signature operation. -/
theorem slotZero_le {read : AddressReader} (hread : AddressScripts read) {address network : Text}
    {script : Bytes} (h : parseAddress read address network = .ok script) (value : UInt64) :
    (⟨value, script⟩ : TxOut).size ≤ 51 ∧ 4 * Consensus.countSigopsLegacy script ≤ 4 := by
  unfold parseAddress at h
  split at h
  · cases h
  · obtain ⟨hlength, hsigops⟩ := hread _ _ _ h
    refine ⟨?_, by omega⟩
    have hvar : (Consensus.encodeVarInt script.length).length = 1 := by
      simp [Consensus.encodeVarInt, show script.length < 0xfd by omega]
    simp only [TxOut.size, hvar]
    omega

theorem le_slotZero (o : TxOut) : 9 ≤ o.size := by
  have hvar : 1 ≤ (Consensus.encodeVarInt o.scriptPubkey.length).length := by
    unfold Consensus.encodeVarInt
    split_ifs <;> simp
  simp only [TxOut.size]
  omega

/-- Sizes added as `u32` are the size modulo `2 ^ 32`. -/
theorem sum_size_toNat (outputs : List TxOut) :
    ((outputs.map fun o => UInt32.ofNat o.size).sum).toNat = outputsSize outputs % 2 ^ 32 := by
  induction outputs with
  | nil => rfl
  | cons o outputs ih =>
      rw [List.map_cons, List.sum_cons, UInt32.toNat_add, ih, outputsSize_cons]
      simp [Nat.add_mod]

/-- Constraints that do not overflow are the size and the cost, with the offsets. -/
theorem constraints_toNat {outputs : List TxOut} (hsize : outputsSize outputs + 43 < 2 ^ 32)
    (hsigops : sigopCost outputs + 4 < 2 ^ 16) :
    let m := coinbaseOutputConstraintsMessageWithOffset outputs
    m.coinbaseOutputMaxAdditionalSize.toNat = outputsSize outputs + 43 ∧
      m.coinbaseOutputMaxAdditionalSigops.toNat = sigopCost outputs + 4 := by
  simp only [coinbaseOutputConstraintsMessageWithOffset, coinbaseOutputConstraintsMessage,
    UInt32.toNat_add, UInt16.toNat_add, sum_size_toNat, offsetAdditionalSize, offsetMaxSigops,
    UInt16.toNat_ofNat']
  refine ⟨?_, ?_⟩
  · have : (43 : UInt32).toNat = 43 := rfl
    omega
  · have : (4 : UInt16).toNat = 4 := rfl
    omega

end Sizes

/-! ### The condition and the invariant

A selection is compared with the outputs the constraints were computed from. Selections that do not
fit may be served by the node, and then the run is not covered. -/

/-- A selection fits constraints that were computed from `outputs`: its outputs, next to a slot zero
of 51 bytes and one signature operation, stay within size plus 43 and cost plus 4. -/
def Fits (outputs : List TxOut) (w : WorkSelection) : Prop :=
  outputsSize w.suffix + 8 ≤ outputsSize outputs ∧ sigopCost w.suffix ≤ sigopCost outputs

instance (outputs : List TxOut) (w : WorkSelection) : Decidable (Fits outputs w) :=
  inferInstanceAs (Decidable (_ ∧ _))

variable {env : Env}

/-- Every selection the event installs fits. -/
def InstallsFitting (outputs : List TxOut) (s : ChannelManager env.channels) (e : Event) : Prop :=
  ∀ g w, s.gridpool = some g → Installs s g e w → Fits outputs w

/-- The outputs the constraints were computed from fit themselves. -/
theorem fits_start {g : GridPoolClient} {now : UInt64} {outputs : List TxOut}
    (h : g.constraintOutputs env.readAddress now = .ok outputs) : Fits outputs g.work := by
  obtain ⟨value, script, -, rfl⟩ := outputsFor_eq_ok h
  have hle := le_slotZero ⟨value, script⟩
  rw [Fits, outputsSize_cons, sigopCost_cons]
  omega

theorem placed_le {outputs : List TxOut} (hread : AddressScripts env.readAddress)
    {g : GridPoolClient} (hfits : Fits outputs g.work) {payout : ChannelPayout} {total now : UInt64}
    {placed : List TxOut} (h : g.coinbaseOutputs env.readAddress payout total now = .ok placed) :
    outputsSize placed ≤ outputsSize outputs + 43 ∧ sigopCost placed ≤ sigopCost outputs + 4 := by
  obtain ⟨value, script, hscript, rfl⟩ := outputsFor_eq_ok h
  obtain ⟨hsize, hsigops⟩ := slotZero_le hread hscript value
  obtain ⟨hfitSize, hfitSigops⟩ := hfits
  rw [outputsSize_cons, sigopCost_cons]
  dsimp only
  omega

/-- The selection in force fits, the constraints are the ones of the start, and every job that was
built stays within them. -/
structure Within (outputs : List TxOut) (s : ChannelManager env.channels) : Prop where
  fits : ∀ g, s.gridpool = some g → Fits outputs g.work
  constraints : s.constraints = coinbaseOutputConstraintsMessageWithOffset outputs
  placed : ∀ b, .built b ∈ s.history →
    outputsSize b.outputs ≤ outputsSize outputs + 43 ∧ sigopCost b.outputs ≤ sigopCost outputs + 4

theorem within_start {config : Config} {now : UInt64} {s : ChannelManager env.channels}
    {g : GridPoolClient} {outputs : List TxOut} (hg : config.gridpool = some g)
    (houtputs : g.constraintOutputs env.readAddress now = .ok outputs)
    (hs : start env config now = .ok s) : Within outputs s := by
  simp only [start, initial, hg, houtputs, Except.ok.injEq] at hs
  subst hs
  refine ⟨?_, rfl, by simp⟩
  intro g' hg'
  obtain rfl := Option.some.inj hg'
  exact fits_start houtputs

/-- An event that installs a fitting selection, or none, keeps the invariant. -/
theorem within_step {outputs : List TxOut} (hread : AddressScripts env.readAddress)
    {s : ChannelManager env.channels} (h : Within outputs s) (e : Event)
    (hc : InstallsFitting outputs s e) : Within outputs (s.step e) := by
  have hfits : ∀ g, (s.step e).gridpool = some g → Fits outputs g.work := by
    intro g' hg'
    have hstep := step_gridpool s e
    rw [hg'] at hstep
    generalize hbefore : s.gridpool = before at hstep
    cases hstep with
    | same => exact h.fits g' hbefore
    | installed hinstalls _ => exact hc _ _ hbefore hinstalls
  refine ⟨hfits, (step_constraints s e).trans h.constraints, ?_⟩
  intro b hb
  rcases step_built s e hb with hold | ⟨ch, ch', g, payout, now, hbuilt⟩
  · exact h.placed b hold
  · exact placed_le hread (hfits g hbuilt.gridpool) hbuilt.computed

/-! ### The result -/

/-- In every run that installs fitting selections only, the outputs of every job built from
`GridPoolClient::coinbase_outputs` stay within the constraints sent last. -/
theorem placed_outputs_within_constraints (hread : AddressScripts env.readAddress)
    {config : Config} {g : GridPoolClient} {now : UInt64} {outputs : List TxOut}
    (hg : config.gridpool = some g)
    (houtputs : g.constraintOutputs env.readAddress now = .ok outputs)
    (hsize : outputsSize outputs + 43 < 2 ^ 32) (hsigops : sigopCost outputs + 4 < 2 ^ 16)
    {s : ChannelManager env.channels} (hs : start env config now = .ok s) {es : List Event}
    (hc : Along ChannelManager.step (InstallsFitting outputs) s es) {b : Built}
    (hb : .built b ∈ (exec ChannelManager.step s es).history) :
    outputsSize b.outputs ≤
        (exec ChannelManager.step s es).constraints.coinbaseOutputMaxAdditionalSize.toNat ∧
      sigopCost b.outputs ≤
        (exec ChannelManager.step s es).constraints.coinbaseOutputMaxAdditionalSigops.toNat := by
  have h : Within outputs (exec ChannelManager.step s es) :=
    exec_induct (I := Within outputs) (fun _ e h hc => within_step hread h e hc)
      (within_start hg houtputs hs) hc
  obtain ⟨hmaxSize, hmaxSigops⟩ := constraints_toNat hsize hsigops
  rw [h.constraints, hmaxSize, hmaxSigops]
  exact h.placed b hb

/-! ### A poll before a channel is opened -/

/-- The address book of the runs has short scripts. -/
theorem addressScripts_reference : AddressScripts Reference.readAddress := by
  intro network address script h
  unfold Reference.readAddress at h
  split at h
  · rename_i entry hentry
    cases h
    have hmem : (address, script) ∈ Reference.addressBook := by
      obtain ⟨l₁, l₂, heq, -⟩ := List.lookup_eq_some_iff.mp hentry
      simp [heq]
    simp only [Reference.addressBook, List.mem_cons, Prod.mk.injEq, List.not_mem_nil,
      or_false] at hmem
    rcases hmem with ⟨-, rfl⟩ | ⟨-, rfl⟩ <;> decide
  · cases h

/-- A client that starts with one output after slot zero. -/
def startClient : GridPoolClient := Reference.client "tip" [Reference.suffixOutput 100]

/-- The outputs its constraints are computed from. -/
def startOutputs : List TxOut :=
  [⟨1, Reference.fallbackScript⟩,
    ⟨100, Reference.operatorScript⟩]

/-- The first template, a connection, a poll that installs `w`, and the first channel. -/
def pollThenOpen (w : WorkSelection) : List Event :=
  [.newTemplate (Reference.template 1 true 5000000000) (fun _ => .error "unreachable")
      (fun _ _ => 0),
    .setNewPrevHash (Reference.prevHash 1 7), .connect false false, .poll (.ok w),
    .openChannel .extended 1 Reference.openRequest (.ok [1, 2, 3, 4]) 0]

/-- The first job of that channel, under a selection with these outputs. -/
def firstBuilt (suffix : List UInt64) : Built where
  downstream := 1
  kind := .extended
  channel := 2
  jobId := 1
  template := Reference.template 1 true 5000000000
  outputs := ⟨5000000000 - suffix.sum, Reference.fallbackScript⟩ ::
    suffix.map fun value => ⟨value, Reference.operatorScript⟩
  work := Reference.selection "tip" (suffix.map Reference.suffixOutput)
  fee := false

theorem constraintOutputs_startClient :
    startClient.constraintOutputs Reference.env.readAddress 0 = .ok startOutputs :=
      by decide +kernel

theorem fitting_poll_within_constraints :
    let s : ChannelManager Reference.env.channels :=
      exec ChannelManager.step (initial (Reference.config (some startClient)) startOutputs)
        (pollThenOpen (Reference.selection "tip" [Reference.suffixOutput 300]))
    .built (firstBuilt [300]) ∈ s.history ∧
      outputsSize (firstBuilt [300]).outputs ≤ s.constraints.coinbaseOutputMaxAdditionalSize.toNat ∧
      sigopCost (firstBuilt [300]).outputs ≤
        s.constraints.coinbaseOutputMaxAdditionalSigops.toNat := by
  have hb : .built (firstBuilt [300]) ∈ (exec ChannelManager.step
      (initial (Reference.config (some startClient)) startOutputs :
        ChannelManager Reference.env.channels)
      (pollThenOpen (Reference.selection "tip" [Reference.suffixOutput 300]))).history := by
    decide +kernel
  have hstart : start Reference.env (Reference.config (some startClient)) 0 =
      .ok (initial (Reference.config (some startClient)) startOutputs) := by
    simp only [start, Reference.config, constraintOutputs_startClient]
  refine ⟨hb, placed_outputs_within_constraints addressScripts_reference rfl
    constraintOutputs_startClient (by decide +kernel) (by decide +kernel) hstart ?_ hb⟩
  refine ⟨?_, ?_, ?_, ?_, ?_, trivial⟩
  · rintro g w hg ⟨⟩
    rename_i hdue hrefresh
    cases hdue.2.2
  · rintro g w hg ⟨⟩
  · rintro g w hg ⟨⟩
  · rintro g w hg ⟨⟩
    decide +kernel
  · rintro g w hg ⟨⟩

theorem larger_poll_exceeds_constraints :
    let s : ChannelManager Reference.env.channels :=
      exec ChannelManager.step (initial (Reference.config (some startClient)) startOutputs)
        (pollThenOpen (Reference.selection "tip" ([300, 300, 300].map Reference.suffixOutput)))
    start Reference.env (Reference.config (some startClient)) 0 =
        .ok (initial (Reference.config (some startClient)) startOutputs) ∧
      .built (firstBuilt [300, 300, 300]) ∈ s.history ∧
      ¬ outputsSize (firstBuilt [300, 300, 300]).outputs ≤
        s.constraints.coinbaseOutputMaxAdditionalSize.toNat := by
  refine ⟨?_, by decide +kernel, by decide +kernel⟩
  simp only [start, Reference.config, constraintOutputs_startClient]

end GridPoolSv2.Pool
