import GridPoolSv2.JobDeclaratorClient.ExtranonceAgreement
import GridPoolSv2.Pool.OpenWindow

/-!
# JobDeclaratorClient.OpenWindow: channels opened between a future template and its previous hash

The client keeps the last future template and the last previous hash in two cells, as the pool does,
and its open handlers use both. A request that waits for the upstream channel is handled when that
channel is open, so a window can also catch the answer of the pool. As in the pool, a connection is
accepted in the window, since its group takes the last previous hash with the job of the new
template still to come, and a channel is not.

* `KeysFutureJobs` is what `channels_sv2` is assumed to do with future jobs: a channel refuses a
  previous hash that names none of them, a group does so only when it has none.
* `InWindow`, `OpensWell` and `Harmless` are the client's side of what `Pool.OpenWindow` says.
* `opens_between_template_and_prevHash_iff` is the result for both programs.

Proof shape: in the window the handlers of opening go on exactly when the request is turned down
before a first job is built (`handleOpen_between`), and a connection goes on when its group takes
the template (`connect_between`). `queue_between` lifts the first to the requests that wait, by
induction on the queue, with the downstream's next channel id as the only thing that moves.
`opensWell_iff_harmless` collects this for one event and `alwaysOpensWell_iff` for a run. The result
joins it with the pool's equivalence, since both programs fail for the same reason.
-/

namespace GridPoolSv2.JobDeclaratorClient

open Consensus (Bytes TxOut)
open Runs Visit Handler

/-- Future jobs are kept by the id of their template. -/
structure JobOps.KeysFutureJobs {C : Type} (ops : JobOps C) : Prop where
  onNewTemplate : ∀ {c t o c'}, ops.onNewTemplate c t o = .ok c' → t.futureTemplate = true →
    ops.futureJob c' t.templateId ≠ none ∧
      ∀ u, u ≠ t.templateId → ops.futureJob c' u = ops.futureJob c u

/-- What a channel does with a previous hash that names none of its future jobs: it is an error when
there are some. -/
def JobOps.RefusesUnmatched {C : Type} (ops : JobOps C) : Prop :=
  ∀ {c m c' u}, ops.onSetNewPrevHash c m = .ok c' → ops.futureJob c m.templateId = none →
    ops.futureJob c u = none

/-- What a group does with a previous hash: it takes any while it has a future job, and none without
one. -/
def JobOps.TakesWithFuture {C : Type} (ops : JobOps C) : Prop :=
  ∀ {c m}, (∃ c', ops.onSetNewPrevHash c m = .ok c') ↔ ∃ u, ops.futureJob c u ≠ none

/-- New channels and groups have no future jobs. -/
structure ChannelsSv2.KeysFutureJobs (api : ChannelsSv2) : Prop where
  channel : api.channel.KeysFutureJobs
  refuses : api.channel.RefusesUnmatched
  group : api.group.KeysFutureJobs
  takes : api.group.TakesWithFuture
  newStandard : ∀ {i m p ch u}, api.newStandard i m p = .ok ch → api.channel.futureJob ch u = none
  newExtended : ∀ {i m p n ch u}, api.newExtended i m p n = .ok ch →
    api.channel.futureJob ch u = none
  newGroup : ∀ {i n g u}, api.newGroup i n = .ok g → api.group.futureJob g u = none

/-- A template that is not the one of the previous hash cannot be activated by it. -/
theorem JobOps.KeysFutureJobs.not_ok {C : Type} {ops : JobOps C} (law : ops.KeysFutureJobs)
    (hrefuses : ops.RefusesUnmatched) {c c' c'' : C} {t : NewTemplate} {m : SetNewPrevHash}
    {o : List TxOut} (hempty : ∀ u, ops.futureJob c u = none) (hfuture : t.futureTemplate = true)
    (hne : m.templateId ≠ t.templateId) (ht : ops.onNewTemplate c t o = .ok c') :
    ops.onSetNewPrevHash c' m ≠ .ok c'' := by
  intro hm
  obtain ⟨hsome, hother⟩ := law.onNewTemplate ht hfuture
  exact hsome (hrefuses hm ((hother _ hne).trans (hempty _)))

/-- A group takes a template and then any previous hash. -/
theorem JobOps.KeysFutureJobs.takes {C : Type} {ops : JobOps C} (law : ops.KeysFutureJobs)
    (htakes : ops.TakesWithFuture) {c c' : C} {t : NewTemplate} {o : List TxOut}
    (hfuture : t.futureTemplate = true) (ht : ops.onNewTemplate c t o = .ok c')
    (m : SetNewPrevHash) : ∃ c'', ops.onSetNewPrevHash c' m = .ok c'' :=
  htakes.mpr ⟨t.templateId, (law.onNewTemplate ht hfuture).1⟩

namespace ChannelManager

variable {api : ChannelsSv2}

/-- The last future template was handled, and its previous hash was not. -/
def Between (s : ChannelManager api) (t : NewTemplate) : Prop :=
  s.lastFutureTemplate = some t ∧ t.futureTemplate = true ∧
    ∀ m, s.lastNewPrevHash = some m → m.templateId ≠ t.templateId

/-- The rollable size of a new extended channel with prefix `p`. -/
def rollableFor (s : ChannelManager api) (p : Bytes) : Nat :=
  ((match s.upstreamChannel with
    | some u => api.upstreamFullSize u
    | none => soloFullExtranonceSize) + 2 ^ 64 - p.length) % 2 ^ 16

/-- An open request is turned down before a first job is built. -/
def RefusesOpen (s : ChannelManager api) (t : NewTemplate) (r : PendingChannelRequest)
    (slot : Nat) :
    Prop :=
  match r.kind with
  | .standard =>
      ∃ stored, deserializeOutputs s.coinbaseOutputs = some stored ∧
        ∀ m, s.lastNewPrevHash = some m →
          ∃ outputs, withReward t.coinbaseTxValueRemaining stored = some outputs ∧
            ∀ ds, s.downstream.lookup r.downstreamId = some ds →
              ∃ p e, api.allocateStandard s.extranonceAllocator slot = .ok p ∧
                api.newStandard ds.channelIdFactory r.message p = .error e
  | .extended =>
      ∀ m ds p, s.lastNewPrevHash = some m → s.downstream.lookup r.downstreamId = some ds →
        ds.requireStdJob = false →
        api.allocateExtended s.extranonceAllocator slot r.message.minExtranonceSize = .ok p →
        ∃ e, api.newExtended ds.channelIdFactory r.message p (s.rollableFor p) = .error e

/-- The group of a new connection can be made and takes the template. No connection is accepted
before the first previous hash, and without coinbase outputs only its own task fails. -/
def TakesConnection (s : ChannelManager api) (t : NewTemplate) : Prop :=
  s.lastNewPrevHash = none ∨ ∃ g stored,
    api.newGroup 1 (match s.upstreamChannel with
      | some u => api.upstreamFullSize u
      | none => soloFullExtranonceSize) = .ok g ∧
    deserializeOutputs s.coinbaseOutputs = some stored ∧
    ∀ outputs, withReward t.coinbaseTxValueRemaining stored = some outputs →
      ∃ g', api.group.onNewTemplate g t outputs = .ok g'

section Between

variable {s : ChannelManager api} {t : NewTemplate}

/-- An outputs field that cannot be read shuts the client down. -/
theorem rewardOutputs_action {stored : Bytes} {e : JDCError}
    (h : rewardOutputs stored t = .error e) : e.action = .shutdown := by
  unfold rewardOutputs at h
  split at h
  · cases h
    rfl
  · split at h
    · cases h
      rfl
    · cases h

/-- In the window a new channel refuses the previous hash. -/
theorem activateChannel_between (law : api.KeysFutureJobs) (hfuture : t.futureTemplate = true)
    {m : SetNewPrevHash} (hne : m.templateId ≠ t.templateId) {d : DownstreamId} {k : ChannelKind}
    {c : ChannelId} {requestId : Nat} {ch : api.Channel} (outputs : List TxOut) (joins : Bool)
    {size : Nat} (hempty : ∀ u, api.channel.futureJob ch u = none) :
    ∃ e, s.activateChannel d k c requestId ch t m outputs joins size = .fail s e ∧
      e.action = .shutdown := by
  unfold activateChannel
  split
  · exact ⟨_, rfl, rfl⟩
  · rename_i ch' hch'
    split
    · exact ⟨_, rfl, rfl⟩
    · split
      · exact ⟨_, rfl, rfl⟩
      · rename_i ch'' hch''
        exact absurd hch'' (law.channel.not_ok law.refuses hempty hfuture hne hch')

/-- The loop goes on after every error that is not fatal. -/
theorem goesOn_iff (o : Handled api) :
    Client.goesOn o = true ↔ ∀ e, o.error = some e → ¬ e.IsFatal := by
  unfold Client.goesOn JDCError.IsFatal
  split <;> rename_i h <;> simp [h]

/-- In between, an open request leaves the manager as it was, up to a channel id, and the loop goes
on exactly when the request is turned down. -/
theorem handleOpenStandard_between (law : api.KeysFutureJobs) (h : s.Between t) (d : DownstreamId)
    (msg : OpenMiningChannel) (slot : Nat) :
    let o := s.handleOpenStandardMiningChannel d msg slot
    (o.value = s ∨ o.value = s.nextChannelId d) ∧
      (Client.goesOn o = true ↔ s.RefusesOpen t ⟨d, .standard, msg⟩ slot) := by
  obtain ⟨hlast, hfuture, hne⟩ := h
  simp only [RefusesOpen, handleOpenStandardMiningChannel, hlast]
  cases hstored : deserializeOutputs s.coinbaseOutputs with
  | none => exact ⟨.inl rfl, iff_of_false Bool.false_ne_true (by simp)⟩
  | some stored =>
      cases hm : s.lastNewPrevHash with
      | none => exact ⟨.inl rfl, iff_of_true rfl (by simp)⟩
      | some m =>
          dsimp only
          cases houtputs : withReward t.coinbaseTxValueRemaining stored with
          | none => exact ⟨.inl rfl, iff_of_false Bool.false_ne_true (by simp [houtputs])⟩
          | some outputs =>
              cases hds : s.downstream.lookup d with
              | none => exact ⟨.inl rfl, iff_of_true rfl (by simp [houtputs])⟩
              | some ds =>
                  have hreached : (∃ stored', some stored = some stored' ∧ ∀ m', some m = some m' →
                      ∃ outputs', withReward t.coinbaseTxValueRemaining stored' = some outputs' ∧
                        ∀ ds', some ds = some ds' → ∃ p e,
                          api.allocateStandard s.extranonceAllocator slot = .ok p ∧
                          api.newStandard ds'.channelIdFactory msg p = .error e) ↔
                      ∃ p e, api.allocateStandard s.extranonceAllocator slot = .ok p ∧
                        api.newStandard ds.channelIdFactory msg p = .error e := by
                    simp [houtputs]
                  rw [hreached]
                  have halloc : (s.nextChannelId d).extranonceAllocator = s.extranonceAllocator :=
                    rfl
                  dsimp only
                  rw [halloc]
                  split
                  · rename_i e herr
                    exact ⟨.inr rfl, iff_of_false Bool.false_ne_true (by simp [herr])⟩
                  · rename_i p hp
                    split
                    · rename_i code hnew
                      exact ⟨.inr rfl, iff_of_true rfl ⟨p, _, hp, hnew⟩⟩
                    · rename_i e _ hnew
                      exact ⟨.inr rfl, iff_of_true rfl ⟨p, _, hp, hnew⟩⟩
                    · rename_i ch hnew
                      obtain ⟨e, hfail, hact⟩ := activateChannel_between (s := s.nextChannelId d)
                        (d := d) (k := .standard) (c := ds.channelIdFactory) law hfuture (hne m hm)
                        outputs (!ds.requireStdJob) fun _ => law.newStandard hnew
                      rw [hfail]
                      refine ⟨.inr rfl, iff_of_false ?_ ?_⟩
                      · rw [goesOn_iff]
                        exact fun hall => hall e rfl (.inr hact)
                      · rintro ⟨p', e', hp', herr⟩
                        obtain rfl := Except.ok.inj (hp.symm.trans hp')
                        rw [hnew] at herr
                        cases herr

theorem handleOpenExtended_between (law : api.KeysFutureJobs) (h : s.Between t) (d : DownstreamId)
    (msg : OpenMiningChannel) (slot : Nat) :
    let o := s.handleOpenExtendedMiningChannel d msg slot
    (o.value = s ∨ o.value = s.nextChannelId d) ∧
      (Client.goesOn o = true ↔ s.RefusesOpen t ⟨d, .extended, msg⟩ slot) := by
  obtain ⟨hlast, hfuture, hne⟩ := h
  simp only [RefusesOpen, handleOpenExtendedMiningChannel, hlast]
  cases hm : s.lastNewPrevHash with
  | none => exact ⟨.inl rfl, iff_of_true rfl (by simp)⟩
  | some m =>
      cases hds : s.downstream.lookup d with
      | none => exact ⟨.inl rfl, iff_of_true rfl (by simp)⟩
      | some ds =>
          dsimp only
          cases hstd : ds.requireStdJob with
          | true =>
              refine ⟨.inl rfl, iff_of_true rfl ?_⟩
              rintro m' ds' p' - ⟨⟩ hfalse
              rw [hstd] at hfalse
              cases hfalse
          | false =>
              have halloc : (s.nextChannelId d).extranonceAllocator = s.extranonceAllocator := rfl
              rw [if_neg Bool.false_ne_true, halloc]
              split
              · rename_i e herr
                exact ⟨.inr rfl, iff_of_true rfl (by simp [herr])⟩
              · rename_i p hp
                have hreached : (∀ m' ds' p', some m = some m' → some ds = some ds' →
                    ds'.requireStdJob = false → api.allocateExtended s.extranonceAllocator slot
                      msg.minExtranonceSize = .ok p' →
                      ∃ e, api.newExtended ds'.channelIdFactory msg p' (s.rollableFor p') =
                        .error e) ↔
                    ∃ e, api.newExtended ds.channelIdFactory msg p (s.rollableFor p) =
                      .error e := by
                  refine ⟨fun h => h m ds p rfl rfl hstd hp, ?_⟩
                  rintro h m' ds' p' - ⟨⟩ - hp'
                  obtain rfl := Except.ok.inj (hp.symm.trans hp')
                  exact h
                rw [hreached]
                have hroll : ∀ n, n = s.rollableFor p →
                    (∀ e, api.newExtended ds.channelIdFactory msg p n = .error e →
                      ∃ e, api.newExtended ds.channelIdFactory msg p (s.rollableFor p) = .error
                        e) := by
                  rintro n rfl e herr
                  exact ⟨e, herr⟩
                split
                · rename_i code hnew
                  exact ⟨.inr rfl, iff_of_true rfl (hroll _ rfl _ hnew)⟩
                · rename_i e _ hnew
                  exact ⟨.inr rfl, iff_of_true rfl (hroll _ rfl _ hnew)⟩
                · rename_i ch hnew
                  have hnot : ¬ ∃ e, api.newExtended ds.channelIdFactory msg p (s.rollableFor p) =
                      .error e := by
                    rintro ⟨e, herr⟩
                    have hok : api.newExtended ds.channelIdFactory msg p (s.rollableFor p) =
                      .ok ch :=
                      hnew
                    rw [hok] at herr
                    cases herr
                  split
                  · rename_i e herr
                    refine ⟨.inr rfl, iff_of_false ?_ hnot⟩
                    rw [goesOn_iff]
                    exact fun hall => hall e rfl (.inr (rewardOutputs_action herr))
                  · rename_i outputs houtputs
                    obtain ⟨e, hfail, hact⟩ := activateChannel_between (s := s.nextChannelId d)
                      (d := d) (k := .extended) (c := ds.channelIdFactory) law hfuture (hne m hm)
                      outputs true fun _ => law.newExtended hnew
                    rw [hfail]
                    refine ⟨.inr rfl, iff_of_false ?_ hnot⟩
                    rw [goesOn_iff]
                    exact fun hall => hall e rfl (.inr hact)

theorem handleOpen_between (law : api.KeysFutureJobs) (h : s.Between t) (r : PendingChannelRequest)
    (slot : Nat) :
    ((s.handleOpenMiningChannel r slot).value = s ∨
      (s.handleOpenMiningChannel r slot).value = s.nextChannelId r.downstreamId) ∧
      (Client.goesOn (s.handleOpenMiningChannel r slot) = true ↔ s.RefusesOpen t r slot) := by
  obtain ⟨d, k, msg⟩ := r
  cases k with
  | standard => exact handleOpenStandard_between law h d msg slot
  | extended => exact handleOpenExtended_between law h d msg slot

/-- In between, a connection is accepted once there is a group for it. -/
theorem connect_between (law : api.KeysFutureJobs) (h : s.Between t) (requireStdJob : Bool) :
    Client.goesOn (s.connect requireStdJob) = true ↔ s.TakesConnection t := by
  obtain ⟨hlast, hfuture, -⟩ := h
  simp only [connect, TakesConnection, hlast]
  cases hm : s.lastNewPrevHash with
  | none => exact iff_of_true rfl (.inl rfl)
  | some m =>
      rw [or_iff_right (Option.some_ne_none m)]
      dsimp only
      split
      · rename_i e herr
        refine iff_of_false Bool.false_ne_true fun h => ?_
        obtain ⟨g, -, hg, -⟩ := h
        cases hg.symm.trans herr
      · rename_i g hg
        split
        · rename_i hnone
          exact iff_of_false Bool.false_ne_true (by simp [hnone])
        · rename_i stored hstored
          split
          · rename_i hnone
            exact iff_of_true rfl ⟨g, stored, hg, hstored, fun _ hsome => by simp [hnone] at hsome⟩
          · rename_i outputs houtputs
            split
            · rename_i e herr
              refine iff_of_false Bool.false_ne_true fun h => ?_
              obtain ⟨g₁, stored₁, hg₁, hstored₁, htakes⟩ := h
              obtain rfl := Except.ok.inj (hg.symm.trans hg₁)
              obtain rfl := Option.some.inj (hstored.symm.trans hstored₁)
              obtain ⟨g', hg'⟩ := htakes outputs houtputs
              cases hg'.symm.trans herr
            · rename_i g' hg'
              -- the previous hash names another template, which a group does not mind
              obtain ⟨g'', hg''⟩ := law.group.takes law.takes hfuture hg' m
              rw [hg'']
              refine iff_of_true rfl ⟨g, stored, hg, hstored, fun outputs' houtputs' => ?_⟩
              obtain rfl := Option.some.inj (houtputs.symm.trans houtputs')
              exact ⟨g', hg'⟩

/-! ### Requests that wait for the upstream channel

The success message opens them one after the other, in the state that `queueStart` describes. If the
first one fails, the rest are not reached. -/

/-- The state in which `handle_open_extended_mining_channel_success` gets to the waiting requests,
if it does. -/
def queueStart (m : OpenExtendedMiningChannelSuccess) (s : ChannelManager api) :
    Option (ChannelManager api) :=
  match deserializeOutputs s.coinbaseOutputs with
  | none => none
  | some outputs =>
      if m.extranonceSize < localPrefixBytes + s.reservedDownstreamRollableExtranonceSize then none
      else
        match s.pendingDownstreamRequests.head? with
        | none => none
        | some first =>
            let totalLen := (m.extranoncePrefix.length + m.extranonceSize) % 2 ^ 16
            match api.fromUpstreamPrefix m.extranoncePrefix (totalLen % 2 ^ 8) with
            | .error _ => none
            | .ok allocator =>
                let u := s.upstreamOf m first.message.nominalHashRate
                let taken := s.takeToken s.wantsUpstreamToken
                let r := taken.2.upstreamCustomJob u taken.1 outputs
                let s := resizeGroups (api.upstreamFullSize u) { r.1 with
                  extranonceAllocator := allocator
                  upstreamChannel := some u
                  jobFactory := some r.2.1
                  upstreamState := .connected }
                some { (s.allocateTokenIf r.2.2.isSome).value with pendingDownstreamRequests := [] }

/-- The waiting requests are turned down one after the other, up to one that ends the loop. -/
def RefusesQueue (t : NewTemplate) (slots : Nat → Nat) :
    List (PendingChannelRequest × Nat) → ChannelManager api → Prop
  | [], _ => True
  | r :: rs, s => s.RefusesOpen t r.1 (slots r.2) ∧
      ((s.handleOpenMiningChannel r.1 (slots r.2)).error = none →
        RefusesQueue t slots rs (s.handleOpenMiningChannel r.1 (slots r.2)).value)

/-- Counting a channel id does not end the window. -/
theorem Between.nextChannelId (h : s.Between t) (d : DownstreamId) :
    (s.nextChannelId d).Between t := h

theorem channel?_nextChannelId {d d' : DownstreamId} {k : ChannelKind} {c : ChannelId}
    {ch : api.Channel} (h : (s.nextChannelId d).channel? d' k c = some ch) :
    s.channel? d' k c = some ch :=
  channel?_modifyDownstream (f := fun ds => { ds with channelIdFactory := ds.channelIdFactory + 1 })
    (fun _ => rfl) h

theorem goesOn_of_ok {o : Handled api} (h : o.error = none) : Client.goesOn o = true := by
  simp [Client.goesOn, h]

theorem goesOn_congr {o o' : Handled api} (h : o.error = o'.error) :
    Client.goesOn o = Client.goesOn o' := by
  simp only [Client.goesOn, h]

/-- In between, the loop over the waiting requests opens no channel. It goes on when they are turned
down. -/
theorem queue_between (law : api.KeysFutureJobs) (slots : Nat → Nat)
    (rs : List (PendingChannelRequest × Nat)) (h : s.Between t) :
    let o := forEach (fun r => handleOpenMiningChannel r.1 (slots r.2)) rs s
    (Client.goesOn o = true ↔ RefusesQueue t slots rs s) ∧
      ∀ d k c ch, o.value.channel? d k c = some ch → s.channel? d k c = some ch := by
  induction rs generalizing s with
  | nil => exact ⟨iff_of_true rfl trivial, fun _ _ _ _ hch => hch⟩
  | cons r rs ih =>
      obtain ⟨hvalue, hrefuses⟩ := handleOpen_between law h r.1 (slots r.2)
      have hbetween : (s.handleOpenMiningChannel r.1 (slots r.2)).value.Between t := by
        rcases hvalue with hvalue | hvalue <;> rw [hvalue]
        · exact h
        · exact h.nextChannelId _
      have hkept : ∀ d k c ch,
          (s.handleOpenMiningChannel r.1 (slots r.2)).value.channel? d k c = some ch →
            s.channel? d k c = some ch := by
        intro d k c ch hch
        rcases hvalue with hvalue | hvalue <;> rw [hvalue] at hch
        · exact hch
        · exact channel?_nextChannelId hch
      obtain ⟨hrest, hkeptRest⟩ := ih hbetween
      simp only [forEach, RefusesQueue]
      cases herr : (s.handleOpenMiningChannel r.1 (slots r.2)).error with
      | some e =>
          rw [Outcome.andThen_eq_of_error herr]
          exact ⟨hrefuses.trans ⟨fun hr => ⟨hr, nofun⟩, And.left⟩, hkept⟩
      | none =>
          rw [Outcome.andThen_eq_of_ok herr]
          refine ⟨(goesOn_congr rfl).symm ▸ hrest.trans ?_, fun d k c ch hch =>
            hkept d k c ch (hkeptRest d k c ch hch)⟩
          exact ⟨fun hr => ⟨hrefuses.mp (goesOn_of_ok herr), fun _ => hr⟩, fun hr => hr.2 rfl⟩

/-- The custom job of a new upstream channel touches no waiting request. -/
theorem upstreamCustomJob_pending (u : api.Upstream) (token : Option AllocateMiningJobTokenSuccess)
    (outputs : List TxOut) :
    (s.upstreamCustomJob u token outputs).1.pendingDownstreamRequests =
      s.pendingDownstreamRequests := by
  unfold upstreamCustomJob
  split <;> rfl

/-- Asking for a token only counts a request id. -/
theorem allocateTokenIf_spec (taken : Bool) (s : ChannelManager api) :
    (s.allocateTokenIf taken).error = none ∧
      ∃ requestId, (s.allocateTokenIf taken).value = { s with requestIdFactory := requestId } := by
  cases taken
  · exact ⟨rfl, _, rfl⟩
  · exact ⟨rfl, _, rfl⟩

/-- The part before the loop changes neither of the two cells, and no channel. -/
theorem queueStart_between {m : OpenExtendedMiningChannelSuccess} {s' : ChannelManager api}
    (h : s.queueStart m = some s') (hbetween : s.Between t) :
    s'.Between t ∧
      ∀ d k c ch, s'.channel? d k c = some ch → s.channel? d k c = some ch := by
  unfold queueStart at h
  split at h
  · cases h
  · rename_i outputs houtputs
    split at h
    · cases h
    · split at h
      · cases h
      · rename_i first hfirst
        dsimp only at h
        split at h
        · cases h
        · rename_i allocator hallocator
          obtain rfl := Option.some.inj h
          generalize s.upstreamOf m first.message.nominalHashRate = u
          generalize s.wantsUpstreamToken = wanted
          obtain ⟨hdownstream, hprevHash, -, hfuture⟩ := upstreamCustomJob_frame u
            (s.takeToken wanted).1 outputs (s.takeToken wanted).2
          generalize (s.takeToken wanted).2.upstreamCustomJob u (s.takeToken wanted).1
            outputs = r at *
          obtain ⟨-, requestId, hvalue⟩ := allocateTokenIf_spec r.2.2.isSome
            (resizeGroups (api.upstreamFullSize u) { r.1 with
              extranonceAllocator := allocator
              upstreamChannel := some u
              jobFactory := some r.2.1
              upstreamState := .connected })
          rw [hvalue]
          refine ⟨⟨hfuture.trans hbetween.1, hbetween.2.1, fun m' hm' =>
            hbetween.2.2 m' (hprevHash.symm.trans hm')⟩, fun d k c ch hch => ?_⟩
          have hresized := channel?_resizeGroups (s := { r.1 with
              extranonceAllocator := allocator
              upstreamChannel := some u
              jobFactory := some r.2.1
              upstreamState := .connected }) hch
          obtain ⟨ds, hds, hlookup⟩ := channel?_eq_some.mp hresized
          exact channel?_eq_some.mpr ⟨ds, hdownstream ▸ hds, hlookup⟩

/-- The part before the loop cannot fail. -/
theorem handleOpenSuccess_eq {m : OpenExtendedMiningChannelSuccess} (slots : Nat → Nat)
    {s' : ChannelManager api} (h : s.queueStart m = some s') :
    let o := forEach (fun r => handleOpenMiningChannel r.1 (slots r.2))
      s.pendingDownstreamRequests.zipIdx s'
    (s.handleOpenExtendedMiningChannelSuccess m slots).value = o.value ∧
      (s.handleOpenExtendedMiningChannelSuccess m slots).error = o.error := by
  unfold queueStart at h
  unfold handleOpenExtendedMiningChannelSuccess
  cases houtputs : deserializeOutputs s.coinbaseOutputs with
  | none =>
      rw [houtputs] at h
      cases h
  | some outputs =>
      rw [houtputs] at h
      dsimp only at h ⊢
      by_cases hsize : m.extranonceSize <
          localPrefixBytes + s.reservedDownstreamRollableExtranonceSize
      · rw [if_pos hsize] at h
        cases h
      · rw [if_neg hsize] at h ⊢
        cases hfirst : s.pendingDownstreamRequests.head? with
        | none =>
            rw [hfirst] at h
            cases h
        | some first =>
            rw [hfirst] at h
            dsimp only at h ⊢
            cases hallocator : api.fromUpstreamPrefix m.extranoncePrefix
              ((m.extranoncePrefix.length + m.extranonceSize) % 2 ^ 16 % 2 ^ 8) with
            | error e =>
                rw [hallocator] at h
                cases h
            | ok allocator =>
                rw [hallocator] at h
                obtain rfl := Option.some.inj h
                dsimp only
                generalize s.upstreamOf m first.message.nominalHashRate = u
                have hpending := upstreamCustomJob_pending
                  (s := (s.takeToken s.wantsUpstreamToken).2) u
                  (s.takeToken s.wantsUpstreamToken).1 outputs
                rw [Outcome.andThen_eq_of_ok (say_error _ _)]
                dsimp only [say_value]
                rw [Outcome.andThen_eq_of_ok (allocateTokenIf_spec _ _).1]
                have hsame : (resizeGroups (api.upstreamFullSize u)
                    { ((s.takeToken s.wantsUpstreamToken).2.upstreamCustomJob u
                        (s.takeToken s.wantsUpstreamToken).1 outputs).1 with
                      extranonceAllocator := allocator
                      upstreamChannel := some u
                      jobFactory := some ((s.takeToken s.wantsUpstreamToken).2.upstreamCustomJob u
                        (s.takeToken s.wantsUpstreamToken).1 outputs).2.1
                      upstreamState := .connected }).pendingDownstreamRequests =
                    s.pendingDownstreamRequests := hpending
                rw [hsame]
                exact ⟨rfl, rfl⟩

end Between

end ChannelManager

theorem reference_channel_keysFutureJobs : reference.channel.KeysFutureJobs where
  onNewTemplate {c t o c'} h ht := by
    obtain rfl := Except.ok.inj h
    constructor
    · simp [reference, RefChannel.onNewTemplate, RefChannel.futureJob, ht]
    · intro u hu
      simp [reference, RefChannel.onNewTemplate, RefChannel.futureJob, ht, Ne.symm hu]

theorem reference_refusesUnmatched : reference.channel.RefusesUnmatched := by
  intro c m c' u h hnone
  obtain ⟨job, hjob, -⟩ | ⟨-, hempty, -⟩ := RefChannel.setPrevHash_eq_ok h
  · cases hjob.symm.trans hnone
  · have hnil := List.isEmpty_iff.mp hempty
    simp [reference, RefChannel.futureJob, hnil]

/-- A group takes any previous hash while it has a future job. -/
theorem reference_group_onSetNewPrevHash {g g' : RefGroup} {m : SetNewPrevHash}
    (h : reference.group.onSetNewPrevHash g m = .ok g') :
    ∃ jobs, g.jobs.setPrevHash m (!g.jobs.future.isEmpty) = .ok jobs ∧
      g' = { g with jobs := jobs } := by
  cases hjobs : g.jobs.setPrevHash m !g.jobs.future.isEmpty with
  | error e =>
      simp only [reference, hjobs] at h
      cases h
  | ok jobs =>
      simp only [reference, hjobs] at h
      exact ⟨jobs, rfl, (Except.ok.inj h).symm⟩

theorem reference_takesWithFuture : reference.group.TakesWithFuture := by
  intro g m
  constructor
  · rintro ⟨g', h⟩
    obtain ⟨jobs, hjobs, -⟩ := reference_group_onSetNewPrevHash h
    obtain ⟨job, hjob, -⟩ | ⟨-, hsome, -⟩ := RefChannel.setPrevHash_eq_ok hjobs
    · refine ⟨m.templateId, ?_⟩
      rw [show reference.group.futureJob g m.templateId = some job from hjob]
      exact Option.some_ne_none job
    · cases hfuture : g.jobs.future with
      | nil => simp [hfuture] at hsome
      | cons job rest =>
          refine ⟨job.template.templateId, ?_⟩
          simp [reference, RefChannel.futureJob, hfuture]
  · rintro ⟨u, hu⟩
    have hne : g.jobs.future.isEmpty = false := by
      cases hfuture : g.jobs.future with
      | nil => simp [reference, RefChannel.futureJob, hfuture] at hu
      | cons job rest => rfl
    obtain ⟨jobs, hjobs⟩ := RefChannel.setPrevHash_moves g.jobs m
    refine ⟨{ g with jobs := jobs }, ?_⟩
    simp only [reference, hne, Bool.not_false, hjobs]
    rfl

theorem reference_keysFutureJobs : reference.KeysFutureJobs where
  channel := reference_channel_keysFutureJobs
  refuses := reference_refusesUnmatched
  group := ⟨fun {c t o c'} h ht => by
    obtain rfl := Except.ok.inj h
    exact reference_channel_keysFutureJobs.onNewTemplate (o := o) rfl ht⟩
  takes := reference_takesWithFuture
  newStandard h := by
    obtain rfl := Except.ok.inj h
    rfl
  newExtended h := by
    obtain rfl := Except.ok.inj h
    rfl
  newGroup h := by
    obtain rfl := Except.ok.inj h
    rfl

namespace Client

variable {api : ChannelsSv2}

/-- The loop is in the window of a future template. -/
def InWindow (w : Client api) (t : NewTemplate) : Prop :=
  w.running = true ∧ w.manager.Between t

/-- A new connection, an open request, or the answer of the pool that the open requests wait for. -/
def Opens (w : Client api) : Event → Prop
  | .connect _ | .openMiningChannel _ _ => True
  | .openExtendedMiningChannelSuccess m _ =>
      w.manager.mode ≠ .soloMining ∧ (w.manager.queueStart m).isSome
  | _ => False

/-- The event does not end the loop, and a channel it opens has the template's job active once the
previous hash is handled. -/
def OpensWell (w : Client api) (t : NewTemplate) (e : Event) : Prop :=
  (w.step e).running = true ∧
    ∀ d k c ch, w.manager.channel? d k c = none → (w.step e).manager.channel? d k c = some ch →
      ∀ m, m.templateId = t.templateId →
        ∃ ch' j, ((w.step e).step (.setNewPrevHash m)).manager.channel? d k c = some ch' ∧
          api.channel.activeJob ch' = some j ∧ j.template = t

/-- What is asked for is turned down before a first job is built, or waits for the upstream channel,
or is a connection, for which a group is enough. -/
def Harmless (w : Client api) (t : NewTemplate) : Event → Prop
  | .connect _ => w.manager.TakesConnection t
  | .openMiningChannel r slot =>
      w.manager.upstreamState = .noChannel ∨ w.manager.upstreamState = .pending ∨
        w.manager.RefusesOpen t r slot
  | .openExtendedMiningChannelSuccess m slots =>
      ∀ s, w.manager.queueStart m = some s →
        ChannelManager.RefusesQueue t slots w.manager.pendingDownstreamRequests.zipIdx s
  | _ => True

section Window

variable {w : Client api} {t : NewTemplate}

/-- What the loop does about an error makes no channel. -/
theorem channel?_managerAfter {o : Handled api} {d : DownstreamId} {k : ChannelKind} {c : ChannelId}
    {ch : api.Channel} (h : (managerAfter o).channel? d k c = some ch) :
    o.value.channel? d k c = some ch := by
  unfold managerAfter at h
  split at h
  · exact ChannelManager.channel?_removeDownstream h
  · exact h

/-- A handler that opens no channel, as a step of the loop. -/
theorem opensWell_iff_goesOn {e : Event} (hrun : w.running = true)
    (hkept : ∀ d k c ch, (ChannelManager.handle e w.manager).value.channel? d k c = some ch →
      w.manager.channel? d k c = some ch) :
    OpensWell w t e ↔ goesOn (ChannelManager.handle e w.manager) = true := by
  have hrunning : (w.step e).running = goesOn (ChannelManager.handle e w.manager) := by
    simp [step, hrun]
  have hmanager : (w.step e).manager = managerAfter (ChannelManager.handle e w.manager) := by
    simp [step, hrun]
  rw [OpensWell, hrunning]
  refine ⟨And.left, fun hgoes => ⟨hgoes, fun d k c ch hnone hch => ?_⟩⟩
  rw [hmanager] at hch
  rw [hkept d k c ch (channel?_managerAfter hch)] at hnone
  cases hnone

/-- In the window what is asked for ends well exactly when it is turned down, or waits, or is a
connection. -/
theorem opensWell_iff_harmless (law : api.KeysFutureJobs) (h : w.InWindow t) {e : Event}
    (he : w.Opens e) : OpensWell w t e ↔ Harmless w t e := by
  obtain ⟨hrun, hbetween⟩ := h
  cases e with
  | connect r =>
      have hhandle : ChannelManager.handle (.connect r) w.manager = w.manager.connect r := by
        simp [ChannelManager.handle, Event.fromUpstream, ChannelManager.handler]
      rw [opensWell_iff_goesOn hrun fun d k c ch hch =>
        ChannelManager.channel?_connect (hhandle ▸ hch), hhandle]
      exact ChannelManager.connect_between law hbetween r
  | openMiningChannel r slot =>
      have hhandle : ChannelManager.handle (.openMiningChannel r slot) w.manager =
          w.manager.handleDownstreamOpen r slot := by
        simp [ChannelManager.handle, Event.fromUpstream, ChannelManager.handler]
      obtain ⟨hvalue, hrefuses⟩ := ChannelManager.handleOpen_between law hbetween r slot
      have hkept : ∀ d k c ch,
          (w.manager.handleOpenMiningChannel r slot).value.channel? d k c = some ch →
            w.manager.channel? d k c = some ch := by
        intro d k c ch hch
        rcases hvalue with hvalue | hvalue <;> rw [hvalue] at hch
        · exact hch
        · exact ChannelManager.channel?_nextChannelId hch
      cases hstate : w.manager.upstreamState with
      | noChannel =>
          simp only [ChannelManager.handleDownstreamOpen, hstate] at hhandle
          rw [opensWell_iff_goesOn hrun fun d k c ch hch => by rw [hhandle] at hch; exact hch,
            hhandle]
          exact iff_of_true rfl (.inl hstate)
      | pending =>
          simp only [ChannelManager.handleDownstreamOpen, hstate] at hhandle
          rw [opensWell_iff_goesOn hrun fun d k c ch hch => by rw [hhandle] at hch; exact hch,
            hhandle]
          exact iff_of_true rfl (.inr (.inl hstate))
      | connected | soloMining =>
          simp only [ChannelManager.handleDownstreamOpen, hstate] at hhandle
          rw [opensWell_iff_goesOn hrun fun d k c ch hch => hkept d k c ch (hhandle ▸ hch), hhandle,
            hrefuses]
          simp [Harmless, hstate]
  | openExtendedMiningChannelSuccess m slots =>
      obtain ⟨hmode, hsome⟩ := he
      obtain ⟨s', hs'⟩ := Option.isSome_iff_exists.mp hsome
      have hhandle : ChannelManager.handle (.openExtendedMiningChannelSuccess m slots) w.manager =
          w.manager.handleOpenExtendedMiningChannelSuccess m slots := by
        simp [ChannelManager.handle, hmode, ChannelManager.handler]
      obtain ⟨hvalue, herror⟩ := ChannelManager.handleOpenSuccess_eq slots hs'
      obtain ⟨hbetween', hkept'⟩ := ChannelManager.queueStart_between hs' hbetween
      obtain ⟨hgoes, hkept⟩ := ChannelManager.queue_between law slots
        w.manager.pendingDownstreamRequests.zipIdx hbetween'
      rw [opensWell_iff_goesOn hrun fun d k c ch hch =>
        hkept' d k c ch (hkept d k c ch (hvalue ▸ hhandle ▸ hch)), hhandle,
        ChannelManager.goesOn_congr herror, hgoes]
      refine ⟨fun h s hs => ?_, fun h => h s' hs'⟩
      obtain rfl := Option.some.inj (hs'.symm.trans hs)
      exact h
  | _ => exact he.elim

end Window

/-- Every channel and connection that is opened in a window of the run ends well. -/
def AlwaysOpensWell (w₀ : Client api) (es : List Event) : Prop :=
  ∀ pre e post t, es = pre ++ e :: post → InWindow (exec step w₀ pre) t →
    Opens (exec step w₀ pre) e → OpensWell (exec step w₀ pre) t e

/-- The condition on runs: what is asked for in a window is turned down, or waits, or is a
connection. -/
def HarmlessInWindow (w : Client api) (e : Event) : Prop :=
  ∀ t, w.InWindow t → w.Opens e → w.Harmless t e

/-- A run opens well exactly if each of its steps is harmless. -/
theorem alwaysOpensWell_iff (law : api.KeysFutureJobs) (w₀ : Client api) (es : List Event) :
    AlwaysOpensWell w₀ es ↔ Along step HarmlessInWindow w₀ es := by
  rw [along_iff_splits]
  constructor
  · intro h pre e post hsplit t hwin he
    exact (opensWell_iff_harmless law hwin he).mp (h pre e post t hsplit hwin he)
  · intro h pre e post t hsplit hwin he
    exact (opensWell_iff_harmless law hwin he).mpr (h pre e post hsplit t hwin he)

/-- The template of the next block was handled, its previous hash was not. -/
def windowRun : List Event :=
  [.newTemplate (sampleTemplate 1 true), .setNewPrevHash (samplePrevHash 1),
    .newTemplate (sampleTemplate 2 true)]

/-- The same for the pool, with a connection. -/
def poolWindowRun : List Pool.ChannelManager.Event :=
  [.newTemplate (Pool.Reference.template 1 true 5000000000) (fun _ => .error "unreachable")
      (fun _ _ => 0),
    .setNewPrevHash (Pool.Reference.prevHash 1 1), .connect false false,
    .newTemplate (Pool.Reference.template 2 true 5000000000)
      (fun _ => .ok (Pool.Reference.selection "next" [Pool.Reference.suffixOutput 300]))
      (fun _ _ => 0)]

/-- Channels that are opened between a future template and its previous hash end well, in the pool
and in the client, exactly in the runs in which every request for a channel there is turned down and
every connection is taken. -/
theorem opens_between_template_and_prevHash_iff {env : Pool.Env} (poolLaw : env.channels.Lawful)
    {config : Pool.ChannelManager.Config} {now : UInt64}
    {manager : Pool.ChannelManager env.channels}
    (hstart : Pool.ChannelManager.start env config now = .ok manager)
    (poolEvents : List Pool.ChannelManager.Event) (law : api.KeysFutureJobs) (outputs : Bytes)
    (reserved : Nat) (events : List Event) :
    (Pool.AlwaysOpensWell manager poolEvents ↔
      Along Pool.ChannelManager.step Pool.HarmlessInWindow manager poolEvents) ∧
    (AlwaysOpensWell (start outputs reserved : Client api) events ↔
      Along step HarmlessInWindow (start outputs reserved : Client api) events) :=
  ⟨Pool.always_opens_well_iff poolLaw hstart poolEvents, alwaysOpensWell_iff law _ events⟩

/-- Both programs accept a connection in the window, and turn down a request on one that does not
exist. -/
theorem connections_in_window_open_well :
    Pool.AlwaysOpensWell Pool.Reference.manager (poolWindowRun ++ [.connect false false,
        .openChannel .extended 9 Pool.Reference.openRequest (.ok [1, 2, 3, 4]) 0]) ∧
      AlwaysOpensWell (start sampleOutputs 4 : Client reference) (windowRun ++ [.connect false,
        .openMiningChannel ⟨9, .extended, ⟨1, "miner", 0, [], 4⟩⟩ 0]) := by
  obtain ⟨hpool, hclient⟩ := opens_between_template_and_prevHash_iff Pool.Reference.channels_lawful
    Pool.Reference.start_manager
    (poolWindowRun ++ [.connect false false,
      .openChannel .extended 9 Pool.Reference.openRequest (.ok [1, 2, 3, 4]) 0])
    reference_keysFutureJobs sampleOutputs 4
    (windowRun ++ [.connect false, .openMiningChannel ⟨9, .extended, ⟨1, "miner", 0, [], 4⟩⟩ 0])
  constructor
  · have hnone : (exec Pool.ChannelManager.step Pool.Reference.manager
        (poolWindowRun ++ [.connect false false])).downstreams.lookup 9 = none := by decide +kernel
    refine hpool.mpr ⟨fun _ _ h => ?_, fun _ _ h => ?_, fun t _ _ => .inr ⟨_, _, rfl, rfl⟩,
      fun _ _ h => ?_, fun t _ _ => .inr ⟨_, _, rfl, rfl⟩, fun t _ _ => ?_, trivial⟩
    · cases h
    · cases h
    · cases h
    · intro ds m p payout mode new hds
      cases hnone.symm.trans hds
  · have hnone : (exec step (start sampleOutputs 4 : Client reference)
        (windowRun ++ [.connect false])).manager.downstream.lookup 9 = none := by decide +kernel
    refine hclient.mpr ⟨fun _ _ h => h.elim, fun _ _ h => h.elim, fun _ _ h => h.elim,
      fun t _ _ => .inr ⟨_, _, rfl, rfl, fun _ _ => ⟨_, rfl⟩⟩, fun t _ _ => .inr (.inr ?_), trivial⟩
    intro m ds p _ hds
    cases hnone.symm.trans hds

/-- A channel ends the pool on a connection from before the window, and the client on one that is
accepted in it. -/
theorem opens_in_window_shut_down :
    ¬ Pool.AlwaysOpensWell Pool.Reference.manager
        (poolWindowRun ++ [.openChannel .extended 1 Pool.Reference.openRequest
          (.ok [1, 2, 3, 4]) 0]) ∧
      ¬ AlwaysOpensWell (start sampleOutputs 4 : Client reference) (windowRun ++ [.connect false,
        .openMiningChannel ⟨0, .extended, ⟨1, "miner", 0, [], 4⟩⟩ 0]) := by
  constructor
  · intro h
    have hprev : (exec Pool.ChannelManager.step Pool.Reference.manager
        poolWindowRun).lastNewPrevHash = some (Pool.Reference.prevHash 1 1) := by decide +kernel
    have hstopped : ((exec Pool.ChannelManager.step Pool.Reference.manager poolWindowRun).step
        (.openChannel .extended 1 Pool.Reference.openRequest (.ok [1, 2, 3, 4]) 0)).running =
          false := by decide +kernel
    have hrun := (h poolWindowRun _ [] (Pool.Reference.template 2 true 5000000000) rfl
      ⟨by decide +kernel, by decide +kernel, fun m hm => by
        obtain rfl := Option.some.inj (hprev.symm.trans hm)
        decide⟩ rfl).1
    rw [hstopped] at hrun
    cases hrun
  · intro h
    have hprev : (exec step (start sampleOutputs 4 : Client reference)
        (windowRun ++ [.connect false])).manager.lastNewPrevHash = some (samplePrevHash 1) := by
      decide +kernel
    have hstopped : ((exec step (start sampleOutputs 4 : Client reference)
        (windowRun ++ [.connect false])).step
        (.openMiningChannel ⟨0, .extended, ⟨1, "miner", 0, [], 4⟩⟩ 0)).running = false := by
      decide +kernel
    have hrun := (h (windowRun ++ [.connect false])
      (.openMiningChannel ⟨0, .extended, ⟨1, "miner", 0, [], 4⟩⟩ 0) [] (sampleTemplate 2 true) rfl
      ⟨by decide +kernel, by decide +kernel, rfl, fun m hm => by
        obtain rfl := Option.some.inj (hprev.symm.trans hm)
        decide⟩ trivial).1
    rw [hstopped] at hrun
    cases hrun

end Client

end GridPoolSv2.JobDeclaratorClient
