import GridPoolSv2.Lib.Consensus
import GridPoolSv2.Lib.Sha256
import GridPoolSv2.Translator.Sv1Server

/-!
# Translator.ShareFidelity: what a submitted share says upstream

A share that `handle_submit` accepts was hashed against the job it names. What goes
upstream is built later, from `pending_share`, and its `job_version` is
`last_job_version_field`: the version of the notify the `Downstream` task delivered
**last**, whichever job the share names.

* `Derived` is the invariant on the job storage: every stored job is an upstream job or a
  keepalive of one, with the same work and an id whose part before `#` is the upstream
  job id in decimal.
* `Inv` carries it over runs, together with the ghost record of each pending and each sent
  share; `inv_exec` is the run lemma.
* `sent_reproduces_header_iff` is the result: a sent share reproduces the header that was
  hashed exactly when the last delivered version agrees with the named job's version on the
  bits the share does not choose.

Proof shape: the storage is only written by two handlers, and `Derived` is preserved by both. A
share is followed from `handle_submit`, which records what it was checked against, over the
pending share to the message. The equivalence at the end is about the bits of two versions.
-/

namespace GridPoolSv2.Translator

open Runs Sv1Server
open Consensus (leBytes leNat)
open Function (update)

/-! ### Job ids -/

theorem delimiter_not_mem_decimal (id : UInt32) : keepaliveJobIdDelimiter ∉ decimal id := by
  intro h
  have hdigit := Nat.isDigit_of_mem_toDigits (by decide) (by decide) h
  exact absurd hdigit (by decide)

/-- The id of an upstream job is no keepalive's. -/
theorem isKeepaliveJobId_decimal (id : UInt32) : isKeepaliveJobId (decimal id) = false := by
  simpa [isKeepaliveJobId] using delimiter_not_mem_decimal id

theorem isKeepaliveJobId_next (k : Nat) (j : JobId) :
    isKeepaliveJobId (nextKeepaliveJobId k j) = true := by
  simp [isKeepaliveJobId, nextKeepaliveJobId]

/-- Splitting a keepalive id gives back the id it was made from. -/
theorem extractOriginalJobId_next (k : Nat) (id : UInt32) :
    extractOriginalJobId (nextKeepaliveJobId k (decimal id)) = some (decimal id) := by
  have hne : ∀ c ∈ decimal id, decide (c ≠ keepaliveJobIdDelimiter) = true := by
    intro c hc
    refine decide_eq_true ?_
    rintro rfl
    exact delimiter_not_mem_decimal id hc
  rw [extractOriginalJobId, isKeepaliveJobId_next, if_pos rfl, nextKeepaliveJobId,
    List.takeWhile_append_of_pos hne]
  simp

/-- `j` is the text of upstream job `id`, or of a keepalive of it. -/
def NamesJob (j : JobId) (id : UInt32) : Prop :=
  j = decimal id ∨ ∃ k, j = nextKeepaliveJobId k (decimal id)

theorem upstreamJobId_of_namesJob {j : JobId} {id : UInt32} (h : NamesJob j id) :
    upstreamJobId j = decimal id := by
  rcases h with rfl | ⟨k, rfl⟩
  · simp [upstreamJobId, extractOriginalJobId, isKeepaliveJobId_decimal]
  · simp [upstreamJobId, extractOriginalJobId_next]

/-- A keepalive of a job that names `id` names `id`. -/
theorem namesJob_next {j : JobId} {id : UInt32} (h : NamesJob j id) (k : Nat) :
    NamesJob (nextKeepaliveJobId k ((extractOriginalJobId j).getD j)) id := by
  have hj : (extractOriginalJobId j).getD j = decimal id := upstreamJobId_of_namesJob h
  rw [hj]
  exact Or.inr ⟨k, rfl⟩

/-! ### Versions -/

theorem rolledVersion_self (v mask : UInt32) : rolledVersion v v mask = v := by
  apply UInt32.eq_of_toBitVec_eq
  ext i hi
  simp only [rolledVersion, UInt32.toBitVec_or, UInt32.toBitVec_and, UInt32.toBitVec_not,
    BitVec.getElem_or, BitVec.getElem_and, BitVec.getElem_not]
  cases v.toBitVec[i] <;> cases mask.toBitVec[i] <;> rfl

/-- Two job versions roll to the same version exactly when they agree outside the mask. -/
theorem rolledVersion_eq_iff (v w bits mask : UInt32) :
    rolledVersion v bits mask = rolledVersion w bits mask ↔ v &&& ~~~mask = w &&& ~~~mask := by
  constructor
  · intro h
    apply UInt32.eq_of_toBitVec_eq
    ext i hi
    have hb := congrArg (fun x : UInt32 => x.toBitVec[i]) h
    simp only [rolledVersion, UInt32.toBitVec_or, UInt32.toBitVec_and, UInt32.toBitVec_not,
      BitVec.getElem_or, BitVec.getElem_and, BitVec.getElem_not] at hb ⊢
    revert hb
    cases v.toBitVec[i] <;> cases w.toBitVec[i] <;> cases mask.toBitVec[i] <;> simp
  · intro h
    rw [rolledVersion, rolledVersion, h]

/-! ### Where stored jobs come from -/

/-- Two notifies describe the same work: everything a header takes from a job agrees. -/
structure SameWork (n m : Notify) : Prop where
  prevHash : n.prevHash = m.prevHash
  coinBase1 : n.coinBase1 = m.coinBase1
  coinBase2 : n.coinBase2 = m.coinBase2
  merkleBranch : n.merkleBranch = m.merkleBranch
  version : n.version = m.version
  bits : n.bits = m.bits

/-- `n` is upstream job `u`, or a keepalive of it. -/
structure DerivedFrom (u : UpstreamJob) (n : Notify) : Prop where
  work : SameWork n u.notify
  names : NamesJob n.jobId u.job.jobId

/-- `n` comes from an upstream job of the history. -/
def Derived (history : List UpstreamJob) (n : Notify) : Prop :=
  ∃ u ∈ history, DerivedFrom u n

theorem Derived.mono {h h' : List UpstreamJob} {n : Notify} (hsub : h ⊆ h') (hd : Derived h n) :
    Derived h' n := by
  obtain ⟨u, hu, hn⟩ := hd
  exact ⟨u, hsub hu, hn⟩

/-- A fresh notify is derived from its own upstream job. -/
theorem derivedFrom_self {lib : Sv1Lib} (hl : lib.Lawful) {p : SetNewPrevHash}
    {m : NewExtendedMiningJob} {c : Bool} {n : Notify} (h : lib.buildNotify p m c = some n) :
    DerivedFrom ⟨m, n⟩ n :=
  ⟨⟨rfl, rfl, rfl, rfl, rfl, rfl⟩, Or.inl (hl.notify_jobId h)⟩

/-- A keepalive of a derived job is derived. -/
theorem Derived.keepalive {h : List UpstreamJob} {n : Notify} (hd : Derived h n) (k : Nat)
    (time : UInt32) :
    Derived h { n with
      jobId := nextKeepaliveJobId k ((extractOriginalJobId n.jobId).getD n.jobId), time :=
        time } := by
  obtain ⟨u, hu, hn⟩ := hd
  refine ⟨u, hu, ⟨?_, namesJob_next hn.names k⟩⟩
  exact ⟨hn.work.prevHash, hn.work.coinBase1, hn.work.coinBase2, hn.work.merkleBranch,
    hn.work.version, hn.work.bits⟩

/-! ### The invariant -/

/-- The ghost record `c` is what the pending share `p` was accepted on. -/
structure Checked (lib : Sv1Lib) (history : List UpstreamJob) (p : SubmitShareWithChannelId)
    (c : ShareCheck) : Prop where
  share : p.share = c.share
  mask : p.versionRollingMask = c.versionRollingMask
  jobVersion : p.jobVersion = c.lastJobVersionField
  named : c.share.jobId = c.job.jobId
  derived : Derived history c.job
  header : shareHeader lib c.share c.extranonce1 c.versionRollingMask c.job = some c.header

/-- A sent message was built from an accepted share `c` and the version `v` that was current when
the share was accepted. -/
structure BuiltFrom (lib : Sv1Lib) (history : List UpstreamJob) (msg : SubmitSharesExtended)
    (c : ShareCheck) (v : UInt32) : Prop where
  current : c.lastJobVersionField = some v
  built : ∃ ch seq, lib.buildSubmit { c.share with jobId := upstreamJobId c.share.jobId } ch seq v
    c.versionRollingMask = some msg
  named : c.share.jobId = c.job.jobId
  derived : Derived history c.job
  header : shareHeader lib c.share c.extranonce1 c.versionRollingMask c.job = some c.header

/-- The share a connection holds back, if any, is on record. -/
def PendingOk (lib : Sv1Lib) (history : List UpstreamJob) (data : DownstreamData) : Prop :=
  ∀ p, data.pendingShare = some p → ∃ c, data.accepted = some c ∧ Checked lib history p c

/-- The invariant of the SV1 side. -/
structure Inv (lib : Sv1Lib) (s : Sv1Server) : Prop where
  jobs : ∀ ch jobs, s.validSv1Jobs ch = some jobs → ∀ n ∈ jobs, Derived s.history n
  pending : ∀ d data, s.downstreams d = some data → PendingOk lib s.history data
  sent : ∀ e ∈ s.sent, ∃ c v, e.check = some c ∧ BuiltFrom lib s.history e.msg c v

theorem inv_initial (lib : Sv1Lib) (mode : TproxyMode) (k : UInt16) :
    Inv lib (Sv1Server.initial mode k) where
  jobs := by
    intro ch jobs h
    cases h
  pending := by
    intro d data h
    cases h
  sent := by
    intro e he
    cases he

section Preservation

variable {lib : Sv1Lib} {s s' : Sv1Server}

/-- The invariant reads the job storage, the connections, the sent messages and the history. -/
theorem Inv.frame (h : Inv lib s) (hjobs : s'.validSv1Jobs = s.validSv1Jobs)
    (hdown : s'.downstreams = s.downstreams) (hsent : s'.sent = s.sent)
    (hhist : s'.history = s.history) : Inv lib s' := by
  refine ⟨?_, ?_, ?_⟩
  · rw [hjobs, hhist]
    exact h.jobs
  · rw [hdown, hhist]
    exact h.pending
  · rw [hsent, hhist]
    exact h.sent

/-- Replacing a connection's data keeps the invariant when its pending share is on record. -/
theorem Inv.setData (h : Inv lib s) (d : DownstreamId) {data : DownstreamData}
    (hdata : PendingOk lib s.history data) : Inv lib (s.setData d data) := by
  refine ⟨h.jobs, ?_, h.sent⟩
  intro d' data' hd'
  by_cases heq : d' = d
  · subst heq
    simp only [Sv1Server.setData, Function.update_self, Option.some.injEq] at hd'
    subst hd'
    exact hdata
  · simp only [Sv1Server.setData, Function.update_of_ne heq] at hd'
    exact h.pending d' data' hd'

/-- A handler that leaves `pending_share` alone leaves it on record. -/
theorem PendingOk.congr {history : List UpstreamJob} {data data' : DownstreamData}
    (h : PendingOk lib history data) (hp : data'.pendingShare = data.pendingShare)
    (ha : data'.accepted = data.accepted) : PendingOk lib history data' := by
  intro p hp'
  rw [hp] at hp'
  rw [ha]
  exact h p hp'

/-- The history only grows. -/
theorem Inv.history_mono (h : Inv lib s) {history : List UpstreamJob}
    (hsub : s.history ⊆ history) : Inv lib { s with history := history } := by
  refine ⟨?_, ?_, ?_⟩
  · intro ch jobs hjobs n hn
    exact (h.jobs ch jobs hjobs n hn).mono hsub
  · intro d data hd p hp
    obtain ⟨c, hc, hck⟩ := h.pending d data hd p hp
    exact ⟨c, hc, { hck with derived := hck.derived.mono hsub }⟩
  · intro e he
    obtain ⟨c, v, hc, hb⟩ := h.sent e he
    exact ⟨c, v, hc, { hb with derived := hb.derived.mono hsub }⟩

/-- Storing a list of derived jobs under one key keeps the invariant. -/
theorem Inv.setJobs (h : Inv lib s) (ch : ChannelId) {o : Option (List Notify)}
    (ho : ∀ jobs, o = some jobs → ∀ n ∈ jobs, Derived s.history n) :
    Inv lib { s with validSv1Jobs := update s.validSv1Jobs ch o } := by
  refine ⟨?_, h.pending, h.sent⟩
  intro ch' jobs hjobs
  by_cases heq : ch' = ch
  · subst heq
    simp only [Function.update_self] at hjobs
    exact ho jobs hjobs
  · simp only [Function.update_of_ne heq] at hjobs
    exact h.jobs ch' jobs hjobs

theorem Inv.enqueue (h : Inv lib s) (d : DownstreamId) (n : Notification) :
    Inv lib (s.enqueue d n) :=
  h.frame rfl rfl rfl rfl

theorem Inv.sendToChannel (h : Inv lib s) (ch : ChannelId) (n : Notification) :
    Inv lib (s.sendToChannel ch n) := by
  unfold Sv1Server.sendToChannel
  split
  · exact h.frame rfl rfl rfl rfl
  · split
    · exact h
    · exact h.enqueue _ _

/-! ### Upstream messages and keepalives -/

theorem Inv.handleNewExtendedMiningJob (hl : lib.Lawful) (h : Inv lib s)
    (m : NewExtendedMiningJob) : Inv lib (s.handleNewExtendedMiningJob lib m) := by
  unfold Sv1Server.handleNewExtendedMiningJob
  split
  · exact h
  · dsimp only
    split
    · exact h
    · rename_i prevhash _ notify hbuild
      apply Inv.sendToChannel
      -- first the history grows, then the list of the channel is replaced
      have hgrown : Inv lib { s with history := ⟨m, notify⟩ :: s.history } :=
        h.history_mono (List.subset_cons_self _ _)
      refine hgrown.setJobs _ ?_
      intro jobs hjobs n hn
      obtain rfl := Option.some.inj hjobs
      rcases List.mem_append.mp hn with hold | hnew
      · split at hold
        · cases hold
        · cases hstored : s.validSv1Jobs (s.jobChannel m.channelId) with
          | none => simp [hstored] at hold
          | some old =>
              rw [hstored] at hold
              exact hgrown.jobs _ old hstored n hold
      · obtain rfl := List.mem_singleton.mp hnew
        exact ⟨⟨m, n⟩, List.mem_cons_self, derivedFrom_self hl hbuild⟩

theorem Inv.handleOpenExtendedMiningChannelSuccess (h : Inv lib s) (t : Nat)
    (m : OpenExtendedMiningChannelSuccess) :
    Inv lib (s.handleOpenExtendedMiningChannelSuccess t m) := by
  unfold Sv1Server.handleOpenExtendedMiningChannelSuccess
  split
  · exact h
  · rename_i d _
    have hframe : Inv lib { s with
        requestIdToDownstreamId := update s.requestIdToDownstreamId m.requestId none } :=
      h.frame rfl rfl rfl rfl
    dsimp only
    split
    · exact hframe
    · rename_i data hdata
      apply Inv.enqueue
      -- opening the channel sets extranonce and channel id, and leaves the pending share alone
      have hdata' : PendingOk lib s.history { data with
          extranonce1 := m.extranoncePrefix
          extranonce2Len := m.extranonceSize
          channelId := some m.channelId
          upstreamTarget := some m.target } :=
        (h.pending d data hdata).congr rfl rfl
      exact (hframe.setData d hdata').frame rfl rfl rfl rfl

theorem Inv.setPendingTarget (h : Inv lib s) (d : DownstreamId) (t : Nat) :
    Inv lib (s.setPendingTarget d t) := by
  unfold Sv1Server.setPendingTarget
  split
  · exact h
  · rename_i data hdata
    apply Inv.enqueue
    exact h.setData d ((h.pending d data hdata).congr rfl rfl)

/-- The job `get_last_job` returns is a stored one. -/
theorem getLastJob_derived (h : Inv lib s) {ch : Option ChannelId} {n : Notify}
    (hn : s.getLastJob ch = some n) : Derived s.history n := by
  simp only [getLastJob, Option.bind_eq_bind, Option.bind_eq_some_iff] at hn
  obtain ⟨c, _, jobs, hjobs, hlast⟩ := hn
  exact h.jobs c jobs hjobs n (List.mem_of_getLast? hlast)

theorem Inv.pushKeepalive (h : Inv lib s) (now : Nat) (d : DownstreamId) {data : DownstreamData}
    (hdata : PendingOk lib s.history data) {n : Notify} (hn : Derived s.history n) :
    Inv lib (s.pushKeepalive now d data n) := by
  have hstored : ∀ ch, Inv lib { s with
      validSv1Jobs := update s.validSv1Jobs ch ((s.validSv1Jobs ch).map (· ++ [n])) } := by
    intro ch
    refine h.setJobs ch ?_
    intro jobs hjobs m hm
    obtain ⟨old, hold, rfl⟩ := Option.map_eq_some_iff.mp hjobs
    rcases List.mem_append.mp hm with hm | hm
    · exact h.jobs ch old hold m hm
    · obtain rfl := List.mem_singleton.mp hm
      exact hn
  have hsend : ∀ t : Sv1Server, Inv lib t → t.history = s.history →
      Inv lib (if (t.queues d).isSome then
        (t.enqueue d (.notify n)).setData d { data with lastJobReceivedTime := some now }
      else t) := by
    intro t ht hh
    split
    · refine (ht.enqueue d _).setData d ?_
      show PendingOk lib t.history _
      rw [hh]
      exact hdata.congr rfl rfl
    · exact ht
  unfold Sv1Server.pushKeepalive
  cases s.lookupChannel data.channelId with
  | none => exact hsend s h rfl
  | some ch => exact hsend _ (hstored ch) rfl

theorem Inv.keepalive (h : Inv lib s) (now : Nat) (d : DownstreamId) :
    Inv lib (s.keepalive now d) := by
  unfold Sv1Server.keepalive
  split
  · exact h
  · rename_i data hdata
    split
    · split
      · exact h
      · rename_i lastJob hlast
        dsimp only
        split
        · exact h
        · have hcount : Inv lib { s with keepaliveJobIdCounter := s.keepaliveJobIdCounter + 1 } :=
            h.frame rfl rfl rfl rfl
          exact hcount.pushKeepalive now d (h.pending d data hdata)
            ((getLastJob_derived h hlast).keepalive _ _)
    · exact h

/-! ### Connections -/

theorem handleSv1ServerMessage_pendingShare (now : Nat) (data : DownstreamData) (n : Notification) :
    (handleSv1ServerMessage now data n).pendingShare = data.pendingShare ∧
      (handleSv1ServerMessage now data n).accepted = data.accepted := by
  cases n with
  | setDifficulty t => exact ⟨rfl, rfl⟩
  | notify n =>
      unfold handleSv1ServerMessage
      dsimp only
      split
      · split <;> exact ⟨rfl, rfl⟩
      · exact ⟨rfl, rfl⟩

theorem handleSv1HandshakeCompletion_pendingShare (now : Nat) (data : DownstreamData) :
    (handleSv1HandshakeCompletion now data).pendingShare = data.pendingShare ∧
      (handleSv1HandshakeCompletion now data).accepted = data.accepted := by
  unfold handleSv1HandshakeCompletion
  cases data.cachedSetDifficulty <;> cases data.cachedNotify <;> exact ⟨rfl, rfl⟩

theorem Inv.deliver (h : Inv lib s) (now : Nat) (d : DownstreamId) :
    Inv lib (s.deliver now d) := by
  unfold Sv1Server.deliver
  split
  · rename_i data n rest hdata _
    obtain ⟨hp, ha⟩ := handleSv1ServerMessage_pendingShare now data n
    exact (h.setData d ((h.pending d data hdata).congr hp ha)).frame rfl rfl rfl rfl
  · exact h

theorem Inv.handleConfigure (h : Inv lib s) (d : DownstreamId) (mask minBit : Option UInt32) :
    Inv lib (s.handleConfigure d mask minBit) := by
  unfold Sv1Server.handleConfigure
  split
  · exact h
  · rename_i data hdata
    exact h.setData d ((h.pending d data hdata).congr rfl rfl)

theorem Inv.handleAuthorize (h : Inv lib s) (now : Nat) (d : DownstreamId) (name : List Char) :
    Inv lib (s.handleAuthorize now d name) := by
  unfold Sv1Server.handleAuthorize
  split
  · exact h
  · rename_i data hdata
    obtain ⟨hp, ha⟩ := handleSv1HandshakeCompletion_pendingShare now
      { data with userIdentity := tlvCompatibleUsername name }
    exact h.setData d ((h.pending d data hdata).congr hp ha)

theorem Inv.connect (h : Inv lib s) (d : DownstreamId) (target : Nat) :
    Inv lib (s.connect d target) := by
  unfold Sv1Server.connect
  split
  · exact h
  · have hfresh : PendingOk lib s.history { target := target } := by
      intro p hp
      cases hp
    exact (h.setData d hfresh).frame rfl rfl rfl rfl

theorem Inv.handleDownstreamDisconnect (h : Inv lib s) (d : DownstreamId) :
    Inv lib (s.handleDownstreamDisconnect d) := by
  refine ⟨h.jobs, ?_, h.sent⟩
  intro d' data hd'
  by_cases heq : d' = d
  · subst heq
    simp [Sv1Server.handleDownstreamDisconnect] at hd'
  · simp only [Sv1Server.handleDownstreamDisconnect, Function.update_of_ne heq] at hd'
    exact h.pending d' data hd'

/-! ### The submit path -/

/-- The job `handle_submit` finds is a stored one, under the id asked for. -/
theorem findJob_spec (h : Inv lib s) {ch : ChannelId} {j : JobId} {n : Notify}
    (hn : s.findJob ch j = some n) : Derived s.history n ∧ n.jobId = j := by
  simp only [findJob, Option.bind_eq_bind, Option.bind_eq_some_iff] at hn
  obtain ⟨jobs, hjobs, hfind⟩ := hn
  exact ⟨h.jobs _ jobs hjobs n (List.mem_of_find?_eq_some hfind),
    by simpa using List.find?_some hfind⟩

theorem Inv.handleSubmit (h : Inv lib s) (d : DownstreamId) (request : Submit) :
    Inv lib (s.handleSubmit lib d request) := by
  unfold Sv1Server.handleSubmit
  split
  · exact h
  · rename_i data hdata
    split
    · exact h
    · rename_i channelId _
      split
      · exact h
      · rename_i job hjob
        obtain ⟨hderived, hid⟩ := findJob_spec h hjob
        dsimp only
        split
        · rename_i hvalid
          refine h.setData d ?_
          intro p hp
          obtain rfl := Option.some.inj hp
          -- the share was found valid, so `validate_sv1_share` did build a header
          cases hheader : shareHeader lib request data.extranonce1 data.versionRollingMask job with
          | none => simp [validateSv1Share, hheader] at hvalid
          | some header =>
              exact ⟨_, rfl, rfl, rfl, rfl, hid.symm, hderived, hheader⟩
        · exact h

/-- What `handle_submit_shares` adds to the sent messages, if anything, is built from the share and
the version it carries. -/
theorem handleSubmitShares_sent {message : SubmitShareWithChannelId} {check : Option ShareCheck}
    {e : SentShare} (he : e ∈ (s.handleSubmitShares lib message check).sent) :
    e ∈ s.sent ∨ ∃ v seq, message.jobVersion = some v ∧ e.check = check ∧
      lib.buildSubmit { message.share with jobId := upstreamJobId message.share.jobId }
        message.channelId seq v message.versionRollingMask = some e.msg := by
  unfold Sv1Server.handleSubmitShares at he
  split at he
  · exact Or.inl he
  · rename_i v hv
    dsimp only at he
    split at he
    · exact Or.inl he
    · rename_i msg hmsg
      have hnew : ∀ tlv, e ∈ ⟨msg, tlv, check⟩ :: s.sent → e ∈ s.sent ∨ ∃ v seq,
          message.jobVersion = some v ∧ e.check = check ∧
          lib.buildSubmit { message.share with jobId := upstreamJobId message.share.jobId }
            message.channelId seq v message.versionRollingMask = some e.msg := by
        intro tlv he
        rcases List.mem_cons.mp he with rfl | he
        · exact Or.inr ⟨v, _, hv, rfl, hmsg⟩
        · exact Or.inl he
      split at he
      · exact hnew _ he
      · split at he
        · exact Or.inl he
        · split at he
          · exact Or.inl he
          · exact hnew _ he

theorem handleSubmitShares_frame (lib : Sv1Lib) (s : Sv1Server) (message : SubmitShareWithChannelId)
    (check : Option ShareCheck) :
    (s.handleSubmitShares lib message check).validSv1Jobs = s.validSv1Jobs ∧
      (s.handleSubmitShares lib message check).downstreams = s.downstreams ∧
      (s.handleSubmitShares lib message check).history = s.history := by
  unfold Sv1Server.handleSubmitShares
  split
  · exact ⟨rfl, rfl, rfl⟩
  · dsimp only
    split
    · exact ⟨rfl, rfl, rfl⟩
    · split
      · exact ⟨rfl, rfl, rfl⟩
      · split
        · exact ⟨rfl, rfl, rfl⟩
        · split <;> exact ⟨rfl, rfl, rfl⟩

theorem Inv.handleSubmitShares (h : Inv lib s) {message : SubmitShareWithChannelId}
    {c : ShareCheck} (hc : Checked lib s.history message c) :
    Inv lib (s.handleSubmitShares lib message (some c)) := by
  obtain ⟨hjobs, hdown, hhist⟩ := handleSubmitShares_frame lib s message (some c)
  refine ⟨?_, ?_, ?_⟩
  · rw [hjobs, hhist]
    exact h.jobs
  · rw [hdown, hhist]
    exact h.pending
  · rw [hhist]
    intro e he
    rcases handleSubmitShares_sent he with hold | ⟨v, seq, hv, hcheck, hbuilt⟩
    · exact h.sent e hold
    · refine ⟨c, v, hcheck, ⟨hc.jobVersion ▸ hv, ⟨message.channelId, seq, ?_⟩, hc.named, hc.derived,
        hc.header⟩⟩
      rw [← hc.share, ← hc.mask]
      exact hbuilt

theorem Inv.flushPending (h : Inv lib s) (d : DownstreamId) : Inv lib (s.flushPending lib d) := by
  unfold Sv1Server.flushPending
  split
  · exact h
  · rename_i data hdata
    split
    · exact h
    · rename_i p hp
      obtain ⟨c, hc, hck⟩ := h.pending d data hdata p hp
      have hset : Inv lib (s.setData d { data with pendingShare := none, accepted := none }) := by
        refine h.setData d ?_
        intro q hq
        cases hq
      rw [hc]
      exact hset.handleSubmitShares hck

theorem inv_step (hl : lib.Lawful) (h : Inv lib s) (e : Event) : Inv lib (step lib s e) := by
  cases e with
  | connect d target => exact h.connect d target
  | disconnect d => exact h.handleDownstreamDisconnect d
  | openChannelRequest d => exact h.frame rfl rfl rfl rfl
  | openSuccess t m => exact h.handleOpenExtendedMiningChannelSuccess t m
  | setNewPrevHash m => exact h.frame rfl rfl rfl rfl
  | newExtendedMiningJob m => exact h.handleNewExtendedMiningJob hl m
  | pendingTarget d target => exact h.setPendingTarget d target
  | keepalive now d => exact h.keepalive now d
  | deliver now d => exact h.deliver now d
  | configure d mask minBit => exact h.handleConfigure d mask minBit
  | authorize now d name => exact h.handleAuthorize now d name
  | submit d request => exact h.handleSubmit d request
  | flush d => exact h.flushPending d

theorem inv_exec (hl : lib.Lawful) (mode : TproxyMode) (k : UInt16) (es : List Event) :
    Inv lib (exec (step lib) (Sv1Server.initial mode k) es) :=
  exec_invariant (I := Inv lib) (fun _ e h => inv_step hl h e) (inv_initial lib mode k) es

end Preservation

/-! ### The header upstream recomputes -/

/-- The header the upstream server builds for a submission on its job `u`: the job's fields, with
the submitted version, time and nonce, and the coinbase completed by the channel's extranonce prefix
and the submitted extranonce. -/
def upstreamHeader (lib : Sv1Lib) (u : Notify) (extranonce1 : Bytes) (m : SubmitSharesExtended) :
    Option Header :=
  (lib.merkleRootFromPath u.coinBase1 u.coinBase2 (extranonce1 ++ m.extranonce) u.merkleBranch).map
    fun merkleRoot =>
      { version := m.version
        prevBlockhash := u.prevHash
        merkleRoot := merkleRoot
        time := m.ntime
        bits := u.bits
        nonce := m.nonce }

/-- A sent share names the upstream job its own job is, or is a keepalive of, and upstream
recomputes the very header that `validate_sv1_share` hashed. -/
def Reproduces (lib : Sv1Lib) (history : List UpstreamJob) (msg : SubmitSharesExtended)
    (c : ShareCheck) : Prop :=
  ∃ u ∈ history, DerivedFrom u c.job ∧ msg.jobId = u.job.jobId ∧
    upstreamHeader lib u.notify c.extranonce1 msg = some c.header

/-- The version bits a share does not choose: all of them without version rolling, else those
outside the mask. -/
def unrolledBits (c : ShareCheck) : UInt32 :=
  match c.share.versionBits with
  | none => 0xFFFFFFFF
  | some _ => ~~~(c.versionRollingMask.getD defaultVersionRollingMask)

/-- The condition on the state in which `handle_submit` runs: the version field of the last
delivered notify agrees with the named job's version on every bit the share does not choose. -/
def JobVersionCurrent (c : ShareCheck) : Prop :=
  c.lastJobVersionField.map (· &&& unrolledBits c) = some (c.job.version &&& unrolledBits c)

instance (c : ShareCheck) : Decidable (JobVersionCurrent c) :=
  inferInstanceAs (Decidable (_ = _))

/-- The version a header takes from the named job. -/
theorem shareHeader_inv {lib : Sv1Lib} {share : Submit} {extranonce1 : Bytes} {mask : Option UInt32}
    {job : Notify} {header : Header}
    (h : shareHeader lib share extranonce1 mask job = some header) :
    ∃ root, lib.merkleRootFromPath job.coinBase1 job.coinBase2 (extranonce1 ++ share.extraNonce2)
        job.merkleBranch = some root ∧
      header =
        { version := rolledVersion job.version (share.versionBits.getD job.version)
            (mask.getD defaultVersionRollingMask)
          prevBlockhash := job.prevHash
          merkleRoot := root
          time := share.time
          bits := job.bits
          nonce := share.nonce } := by
  unfold shareHeader at h
  dsimp only at h
  split at h
  · split at h
    · cases h
    · rename_i root hroot
      split at h
      · exact ⟨root, hroot, (Option.some.inj h).symm⟩
      · cases h
  · cases h

section Result

variable {lib : Sv1Lib} {history : List UpstreamJob} {msg : SubmitSharesExtended} {c : ShareCheck}
  {v : UInt32}

/-- The version that was submitted is the hashed one exactly when the condition holds. -/
theorem version_eq_iff (hl : lib.Lawful) (hb : BuiltFrom lib history msg c v) :
    msg.version = c.header.version ↔ JobVersionCurrent c := by
  obtain ⟨ch, seq, hbuilt⟩ := hb.built
  obtain ⟨root, _, hheader⟩ := shareHeader_inv hb.header
  have hmsg := hl.submit_version hbuilt
  rw [hmsg, hheader]
  rw [JobVersionCurrent, hb.current, Option.map_some, Option.some.injEq, unrolledBits]
  cases c.share.versionBits with
  | none =>
      have hall : ∀ x : UInt32, x &&& 0xFFFFFFFF = x := fun _ => UInt32.and_neg_one
      simp only [Option.getD_none, rolledVersion_self, hall]
  | some bits =>
      simp only [Option.getD_some]
      exact rolledVersion_eq_iff v c.job.version bits _

/-- Everything but the version is reproduced in any case. -/
theorem upstreamHeader_eq (hl : lib.Lawful) (hb : BuiltFrom lib history msg c v) {u : UpstreamJob}
    (hu : DerivedFrom u c.job) :
    upstreamHeader lib u.notify c.extranonce1 msg =
      some { c.header with version := msg.version } := by
  obtain ⟨ch, seq, hbuilt⟩ := hb.built
  obtain ⟨root, hroot, hheader⟩ := shareHeader_inv hb.header
  have hroot' : lib.merkleRootFromPath u.notify.coinBase1 u.notify.coinBase2
      (c.extranonce1 ++ msg.extranonce) u.notify.merkleBranch = some root := by
    rw [hl.submit_extranonce hbuilt, ← hu.work.coinBase1, ← hu.work.coinBase2,
      ← hu.work.merkleBranch]
    exact hroot
  rw [upstreamHeader, hroot', hheader, hl.submit_ntime hbuilt, hl.submit_nonce hbuilt,
    hu.work.prevHash, hu.work.bits]
  rfl

/-- The job id that was submitted is that of the upstream job. -/
theorem jobId_eq (hl : lib.Lawful) (hb : BuiltFrom lib history msg c v) {u : UpstreamJob}
    (hu : DerivedFrom u c.job) : msg.jobId = u.job.jobId := by
  obtain ⟨ch, seq, hbuilt⟩ := hb.built
  refine hl.submit_jobId hbuilt ?_
  show upstreamJobId c.share.jobId = decimal u.job.jobId
  rw [hb.named]
  exact upstreamJobId_of_namesJob hu.names

/-- The header is the same if the version is. -/
theorem reproduces_iff (hl : lib.Lawful) (hb : BuiltFrom lib history msg c v) :
    Reproduces lib history msg c ↔ JobVersionCurrent c := by
  rw [← version_eq_iff hl hb]
  constructor
  · rintro ⟨u, _, hu, _, hheader⟩
    rw [upstreamHeader_eq hl hb hu] at hheader
    exact congrArg Header.version (Option.some.inj hheader)
  · intro hversion
    obtain ⟨u, hmem, hu⟩ := hb.derived
    refine ⟨u, hmem, hu, jobId_eq hl hb hu, ?_⟩
    rw [upstreamHeader_eq hl hb hu, hversion]

end Result

/-! ### A reference library and two runs

In the first the share names the job delivered last. In the second it names one before it. -/

/-- The 80 bytes of a header. -/
def headerBytes (h : Header) : Bytes :=
  leBytes 4 h.version.toNat ++ h.prevBlockhash ++ h.merkleRoot ++ leBytes 4 h.time.toNat ++
    leBytes 4 h.bits.toNat ++ leBytes 4 h.nonce.toNat

/-- The third-party functions on coinbases without witness data, with the real hash. -/
def referenceLib : Sv1Lib where
  merkleRootFromPath pre suf extranonce path :=
    some (path.foldl (fun acc h => Sha256.digestTwice (acc ++ h))
      (Sha256.digestTwice (pre ++ extranonce ++ suf)))
  blockHash h := leNat (Sha256.digestTwice (headerBytes h))
  buildNotify p m clean := some
    { jobId := decimal m.jobId
      prevHash := p.prevHash
      coinBase1 := m.coinbaseTxPrefix
      coinBase2 := m.coinbaseTxSuffix
      merkleBranch := m.merklePath
      version := m.version
      bits := p.nbits
      time := m.minNtime.getD p.minNtime
      cleanJobs := clean }
  buildSubmit s ch seq jobVersion mask :=
    let version := match s.versionBits, mask with
      | some bits, some mask => some (rolledVersion jobVersion bits mask)
      | none, none => some jobVersion
      | _, _ => none
    version.map fun version =>
      { channelId := ch
        sequenceNumber := seq
        jobId := UInt32.ofNat (Nat.ofDigitChars 10 s.jobId 0)
        nonce := s.nonce
        ntime := s.time
        version := version
        extranonce := s.extraNonce2 }
  userIdentityTlv _ := some none

theorem referenceLib_lawful : referenceLib.Lawful where
  notify_jobId := by
    intro p m c n h
    obtain rfl := Option.some.inj h
    rfl
  submit_channelId := by
    intro s ch seq jv mask r h
    obtain ⟨_, _, rfl⟩ := Option.map_eq_some_iff.mp h
    rfl
  submit_jobId := by
    intro s ch seq jv mask r id h hid
    obtain ⟨_, _, rfl⟩ := Option.map_eq_some_iff.mp h
    show UInt32.ofNat (Nat.ofDigitChars 10 s.jobId 0) = id
    rw [hid, decimal, Nat.ofDigitChars_ten_toDigits, UInt32.ofNat_toNat]
  submit_nonce := by
    intro s ch seq jv mask r h
    obtain ⟨_, _, rfl⟩ := Option.map_eq_some_iff.mp h
    rfl
  submit_ntime := by
    intro s ch seq jv mask r h
    obtain ⟨_, _, rfl⟩ := Option.map_eq_some_iff.mp h
    rfl
  submit_extranonce := by
    intro s ch seq jv mask r h
    obtain ⟨_, _, rfl⟩ := Option.map_eq_some_iff.mp h
    rfl
  submit_version := by
    intro s ch seq jv mask r h
    obtain ⟨v, hv, rfl⟩ := Option.map_eq_some_iff.mp h
    show v = _
    cases hbits : s.versionBits with
    | none =>
        rw [hbits] at hv
        cases mask with
        | none =>
            rw [Option.getD_none, rolledVersion_self]
            exact (Option.some.inj hv).symm
        | some m => cases hv
    | some bits =>
        rw [hbits] at hv
        cases mask with
        | none => cases hv
        | some m => exact (Option.some.inj hv).symm

/-- A coinbase with an eight-byte script signature, all of it extranonce, and one output. -/
def samplePrefix : Bytes :=
  [1, 0, 0, 0, 1] ++ List.replicate 32 0 ++ [0xff, 0xff, 0xff, 0xff, 8]

def sampleSuffix : Bytes :=
  [0xff, 0xff, 0xff, 0xff, 1] ++ leBytes 8 5000000000 ++ [1, 0x51] ++ [0, 0, 0, 0]

def sampleJob (jobId version : UInt32) : NewExtendedMiningJob where
  channelId := 1
  jobId := jobId
  minNtime := some 1700000000
  version := version
  versionRollingAllowed := true
  merklePath := []
  coinbaseTxPrefix := samplePrefix
  coinbaseTxSuffix := sampleSuffix

/-- A connection that opens its channel, receives job 7 and completes the handshake. -/
def sampleSetup : List Event :=
  [.connect 0 (2 ^ 256 - 1), .openChannelRequest 0,
    .openSuccess (2 ^ 256 - 1)
      { requestId := 0, channelId := 1, target := 2 ^ 256 - 1, extranonceSize := 4,
        extranoncePrefix := [1, 2, 3, 4] },
    .setNewPrevHash
      { channelId := 1, jobId := 7, prevHash := List.replicate 32 9, minNtime := 1700000000,
        nbits := 0x207fffff },
    .newExtendedMiningJob (sampleJob 7 0x20000000),
    .configure 0 (some 0xFFFFFFFF) none, .deliver 10 0, .deliver 10 0, .authorize 11 0 ['w']]

def sampleSubmit : Submit where
  userName := ['w']
  jobId := decimal 7
  extraNonce2 := [5, 6, 7, 8]
  time := 1700000001
  nonce := 42
  versionBits := some 0x00002000

/-- A share for the job that was delivered last. -/
def currentRun : List Event :=
  sampleSetup ++ [.submit 0 sampleSubmit, .flush 0]

/-- Job 8 signals in version bit 2, outside the rolling mask, and is delivered before the miner
submits a share for job 7, which is still valid. -/
def staleRun : List Event :=
  sampleSetup ++
    [.newExtendedMiningJob (sampleJob 8 0x20000004), .deliver 12 0, .submit 0 sampleSubmit,
    .flush 0]

/-- The sent shares of a run that are on record with the given verdict on their version. -/
def sentWith (current : Bool) (es : List Event) : Bool :=
  (exec (step referenceLib) (Sv1Server.initial .aggregated 60) es).sent.any fun e =>
    e.check.any fun c => decide (JobVersionCurrent c) == current

/-! ### The result -/

/-- In every run, every share that was sent upstream reproduces the header that was hashed, under
the id of its upstream job, exactly when the version of the last delivered notify agreed with the
named job's on the bits the share does not choose. -/
theorem sent_reproduces_header_iff {lib : Sv1Lib} (hl : lib.Lawful) (mode : TproxyMode) (k : UInt16)
    (es : List Event) :
    let s := exec (step lib) (Sv1Server.initial mode k) es
    ∀ e ∈ s.sent, ∃ c, e.check = some c ∧
      (Reproduces lib s.history e.msg c ↔ JobVersionCurrent c) := by
  intro s e he
  obtain ⟨c, v, hc, hb⟩ := (inv_exec hl mode k es).sent e he
  exact ⟨c, hc, reproduces_iff hl hb⟩

theorem sent_reproduces_header_current :
    let s := exec (step referenceLib) (Sv1Server.initial .aggregated 60) currentRun
    ∃ e ∈ s.sent, ∃ c, e.check = some c ∧ Reproduces referenceLib s.history e.msg c := by
  intro s
  have hsent : sentWith true currentRun = true := by decide +kernel
  obtain ⟨e, he, hany⟩ := List.any_eq_true.mp hsent
  obtain ⟨c, hc, hcur⟩ := (Option.any_eq_true _ _).mp hany
  obtain ⟨c', hc', hiff⟩ :=
    sent_reproduces_header_iff referenceLib_lawful .aggregated 60 currentRun e he
  obtain rfl : c = c' := Option.some.inj (hc.symm.trans hc')
  exact ⟨e, he, c, hc, hiff.mpr (by simpa using hcur)⟩

theorem stale_version_not_reproduced :
    let s := exec (step referenceLib) (Sv1Server.initial .aggregated 60) staleRun
    ∃ e ∈ s.sent, ∃ c, e.check = some c ∧ ¬ Reproduces referenceLib s.history e.msg c := by
  intro s
  have hsent : sentWith false staleRun = true := by decide +kernel
  obtain ⟨e, he, hany⟩ := List.any_eq_true.mp hsent
  obtain ⟨c, hc, hcur⟩ := (Option.any_eq_true _ _).mp hany
  obtain ⟨c', v, hc', hb⟩ := (inv_exec referenceLib_lawful .aggregated 60 staleRun).sent e he
  obtain rfl : c = c' := Option.some.inj (hc.symm.trans hc')
  have hstale : ¬ JobVersionCurrent c := by simpa using hcur
  exact ⟨e, he, c, hc, mt (reproduces_iff referenceLib_lawful hb).mp hstale⟩

end GridPoolSv2.Translator
