import GridPoolSv2.Translator.Tproxy

/-!
# Translator.JobStorage: the handlers, as seen from the job storage

Two handlers write `valid_sv1_jobs`: the one of a `NewExtendedMiningJob`, which clears the list of
the channel when the job is the one its prev-hash names, and the keepalive loop, which appends.
`jobNotify` and `keepaliveJob` are what they write, and `SameJobs` says of every other handler
that the storage is not its business.
-/

namespace GridPoolSv2.Translator

open Function (update)

namespace Sv1Server

/-! ### What is written -/

/-- The job names the one its prev-hash activated. -/
def isCleanJob (s : Sv1Server) (m : NewExtendedMiningJob) : Bool :=
  (s.prevhashes m.channelId).any (m.jobId = ·.jobId)

/-- The `mining.notify` of a `NewExtendedMiningJob`. -/
def jobNotify (s : Sv1Server) (lib : Sv1Lib) (m : NewExtendedMiningJob) : Option Notify :=
  (s.prevhashes m.channelId).bind (lib.buildNotify · m (s.isCleanJob m))

/-- The keepalive of a connection, with the key it is stored under. -/
def keepaliveJob (s : Sv1Server) (now : Nat) (d : DownstreamId) : Option (ChannelId × Notify) :=
  match s.downstreams d with
  | none => none
  | some data =>
      if s.needsKeepalive now data then
        match s.lookupChannel data.channelId, s.getLastJob data.channelId with
        | some ch, some lastJob =>
            let newTime := s.keepaliveTime data.channelId lastJob
            if newTime = lastJob.time then none
            else
              let originalJobId := (extractOriginalJobId lastJob.jobId).getD lastJob.jobId
              some (ch, { lastJob with
                jobId := nextKeepaliveJobId s.keepaliveJobIdCounter.toNat originalJobId
                time := newTime })
        | _, _ => none
      else none

/-- The jobs stored under a key. -/
def stored (s : Sv1Server) (ch : ChannelId) : List Notify :=
  (s.validSv1Jobs ch).getD []

/-- A job is found if its id is in the list. -/
theorem findJob_isSome {s : Sv1Server} {ch : ChannelId} {j : JobId} :
    (s.findJob ch j).isSome ↔ ∃ n ∈ s.stored (s.jobChannel ch), n.jobId = j := by
  unfold findJob stored
  cases s.validSv1Jobs (s.jobChannel ch) with
  | none => simp
  | some jobs => simp

/-! ### What the storage does not see -/

/-- The prev-hashes and the jobs are the same. -/
structure SameJobs (s s' : Sv1Server) : Prop where
  mode : s'.mode = s.mode
  prevhashes : s'.prevhashes = s.prevhashes
  validSv1Jobs : s'.validSv1Jobs = s.validSv1Jobs

theorem SameJobs.refl (s : Sv1Server) : SameJobs s s := ⟨rfl, rfl, rfl⟩

/-- The list of a channel is found under the same key. -/
theorem SameJobs.jobChannel {s s' : Sv1Server} (h : SameJobs s s') :
    s'.jobChannel = s.jobChannel := by
  funext ch
  simp [Sv1Server.jobChannel, h.mode]

theorem SameJobs.stored {s s' : Sv1Server} (h : SameJobs s s') : s'.stored = s.stored := by
  funext ch
  simp [Sv1Server.stored, h.validSv1Jobs]

section Frame

variable (s : Sv1Server)

theorem sameJobs_sendToChannel (ch : ChannelId) (n : Notification) :
    SameJobs s (s.sendToChannel ch n) := by
  unfold sendToChannel
  split
  · exact ⟨rfl, rfl, rfl⟩
  · split <;> exact ⟨rfl, rfl, rfl⟩

theorem sameJobs_connect (d : DownstreamId) (target : Nat) : SameJobs s (s.connect d target) := by
  unfold connect
  split <;> exact ⟨rfl, rfl, rfl⟩

theorem sameJobs_openSuccess (firstTarget : Nat) (m : OpenExtendedMiningChannelSuccess) :
    SameJobs s (s.handleOpenExtendedMiningChannelSuccess firstTarget m) := by
  unfold handleOpenExtendedMiningChannelSuccess
  split
  · exact .refl s
  · dsimp only
    split <;> exact ⟨rfl, rfl, rfl⟩

theorem sameJobs_deliver (now : Nat) (d : DownstreamId) : SameJobs s (s.deliver now d) := by
  unfold deliver
  split <;> exact ⟨rfl, rfl, rfl⟩

theorem sameJobs_configure (d : DownstreamId) (mask minBit : Option UInt32) :
    SameJobs s (s.handleConfigure d mask minBit) := by
  unfold handleConfigure
  split <;> exact ⟨rfl, rfl, rfl⟩

theorem sameJobs_authorize (now : Nat) (d : DownstreamId) (name : List Char) :
    SameJobs s (s.handleAuthorize now d name) := by
  unfold handleAuthorize
  split <;> exact ⟨rfl, rfl, rfl⟩

theorem sameJobs_submit (lib : Sv1Lib) (d : DownstreamId) (request : Submit) :
    SameJobs s (s.handleSubmit lib d request) := by
  unfold handleSubmit
  split
  · exact .refl s
  · split
    · exact .refl s
    · split
      · exact .refl s
      · dsimp only
        split <;> exact ⟨rfl, rfl, rfl⟩

theorem sameJobs_submitShares (lib : Sv1Lib) (message : SubmitShareWithChannelId)
    (check : Option ShareCheck) : SameJobs s (s.handleSubmitShares lib message check) := by
  unfold handleSubmitShares
  split
  · exact .refl s
  · dsimp only
    split
    · exact ⟨rfl, rfl, rfl⟩
    · split
      · exact ⟨rfl, rfl, rfl⟩
      · split
        · exact ⟨rfl, rfl, rfl⟩
        · split <;> exact ⟨rfl, rfl, rfl⟩

theorem sameJobs_flush (lib : Sv1Lib) (d : DownstreamId) : SameJobs s (s.flushPending lib d) := by
  unfold flushPending
  split
  · exact .refl s
  · rename_i data _
    split
    · exact .refl s
    · rename_i share _
      obtain ⟨hmode, hprevhashes, hjobs⟩ := sameJobs_submitShares
        (s.setData d { data with pendingShare := none, accepted := none }) lib share data.accepted
      exact ⟨hmode, hprevhashes, hjobs⟩

theorem sameJobs_withoutVardiff (m : SetTarget) :
    SameJobs s (s.handleSetTargetWithoutVardiff m).1 := by
  unfold handleSetTargetWithoutVardiff
  dsimp only
  split
  · exact ⟨rfl, rfl, rfl⟩
  · split
    · exact .refl s
    · split <;> exact ⟨rfl, rfl, rfl⟩

theorem sameJobs_sendSetDifficulty (builds : Nat → Bool) (u : PendingTargetUpdate) :
    SameJobs s (VardiffServer.sendSetDifficulty builds s u) := by
  unfold VardiffServer.sendSetDifficulty
  split <;> exact ⟨rfl, rfl, rfl⟩

end Frame

section VardiffFrame

variable (s : VardiffServer)

theorem sameJobs_handshakeMessage (d : DownstreamId) :
    SameJobs s.server (s.handleHandshakeMessage d).server := by
  unfold VardiffServer.handleHandshakeMessage
  split
  · exact .refl _
  · split
    · exact .refl _
    · dsimp only
      split <;> exact ⟨rfl, rfl, rfl⟩

theorem sameJobs_vardiff (d : DownstreamId) (newTarget : Nat) :
    SameJobs s.server (s.handleVardiffUpdate d newTarget).server := by
  unfold VardiffServer.handleVardiffUpdate
  split
  · exact .refl _
  · split
    · exact .refl _
    · dsimp only
      split
      · split <;> exact ⟨rfl, rfl, rfl⟩
      · exact ⟨rfl, rfl, rfl⟩

theorem sameJobs_sendImmediate (builds : Nat → Bool) :
    SameJobs s.server (s.sendImmediate builds).server := by
  unfold VardiffServer.sendImmediate
  split
  · exact .refl _
  · exact sameJobs_sendSetDifficulty s.server builds _

theorem sameJobs_sendApplicable (builds : Nat → Bool) :
    SameJobs s.server (s.sendApplicable builds).server := by
  unfold VardiffServer.sendApplicable
  split
  · exact .refl _
  · exact sameJobs_sendSetDifficulty s.server builds _

theorem sameJobs_setTarget (channelId : ChannelId) (target : Nat) :
    SameJobs s.server (s.handleSetTargetMessage channelId target).server := by
  unfold VardiffServer.handleSetTargetMessage
  split
  · exact ⟨rfl, rfl, rfl⟩
  · split
    · exact .refl _
    · split <;> exact ⟨rfl, rfl, rfl⟩

end VardiffFrame

/-! ### The two handlers that write -/

section Writing

variable {s : Sv1Server}

/-- A job without a `mining.notify` changes nothing. -/
theorem handleNewExtendedMiningJob_of_none {lib : Sv1Lib} {m : NewExtendedMiningJob}
    (hn : s.jobNotify lib m = none) : s.handleNewExtendedMiningJob lib m = s := by
  unfold handleNewExtendedMiningJob
  cases hp : s.prevhashes m.channelId with
  | none => rfl
  | some prevhash =>
      simp only [jobNotify, isCleanJob, hp, Option.bind_some, Option.any_some] at hn
      simp [hn]

/-- The `mining.notify` of a job is stored last, alone if the job is a clean one, and sent. -/
theorem handleNewExtendedMiningJob_of_some {lib : Sv1Lib} {m : NewExtendedMiningJob} {n : Notify}
    (hn : s.jobNotify lib m = some n) :
    s.handleNewExtendedMiningJob lib m =
      sendToChannel
        { s with
          validSv1Jobs := update s.validSv1Jobs (s.jobChannel m.channelId)
            (some ((if s.isCleanJob m then [] else s.stored (s.jobChannel m.channelId)) ++ [n]))
          history := ⟨m, n⟩ :: s.history }
        (s.jobChannel m.channelId) (.notify n) := by
  unfold handleNewExtendedMiningJob
  cases hp : s.prevhashes m.channelId with
  | none => simp [jobNotify, hp] at hn
  | some prevhash =>
      simp only [jobNotify, isCleanJob, hp, Option.bind_some, Option.any_some] at hn
      simp [hn, isCleanJob, hp, stored]

theorem newExtendedMiningJob_frame (s : Sv1Server) (lib : Sv1Lib) (m : NewExtendedMiningJob) :
    (s.handleNewExtendedMiningJob lib m).mode = s.mode ∧
      (s.handleNewExtendedMiningJob lib m).prevhashes = s.prevhashes := by
  cases hn : s.jobNotify lib m with
  | none => rw [handleNewExtendedMiningJob_of_none hn]; exact ⟨rfl, rfl⟩
  | some n =>
      rw [handleNewExtendedMiningJob_of_some hn]
      obtain ⟨hmode, hprevhashes, -⟩ := sameJobs_sendToChannel
        { s with
          validSv1Jobs := update s.validSv1Jobs (s.jobChannel m.channelId)
            (some ((if s.isCleanJob m then [] else s.stored (s.jobChannel m.channelId)) ++ [n]))
          history := ⟨m, n⟩ :: s.history }
        (s.jobChannel m.channelId) (.notify n)
      exact ⟨hmode, hprevhashes⟩

/-- A job is appended, to an empty list if it is the first under its tip. -/
theorem stored_newExtendedMiningJob {lib : Sv1Lib} {m : NewExtendedMiningJob} {n : Notify}
    (hn : s.jobNotify lib m = some n) :
    (s.handleNewExtendedMiningJob lib m).stored = update s.stored (s.jobChannel m.channelId)
      ((if s.isCleanJob m then [] else s.stored (s.jobChannel m.channelId)) ++ [n]) := by
  rw [handleNewExtendedMiningJob_of_some hn, (sameJobs_sendToChannel _ _ _).stored]
  funext ch
  by_cases heq : ch = s.jobChannel m.channelId
  · simp [stored, heq]
  · simp [stored, heq]

/-- Without a keepalive job nothing is stored. -/
theorem sameJobs_keepalive_of_none {now : Nat} {d : DownstreamId}
    (hn : s.keepaliveJob now d = none) : SameJobs s (s.keepalive now d) := by
  unfold keepalive
  cases hd : s.downstreams d with
  | none => exact .refl s
  | some data =>
      dsimp only
      split
      · rename_i hneeds
        cases hlast : s.getLastJob data.channelId with
        | none => exact .refl s
        | some lastJob =>
            dsimp only
            split
            · exact .refl s
            · rename_i htime
              exfalso
              cases hch : s.lookupChannel data.channelId with
              | none => simp [getLastJob, hch] at hlast
              | some ch => simp [keepaliveJob, hd, hneeds, hch, hlast, htime] at hn
      · exact .refl s

/-- A keepalive job is stored last. -/
theorem keepalive_of_some {now : Nat} {d : DownstreamId} {ch : ChannelId} {n : Notify}
    (hn : s.keepaliveJob now d = some (ch, n)) :
    (s.keepalive now d).mode = s.mode ∧ (s.keepalive now d).prevhashes = s.prevhashes ∧
      (s.keepalive now d).stored = update s.stored ch (s.stored ch ++ [n]) := by
  cases hd : s.downstreams d with
  | none => simp [keepaliveJob, hd] at hn
  | some data =>
      by_cases hneeds : s.needsKeepalive now data
      · cases hch : s.lookupChannel data.channelId with
        | none => simp [keepaliveJob, hd, hneeds, hch] at hn
        | some ch' =>
            cases hlast : s.getLastJob data.channelId with
            | none => simp [keepaliveJob, hd, hneeds, hch, hlast] at hn
            | some lastJob =>
                by_cases htime : s.keepaliveTime data.channelId lastJob = lastJob.time
                · simp [keepaliveJob, hd, hneeds, hch, hlast, htime] at hn
                · simp only [keepaliveJob, hd, hneeds, hch, hlast, htime, if_true, if_false,
                    Option.some.injEq, Prod.mk.injEq] at hn
                  obtain ⟨rfl, rfl⟩ := hn
                  -- the list is there, for it has a last job
                  obtain ⟨jobs, hjobs⟩ : ∃ jobs, s.validSv1Jobs ch' = some jobs := by
                    cases hjobs : s.validSv1Jobs ch' with
                    | none => simp [getLastJob, hch, hjobs] at hlast
                    | some jobs => exact ⟨jobs, rfl⟩
                  have hstored : ∀ n : Notify,
                      (fun ch => (update s.validSv1Jobs ch'
                        ((s.validSv1Jobs ch').map (· ++ [n])) ch).getD []) =
                      update s.stored ch' (s.stored ch' ++ [n]) := by
                    intro n
                    funext ch
                    by_cases heq : ch = ch'
                    · simp [stored, heq, hjobs]
                    · simp [stored, heq]
                  have hkey : ∀ k,
                      lookupChannel { s with keepaliveJobIdCounter := k } data.channelId =
                        some ch' := fun k => hch
                  simp only [keepalive, hd, hneeds, hlast, htime, if_true, if_false,
                    pushKeepalive, hkey]
                  split
                  · exact ⟨rfl, rfl, hstored _⟩
                  · exact ⟨rfl, rfl, hstored _⟩
      · simp [keepaliveJob, hd, hneeds] at hn

end Writing

end Sv1Server

namespace Tproxy

open Sv1Server

variable {env : Env}

/-! ### The whole translator -/

/-- The steps that write the prev-hashes or the jobs. -/
def storesJobs (s : Tproxy env) : Event → Bool
  | .receiveUpstream =>
      match s.toSv1Server with
      | .newExtendedMiningJob _ :: _ => true
      | .setNewPrevHash _ :: _ => true
      | _ => false
  | .sv1 (.keepalive _ _) _ => true
  | _ => false

theorem sameJobs_handleLocal (s : Tproxy env) {e : Sv1Server.Event} (he : e.isLocal = true)
    (hstores : s.storesJobs (.sv1 e he) = false) :
    SameJobs s.sv1.server (s.handleLocal e).sv1.server := by
  cases e with
  | keepalive now d => cases hstores
  | deliver now d => exact sameJobs_deliver _ now d
  | configure d mask minBit => exact sameJobs_configure _ d mask minBit
  | authorize now d name => exact sameJobs_authorize _ now d name
  | submit d request => exact sameJobs_submit _ env.sv1 d request
  | flush d => exact sameJobs_flush _ env.sv1 d
  | connect | disconnect | openChannelRequest | openSuccess | setNewPrevHash |
      newExtendedMiningJob | pendingTarget => cases he

theorem sameJobs_receiveUpstream (s : Tproxy env)
    (hstores : s.storesJobs .receiveUpstream = false) :
    SameJobs s.sv1.server s.receiveUpstream.sv1.server := by
  unfold receiveUpstream
  cases hs : s.toSv1Server with
  | nil => exact .refl _
  | cons m rest =>
      cases m with
      | newExtendedMiningJob m => simp [storesJobs, hs] at hstores
      | setNewPrevHash m => simp [storesJobs, hs] at hstores
      | openExtendedMiningChannelSuccess m => exact sameJobs_openSuccess _ env.firstTarget m
      | setTarget m =>
          dsimp only [handleUpstreamMessage]
          split
          · exact sameJobs_setTarget _ m.channelId m.maximumTarget
          · exact sameJobs_withoutVardiff _ m

theorem sameJobs_step (s : Tproxy env) (e : Event) (hstores : s.storesJobs e = false) :
    SameJobs s.sv1.server (s.step e).sv1.server := by
  cases e with
  | accept => exact sameJobs_connect _ _ env.firstTarget
  | handshakeMessage d =>
      rw [step, handleHandshakeMessage_sv1]
      exact sameJobs_handshakeMessage s.sv1 d
  | vardiff d newTarget =>
      dsimp only [step]
      split
      · exact sameJobs_vardiff s.sv1 d newTarget
      · exact .refl _
  | sendUpdateChannelMessages => exact .refl _
  | sendImmediate => exact sameJobs_sendImmediate s.sv1 env.builds
  | sendApplicable => exact sameJobs_sendApplicable s.sv1 env.builds
  | disconnect d => exact ⟨rfl, rfl, rfl⟩
  | sv1 e he => exact sameJobs_handleLocal s he hstores
  | receiveUpstream => exact sameJobs_receiveUpstream s hstores
  | receiveDownstream =>
      rw [step, receiveDownstream_sv1]
      exact .refl _
  | frame hash m =>
      rw [step, receiveFrame_sv1]
      exact .refl _

end Tproxy

end GridPoolSv2.Translator
