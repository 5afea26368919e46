import GridPoolSv2.Translator.JobStorage

/-!
# Translator.JobRetention: the jobs of the current tip stay valid

`valid_sv1_jobs` is cleared when a job arrives whose id is the one the stored prev-hash names:
that is the first job under a new tip. It can also be the same job once more. In aggregated mode
the active job is sent again each time a miner joins, and clears the list all miners share: their
keepalives under that tip are unknown from then on.

* `current` is a **ghost**: the jobs that were put on some queue and are under the stored
  prev-hash, for each key of `valid_sv1_jobs`. A `SetNewPrevHash` with another prev-hash takes them
  out.
* `KeepsCurrent` is the condition on a step: a job that clears the list finds no current job
  in it but itself.
-/

namespace GridPoolSv2.Translator

open Runs Sv1Server
open Function (update)

namespace Tproxy

/-- The translator, with the jobs of the current tip. -/
structure Serving (env : Env) where
  proxy : Tproxy env
  current : ChannelId → List Notify := fun _ => []

namespace Serving

variable {env : Env}

/-- `send_to_channel` finds a queue. -/
def reachesQueue (s : Serving env) (ch : ChannelId) : Bool :=
  if ch = aggregatedChannelId then
    (List.range s.proxy.sv1.downstreamIdFactory).any fun d => (s.proxy.sv1.server.queues d).isSome
  else
    (s.proxy.sv1.server.channelIdToDownstreamId ch).any fun d =>
      (s.proxy.sv1.server.queues d).isSome

/-- A job is queued for the miners of its channel. -/
def afterJob (s : Serving env) (m : NewExtendedMiningJob) : ChannelId → List Notify :=
  let ch := s.proxy.sv1.server.jobChannel m.channelId
  match s.proxy.sv1.server.jobNotify env.sv1 m with
  | none => s.current
  | some n => if s.reachesQueue ch then update s.current ch (s.current ch ++ [n]) else s.current

/-- A new prev-hash: the jobs under another one are no longer current. -/
def afterPrevHash (s : Serving env) (m : SetNewPrevHash) : ChannelId → List Notify :=
  let ch := s.proxy.sv1.server.jobChannel m.channelId
  update s.current ch ((s.current ch).filter (·.prevHash = m.prevHash))

/-- A keepalive is queued for its miner. Until the first job under a new prev-hash has come, it is
one of the tip before. -/
def afterKeepalive (s : Serving env) (now : Nat) (d : DownstreamId) : ChannelId → List Notify :=
  match s.proxy.sv1.server.keepaliveJob now d with
  | none => s.current
  | some (ch, n) =>
      if (s.proxy.sv1.server.queues d).isSome &&
          (s.proxy.sv1.server.prevhashes ch).any (·.prevHash = n.prevHash) then
        update s.current ch (s.current ch ++ [n])
      else s.current

/-- The current jobs after a step. -/
def after (s : Serving env) : Event → ChannelId → List Notify
  | .receiveUpstream =>
      match s.proxy.toSv1Server with
      | .newExtendedMiningJob m :: _ => s.afterJob m
      | .setNewPrevHash m :: _ => s.afterPrevHash m
      | _ => s.current
  | .sv1 (.keepalive now d) _ => s.afterKeepalive now d
  | _ => s.current

def step (s : Serving env) (e : Event) : Serving env :=
  { proxy := s.proxy.step e, current := s.after e }

def initial (env : Env) : Serving env :=
  { proxy := Tproxy.initial env }

/-- Every current job of a channel is found under its id. -/
def Findable (s : Serving env) : Prop :=
  ∀ ch, ∀ n ∈ s.current (s.proxy.sv1.server.jobChannel ch),
    (s.proxy.sv1.server.findJob ch n.jobId).isSome

/-- The `mining.notify` that the next message of the upstream's queue clears the list for, with
its channel. -/
def clearing (s : Serving env) : Option (ChannelId × Notify) :=
  match s.proxy.toSv1Server with
  | .newExtendedMiningJob m :: _ =>
      if s.proxy.sv1.server.isCleanJob m then
        (s.proxy.sv1.server.jobNotify env.sv1 m).map (s.proxy.sv1.server.jobChannel m.channelId, ·)
      else none
  | _ => none

/-- The condition on a step. -/
def KeepsCurrent (s : Serving env) : Event → Prop
  | .receiveUpstream => ∀ x ∈ s.clearing, ∀ n ∈ s.current x.1, n.jobId = x.2.jobId
  | _ => True

instance (s : Serving env) : ∀ e, Decidable (s.KeepsCurrent e)
  | .receiveUpstream =>
      inferInstanceAs (Decidable (∀ x ∈ s.clearing, ∀ n ∈ s.current x.1, n.jobId = x.2.jobId))
  | .accept | .handshakeMessage _ | .vardiff _ _ | .sendUpdateChannelMessages | .sendImmediate
  | .sendApplicable | .disconnect _ | .sv1 _ _ | .receiveDownstream | .frame _ _ => isTrue trivial

/-! ### Steps -/

section Steps

variable {s s' : Serving env}

theorem findable_iff : s.Findable ↔ ∀ ch, ∀ n ∈ s.current (s.proxy.sv1.server.jobChannel ch),
    ∃ n' ∈ s.proxy.sv1.server.stored (s.proxy.sv1.server.jobChannel ch), n'.jobId = n.jobId := by
  simp only [Findable, findJob_isSome]

/-- No stored job is lost, and what becomes current is stored. -/
theorem Findable.grow (h : s.Findable)
    (hch : s'.proxy.sv1.server.jobChannel = s.proxy.sv1.server.jobChannel)
    (hstored : ∀ ch, ∀ n ∈ s.proxy.sv1.server.stored ch, n ∈ s'.proxy.sv1.server.stored ch)
    (hcurrent : ∀ ch, ∀ n ∈ s'.current ch,
      n ∈ s.current ch ∨ n ∈ s'.proxy.sv1.server.stored ch) : s'.Findable := by
  rw [findable_iff] at h ⊢
  intro ch n hn
  rw [hch] at hn ⊢
  rcases hcurrent _ n hn with hold | hnew
  · obtain ⟨n', hn', hid⟩ := h ch n hold
    exact ⟨n', hstored _ n' hn', hid⟩
  · exact ⟨n, hnew, rfl⟩

/-- The job storage plays no part. -/
theorem Findable.same (h : s.Findable) (hjobs : SameJobs s.proxy.sv1.server s'.proxy.sv1.server)
    (hcurrent : s'.current = s.current) : s'.Findable := by
  refine h.grow hjobs.jobChannel (fun ch n hn => ?_) fun ch n hn => .inl (hcurrent ▸ hn)
  rwa [hjobs.stored]

theorem Findable.keepalive (h : s.Findable) (now : Nat) (d : DownstreamId)
    (he : (Sv1Server.Event.keepalive now d).isLocal = true) :
    (s.step (.sv1 (.keepalive now d) he)).Findable := by
  cases hn : s.proxy.sv1.server.keepaliveJob now d with
  | none =>
      refine h.same (sameJobs_keepalive_of_none hn) ?_
      simp [step, after, afterKeepalive, hn]
  | some x =>
      obtain ⟨ch, n⟩ := x
      obtain ⟨hmode, -, hstored⟩ := keepalive_of_some hn
      have hstored' : (s.step (.sv1 (.keepalive now d) he)).proxy.sv1.server.stored =
        update s.proxy.sv1.server.stored ch (s.proxy.sv1.server.stored ch ++ [n]) := hstored
      refine h.grow ?_ ?_ ?_
      · funext ch'
        have hmode' : (s.step (.sv1 (.keepalive now d) he)).proxy.sv1.server.mode =
          s.proxy.sv1.server.mode := hmode
        simp only [jobChannel, hmode']
      · intro ch' n' hn'
        rw [hstored']
        by_cases heq : ch' = ch
        · subst heq
          rw [Function.update_self]
          exact List.mem_append_left _ hn'
        · rwa [Function.update_of_ne heq]
      · intro ch' n' hn'
        rw [hstored']
        by_cases heq : ch' = ch
        · subst heq
          simp only [step, after, afterKeepalive, hn] at hn'
          rw [Function.update_self]
          split at hn'
          · rw [Function.update_self, List.mem_append] at hn'
            exact hn'.imp id fun hnew => List.mem_append_right _ hnew
          · exact .inl hn'
        · left
          simp only [step, after, afterKeepalive, hn] at hn'
          split at hn'
          · rwa [Function.update_of_ne heq] at hn'
          · exact hn'

theorem Findable.prevHash (h : s.Findable) {m : SetNewPrevHash} {rest : List Sv1Message}
    (hs : s.proxy.toSv1Server = .setNewPrevHash m :: rest) :
    (s.step .receiveUpstream).Findable := by
  have hproxy : (s.step .receiveUpstream).proxy.sv1.server =
      s.proxy.sv1.server.handleSetNewPrevHash m := by
    simp [step, Tproxy.step, receiveUpstream, hs, handleUpstreamMessage]
  refine h.grow ?_ ?_ ?_
  · rw [hproxy]
    rfl
  · intro ch n hn
    rw [hproxy]
    exact hn
  · intro ch n hn
    left
    simp only [step, after, hs, afterPrevHash] at hn
    by_cases heq : ch = s.proxy.sv1.server.jobChannel m.channelId
    · subst heq
      rw [Function.update_self] at hn
      exact (List.mem_filter.mp hn).1
    · rwa [Function.update_of_ne heq] at hn

/-- A job that arrives keeps the current ones exactly when it does not clear the list, or they are
all this very job. -/
theorem findable_job_iff (h : s.Findable) {m : NewExtendedMiningJob} {rest : List Sv1Message}
    (hs : s.proxy.toSv1Server = .newExtendedMiningJob m :: rest) :
    (s.step .receiveUpstream).Findable ↔ s.KeepsCurrent .receiveUpstream := by
  have hproxy : (s.step .receiveUpstream).proxy.sv1.server =
      s.proxy.sv1.server.handleNewExtendedMiningJob env.sv1 m := by
    simp [step, Tproxy.step, receiveUpstream, hs, handleUpstreamMessage]
  cases hn : s.proxy.sv1.server.jobNotify env.sv1 m with
  | none =>
      have hkeeps : s.KeepsCurrent .receiveUpstream := by
        simp [KeepsCurrent, clearing, hs, hn]
      refine iff_of_true (h.same ?_ ?_) hkeeps
      · rw [hproxy, handleNewExtendedMiningJob_of_none hn]
        exact .refl _
      · simp [step, after, hs, afterJob, hn]
  | some n =>
      have hch : (s.step .receiveUpstream).proxy.sv1.server.jobChannel =
          s.proxy.sv1.server.jobChannel := by
        funext ch
        simp only [hproxy, jobChannel, (newExtendedMiningJob_frame _ env.sv1 m).1]
      have hstored : (s.step .receiveUpstream).proxy.sv1.server.stored = _ :=
        (congrArg stored hproxy).trans (stored_newExtendedMiningJob hn)
      have hcurrent : (s.step .receiveUpstream).current = s.afterJob m := by
        simp [step, after, hs]
      have hkept : ∀ ch, ∀ n' ∈ s.current ch, n' ∈ (s.step .receiveUpstream).current ch := by
        intro ch n' hn'
        rw [hcurrent, afterJob, hn]
        dsimp only
        split
        · by_cases heq : ch = s.proxy.sv1.server.jobChannel m.channelId
          · subst heq
            rw [Function.update_self]
            exact List.mem_append_left _ hn'
          · rwa [Function.update_of_ne heq]
        · exact hn'
      have hnew : ∀ ch, ∀ n' ∈ (s.step .receiveUpstream).current ch, n' ∈ s.current ch ∨
          ch = s.proxy.sv1.server.jobChannel m.channelId ∧ n' = n := by
        intro ch n' hn'
        rw [hcurrent, afterJob, hn] at hn'
        dsimp only at hn'
        split at hn'
        · by_cases heq : ch = s.proxy.sv1.server.jobChannel m.channelId
          · subst heq
            rw [Function.update_self, List.mem_append] at hn'
            exact hn'.imp id fun hlast => ⟨rfl, List.mem_singleton.mp hlast⟩
          · rw [Function.update_of_ne heq] at hn'
            exact .inl hn'
        · exact .inl hn'
      cases hclean : s.proxy.sv1.server.isCleanJob m with
      | false =>
          rw [hclean] at hstored
          have hkeeps : s.KeepsCurrent .receiveUpstream := by
            simp [KeepsCurrent, clearing, hs, hclean]
          refine iff_of_true (h.grow hch ?_ ?_) hkeeps
          · intro ch n' hn'
            rw [hstored]
            by_cases heq : ch = s.proxy.sv1.server.jobChannel m.channelId
            · subst heq
              rw [Function.update_self]
              exact List.mem_append_left _ hn'
            · rwa [Function.update_of_ne heq]
          · intro ch n' hn'
            rcases hnew ch n' hn' with hold | ⟨rfl, rfl⟩
            · exact .inl hold
            · right
              rw [hstored, Function.update_self]
              exact List.mem_append_right _ List.mem_cons_self
      | true =>
          rw [hclean] at hstored
          have hclearing : s.clearing =
              some (s.proxy.sv1.server.jobChannel m.channelId, n) := by
            simp [clearing, hs, hclean, hn]
          have hkeeps : s.KeepsCurrent .receiveUpstream ↔
              ∀ n' ∈ s.current (s.proxy.sv1.server.jobChannel m.channelId), n'.jobId = n.jobId := by
            simp [KeepsCurrent, hclearing]
          rw [hkeeps, findable_iff, hch, hstored]
          constructor
          · intro hfind n' hn'
            -- only the new job is left under the key
            obtain ⟨n'', hmem, hid⟩ := hfind m.channelId n' (hkept _ n' hn')
            rw [Function.update_self, if_pos rfl, List.nil_append, List.mem_singleton] at hmem
            rw [← hid, hmem]
          · intro hsame ch n' hn'
            by_cases heq : s.proxy.sv1.server.jobChannel ch =
                s.proxy.sv1.server.jobChannel m.channelId
            · rw [heq] at hn' ⊢
              refine ⟨n, ?_, ?_⟩
              · rw [Function.update_self]
                exact List.mem_append_right _ List.mem_cons_self
              · rcases hnew _ n' hn' with hold | ⟨-, rfl⟩
                · exact (hsame n' hold).symm
                · rfl
            · rw [Function.update_of_ne heq]
              rcases hnew _ n' hn' with hold | ⟨hkey, -⟩
              · exact findable_iff.mp h ch n' hold
              · exact absurd hkey heq

/-- The condition is the exact one. -/
theorem findable_step_iff (s : Serving env) (e : Event) (h : s.Findable) :
    (s.step e).Findable ↔ s.KeepsCurrent e := by
  cases hstores : s.proxy.storesJobs e with
  | false =>
      have hcurrent : (s.step e).current = s.current := by
        cases e with
        | sv1 e he =>
            cases e with
            | keepalive => cases hstores
            | _ => rfl
        | receiveUpstream =>
            cases hs : s.proxy.toSv1Server with
            | nil => simp [step, after, hs]
            | cons m rest =>
                cases m with
                | newExtendedMiningJob m => simp [storesJobs, hs] at hstores
                | setNewPrevHash m => simp [storesJobs, hs] at hstores
                | openExtendedMiningChannelSuccess m => simp [step, after, hs]
                | setTarget m => simp [step, after, hs]
        | _ => rfl
      have hkeeps : s.KeepsCurrent e := by
        cases e with
        | receiveUpstream =>
            cases hs : s.proxy.toSv1Server with
            | nil => simp [KeepsCurrent, clearing, hs]
            | cons m rest =>
                cases m with
                | newExtendedMiningJob m => simp [storesJobs, hs] at hstores
                | setNewPrevHash m => simp [KeepsCurrent, clearing, hs]
                | openExtendedMiningChannelSuccess m => simp [KeepsCurrent, clearing, hs]
                | setTarget m => simp [KeepsCurrent, clearing, hs]
        | _ => trivial
      exact iff_of_true (h.same (sameJobs_step s.proxy e hstores) hcurrent) hkeeps
  | true =>
      cases e with
      | sv1 e he =>
          cases e with
          | keepalive now d => exact iff_of_true (h.keepalive now d he) trivial
          | _ => cases hstores
      | receiveUpstream =>
          cases hs : s.proxy.toSv1Server with
          | nil => simp [storesJobs, hs] at hstores
          | cons m rest =>
              cases m with
              | newExtendedMiningJob m => exact findable_job_iff h hs
              | setNewPrevHash m =>
                  refine iff_of_true (h.prevHash hs) ?_
                  simp [KeepsCurrent, clearing, hs]
              | openExtendedMiningChannelSuccess m => simp [storesJobs, hs] at hstores
              | setTarget m => simp [storesJobs, hs] at hstores
      | _ => cases hstores

end Steps

theorem findable_initial (env : Env) : (initial env).Findable := by
  intro ch n hn
  cases hn

/-- Every job of the current tip that was put on a queue is found in every state of a run, exactly
when no step of the run clears the list over one of them. -/
theorem current_jobs_stay_findable (env : Env) (es : List Event) :
    (∀ pre, pre <+: es → (exec step (initial env) pre).Findable) ↔
      Along step KeepsCurrent (initial env) es := by
  constructor
  · intro hfind
    refine along_iff_splits.mpr ?_
    rintro pre e post rfl
    have hbefore := hfind pre (List.prefix_append _ _)
    have hafter := hfind (pre ++ [e]) ⟨post, by simp⟩
    rw [exec_append] at hafter
    exact (findable_step_iff _ e hbefore).mp hafter
  · rintro hkeeps pre ⟨post, rfl⟩
    exact exec_induct (fun s e h hk => (findable_step_iff s e h).mpr hk) (findable_initial env)
      (along_append.mp hkeeps).1

/-- A miner works on job 7 under the current tip, and then on its keepalive. -/
def workingOnKeepalive : List Event :=
  [.accept, .handshakeMessage 1, .receiveDownstream,
    .frame UInt32.toNat (.openExtendedMiningChannelSuccess (sampleOpenSuccess 9 6)),
    .receiveUpstream, .sv1 (.authorize 0 1 []) rfl,
    .frame UInt32.toNat (.newExtendedMiningJob
      { channelId := 9, jobId := 7, minNtime := none, version := 1, versionRollingAllowed := true,
        merklePath := [], coinbaseTxPrefix := [], coinbaseTxSuffix := [] }),
    .frame UInt32.toNat (.setNewPrevHash ⟨9, 7, List.replicate 32 0, 100, 0⟩),
    .receiveUpstream, .receiveUpstream, .sv1 (.deliver 0 1) rfl, .sv1 (.deliver 0 1) rfl,
    .sv1 (.keepalive 60 1) rfl]

/-- Another miner joins, and job 7 is sent again. -/
def anotherJoins : List Event :=
  [.accept, .handshakeMessage 2, .receiveDownstream, .receiveUpstream, .receiveUpstream]

/-- The keepalive is on the queue of the first miner, and a share for it would be unknown. -/
theorem keepalive_forgotten :
    ¬∀ (env : Env) (es : List Event), (exec step (initial env) es).Findable := by
  intro h
  have hfind := h (referenceEnv .aggregated true 50) (workingOnKeepalive ++ anotherJoins) 1
  revert hfind
  decide +kernel

end Serving

end Tproxy

end GridPoolSv2.Translator
