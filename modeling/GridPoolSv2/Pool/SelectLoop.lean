import Mathlib.Data.Finset.Insert
import GridPoolSv2.Lib.Select
import GridPoolSv2.Pool.History

/-!
# Pool.SelectLoop: the loop of `ChannelManager::start`

The loop polls, in this order, the cancellation token, the vardiff future, the handler of
the template provider's messages, the handler of the downstreams' messages, and the fee
interval (`biased`). The two handlers are made anew in every iteration and take their
message with `recv().await` *inside* the branch, so a handler that waits when another
branch completes is dropped together with its message.

Two handlers have an await that can be pending, both before they change anything:

* `handle_new_template` in `refresh_for_chain_tip`, for up to 600 requests to the
  GridPool node with a pause after each;
* `handle_set_custom_mining_job` in the round trip to the embedded JDS.

Every other await of a handler sends on an unbounded channel, which is never pending. The
body of the fee tick runs after the select and is not dropped. The vardiff future never
completes and is not dropped either: one of its rounds is a change from outside.

The loop is an instance of `Select.Component`, whose handlers are the steps of
`ChannelManager`.
-/

namespace GridPoolSv2.Pool

open Consensus (Bytes)
open Select (Loop Performed handledAt)

namespace SelectLoop

/-- The branches that receive something. -/
inductive Source where
  | templateProvider
  | downstreams
  | feeInterval
  deriving Repr, DecidableEq

instance : Fintype Source where
  elems := {.templateProvider, .downstreams, .feeInterval}
  complete := fun src => by cases src <;> decide

/-- The messages of the template provider. Those about transaction data are only logged. -/
inductive TemplateDistribution where
  | newTemplate (t : NewTemplate)
  | setNewPrevHash (m : SetNewPrevHash)
  | requestTransactionDataSuccess
  | requestTransactionDataError
  deriving Repr, DecidableEq

/-- The messages whose handlers the manager's model leaves out (`SubmitSharesStandard`,
`SubmitSharesExtended`, `UpdateChannel`), and vardiff. Of the modelled state they change only the
channels, and none of them has to wait. -/
structure ShareHandling (env : Env) where
  Message : Type
  handle : (AList fun _ : DownstreamId => Downstream env.channels) → DownstreamId → Message →
    (AList fun _ : DownstreamId => Downstream env.channels) × Option PoolError
  runVardiff : (AList fun _ : DownstreamId => Downstream env.channels) →
    (AList fun _ : DownstreamId => Downstream env.channels)

/-- The messages of a downstream. -/
inductive MiningRequest (S : Type) where
  | openChannel (k : ChannelKind) (msg : OpenMiningChannel)
  | closeChannel (c : ChannelId)
  | setCustomMiningJob (msg : SetCustomMiningJob)
  | share (msg : S)

/-- What a branch receives; the fee interval gives a tick for every second that passed. -/
def Message (S : Type) : Source → Type
  | .templateProvider => TemplateDistribution
  | .downstreams => DownstreamId × MiningRequest S
  | .feeInterval => Unit

instance (S : Type) : DecidableEq (Message S .templateProvider) :=
  inferInstanceAs (DecidableEq TemplateDistribution)

/-- Everything a handler is answered or reads from outside. -/
structure Readings where
  /-- The answers of the GridPool node. -/
  fetch : Nat → Except String WorkSelection
  clock : DownstreamId → ChannelId → UInt64
  now : UInt64
  /-- The prefix the extranonce allocator returns. -/
  allocated : Except String Bytes
  /-- The answer of the embedded JDS. -/
  jds : ChannelManager.JdsResponse

/-- What happens to the manager outside the handlers: the tasks of the connections and of the
GridPool poll, a round of vardiff, and the cancellation of the token. -/
inductive Background where
  | connect (requiresStandardJobs requiresCustomWork : Bool)
  | disconnect (d : DownstreamId)
  | poll (response : Except String WorkSelection)
  | vardiff
  | cancel

section Loop

variable {env : Env} (shares : ShareHandling env)

/-- The handler has to wait: for the GridPool node at a chain tip, or for the JDS. -/
def awaits (s : ChannelManager env.channels) : (src : Source) → Message shares.Message src → Bool
  | .templateProvider, .newTemplate t =>
      s.gridpool.isSome && t.futureTemplate && t.templateId ≠ 0 && s.lastFutureTemplate.isSome
  | .downstreams, (_, .setCustomMiningJob _) => s.jobDeclarator
  | _, _ => false

/-- `handle_template_provider_message`, `handle_downstream_mining_message` and the body of the fee
tick, from the message on. -/
def handle (s : ChannelManager env.channels) (src : Source) (m : Message shares.Message src)
    (w : Readings) : ChannelManager env.channels :=
  match src, m with
  | .templateProvider, .newTemplate t => s.step (.newTemplate t w.fetch w.clock)
  | .templateProvider, .setNewPrevHash m => s.step (.setNewPrevHash m)
  | .templateProvider, .requestTransactionDataSuccess => s
  | .templateProvider, .requestTransactionDataError => s
  | .downstreams, (d, .openChannel k msg) => s.step (.openChannel k d msg w.allocated w.now)
  | .downstreams, (d, .closeChannel c) => s.step (.closeChannel d c)
  | .downstreams, (d, .setCustomMiningJob msg) => s.step (.setCustomMiningJob d msg w.jds)
  | .downstreams, (d, .share msg) =>
      let (downstreams, e) := shares.handle s.downstreams d msg
      ChannelManager.settle ({ s with downstreams := downstreams }, e)
  | .feeInterval, () => s.step (.feeTick w.now w.clock)

def background (s : ChannelManager env.channels) : Background → ChannelManager env.channels
  | .connect std custom => s.step (.connect std custom)
  | .disconnect d => s.step (.disconnect d)
  | .poll response => s.step (.poll response)
  | .vardiff => { s with downstreams := shares.runVardiff s.downstreams }
  | .cancel => { s with running := false }

/-- A manager that runs after an event ran before. -/
theorem running_of_step {s : ChannelManager env.channels} {e : ChannelManager.Event}
    (h : (s.step e).running = true) : s.running = true := by
  cases hs : s.running with
  | true => rfl
  | false =>
      rw [ChannelManager.step_of_stopped s e hs] at h
      simp [hs] at h

theorem running_of_background (s : ChannelManager env.channels) (f : Background)
    (h : (background shares s f).running = true) : s.running = true := by
  cases f with
  | connect std custom => exact running_of_step h
  | disconnect d => exact running_of_step h
  | poll response => exact running_of_step h
  | vardiff => exact h
  | cancel => simp [background] at h

/-- The loop of `ChannelManager::start`. -/
def loop : Select.Component Source (Message shares.Message) (ChannelManager env.channels) Readings
    Background where
  order := [.templateProvider, .downstreams, .feeInterval]
  enabled := fun s src =>
    match src with
    | .feeInterval => s.gridpool.isSome
    | _ => true
  awaits := awaits shares
  handle := handle shares
  outside := background shares
  running := fun s => s.running
  running_of_outside := running_of_background shares

/-- The receivers are always polled. -/
theorem mem_polled (s : ChannelManager env.channels) {src : Source} (h : src ≠ .feeInterval) :
    src ∈ (loop shares).polled s := by
  cases src <;> simp_all [Select.Component.polled, loop]

/-- Along every run whose polls drop nothing, and while the pool is not shutting down: the manager's
state is the one that the handled messages lead to, every message that was taken from a receiver
is handled, in the order of the receiver, or is the one that its handler still waits with, and
this one is handled when its answer has arrived. -/
theorem taken_messages_handled (s : ChannelManager env.channels)
    (es : List (Select.Event Source (Message shares.Message) Readings Background))
    (hes : Runs.Along (loop shares).step (loop shares).Steady (.initial s) es)
    (hrunning : (Runs.exec (loop shares).step (.initial s) es).state.running = true) :
    let l := Runs.exec (loop shares).step (.initial s) es
    l.state = Runs.exec (loop shares).perform s l.performed ∧
      ∀ src, src ≠ .feeInterval →
        (l.branches src).taken =
            handledAt src l.performed ++ (l.branches src).inHand.toList ∧
          ∀ m ready w, (l.branches src).inHand = some m → ready src = true →
            (loop shares).Steady l (.poll ready w) →
            ((loop shares).step l (.poll ready w)).performed = l.performed ++
              [.handled src m w] := by
  refine ⟨(loop shares).exec_state s es, fun src hsrc => ⟨?_, ?_⟩⟩
  · exact (loop shares).exec_kept s hes hrunning src
  · intro m ready w hhand hready hsteady
    exact (loop shares).step_answered hrunning hsteady (mem_polled shares _ hsrc) hhand hready

end Loop

end SelectLoop

namespace Reference

open SelectLoop

/-- No shares are submitted, and vardiff has no channel to go through. -/
def shares : ShareHandling env where
  Message := Empty
  handle := fun downstreams _ _ => (downstreams, none)
  runVardiff := fun downstreams => downstreams

/-- The GridPool node answers with the selection of the next tip. -/
def readings : Readings where
  fetch := fun _ => .ok (selection "tip two" [suffixOutput 100])
  clock := fun _ _ => 0
  now := 0
  allocated := .ok []
  jds := .success

/-- The template provider sends a template. -/
def sendTemplate (id : TemplateId) :
    Select.Event Source (Message shares.Message) Readings Background :=
  .send .templateProvider (.newTemplate (template id true 5000))

/-- The task is polled; `answered` says whether the GridPool node has answered. -/
def pollTask (answered : Bool) :
    Select.Event Source (Message shares.Message) Readings Background :=
  .poll (fun _ => answered) readings

/-- The pool learns its first template and the one of the next tip, for which the node is asked. -/
def tipChange : List (Select.Event Source (Message shares.Message) Readings Background) :=
  [sendTemplate 1, pollTask false, sendTemplate 2, pollTask false]

end Reference

namespace SelectLoop

open Reference (shares manager tipChange pollTask)

/-- The node answers before the next second: the template is handled, and then the tick. -/
theorem template_handled_before_tick :
    let es := tipChange ++ [.outside .vardiff, pollTask true, .send .feeInterval (), pollTask false]
    let l := Runs.exec (loop shares).step (.initial manager) es
    l.state.running = true ∧ l.state = Runs.exec (loop shares).perform manager l.performed ∧
      (l.branches .templateProvider).taken = handledAt .templateProvider l.performed ++
        (l.branches .templateProvider).inHand.toList := by
  intro es l
  have hrunning : l.state.running = true := by decide +kernel
  have hsteady : Runs.Along (loop shares).step (loop shares).Steady (.initial manager) es := by
    decide +kernel
  have h := taken_messages_handled shares manager es hsteady hrunning
  exact ⟨hrunning, h.1, (h.2 .templateProvider (by decide)).1⟩

/-- The second passes before the node answers: the fee tick drops the handler of the second
template. The loop goes on, and the template is neither handled nor kept anywhere. -/
theorem template_lost_to_tick :
    let es := tipChange ++ [.send .feeInterval (), pollTask false]
    let l := Runs.exec (loop shares).step (.initial manager) es
    l.state.running = true ∧
      (l.branches .templateProvider).taken =
        [.newTemplate (Reference.template 1 true 5000),
          .newTemplate (Reference.template 2 true 5000)] ∧
      handledAt .templateProvider l.performed = [.newTemplate (Reference.template 1 true 5000)] ∧
      (l.branches .templateProvider).inHand = none ∧ (l.branches .templateProvider).queue = [] ∧
      l.state.lastFutureTemplate = some (Reference.template 1 true 5000) := by
  decide +kernel

end SelectLoop

end GridPoolSv2.Pool
