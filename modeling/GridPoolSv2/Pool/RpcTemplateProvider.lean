import GridPoolSv2.Lib.Retention
import GridPoolSv2.Lib.Runs
import GridPoolSv2.Pool.History

/-!
# Pool.RpcTemplateProvider: the JSON-RPC template provider and the templates of active jobs

The model of `BitcoinRpcTemplateProvider` (`pool/src/lib/template_receiver/bitcoin_rpc.rs`)
together with the channel manager that reads its messages. The provider numbers its
templates, sends them through a queue, and keeps the newest ones for `SubmitSolution`. The
manager builds jobs from the messages, and from the last future template again when a
channel is opened or a fee tick rotates one.

* `RpcPool` is both components and the queue between them, and `RpcPool.step` one event of
  either.
* `Activates` says which templates an event of the manager can make active, and
  `step_active_template` that these are all.
* `Timely` is the condition on runs: a template that becomes active is among the newest 32,
  and one that is active is not pushed out by a publication.
* `active_template_retained` is the result over runs.

The checks of `from_gbt` on the transactions of a response do not depend on the provider's
state; a response that fails one of them is an error in the event. The block a solution
leads to and the node's answer to it are parameters.
-/

namespace GridPoolSv2.Pool

open Consensus (Bytes TxOut)
open Runs Retention ChannelManager

/-! ### The provider -/

/-- `GetBlockTemplate`, with the height and the flags as the bytes they are in a coinbase. -/
structure GetBlockTemplate where
  previousBlockHash : Bytes
  coinbaseScript : Bytes
  coinbaseValue : UInt64
  mintime : UInt32
  curtime : UInt32
  bits : UInt32
  deriving Repr, DecidableEq

/-- `RpcTemplate`, with the fields its messages are made from. -/
structure RpcTemplate where
  id : TemplateId
  prevHash : Bytes
  curtime : UInt32
  mintime : UInt32
  bits : UInt32
  coinbasePrefix : Bytes
  coinbaseValue : UInt64
  deriving Repr, DecidableEq

namespace RpcTemplate

/-- `RpcTemplate::from_gbt`. The id makes the coinbase of every template distinct. -/
def fromGbt (id : TemplateId) (response : Except String GetBlockTemplate) :
    Except String RpcTemplate :=
  match response with
  | .error e => .error e
  | .ok gbt =>
      let coinbasePrefix := gbt.coinbaseScript ++ [8] ++ Consensus.leBytes 8 id
      if 100 < coinbasePrefix.length then
        .error "GBT coinbase script prefix exceeds consensus limit"
      else
        .ok
          { id := id
            prevHash := gbt.previousBlockHash
            curtime := gbt.curtime
            mintime := gbt.mintime
            bits := gbt.bits
            coinbasePrefix := coinbasePrefix
            coinbaseValue := gbt.coinbaseValue }

/-- `RpcTemplate::new_template`. -/
def newTemplate (t : RpcTemplate) (futureTemplate : Bool) : NewTemplate where
  templateId := t.id
  futureTemplate := futureTemplate
  coinbasePrefix := t.coinbasePrefix
  coinbaseTxValueRemaining := t.coinbaseValue

/-- `RpcTemplate::set_new_prev_hash`. -/
def setNewPrevHash (t : RpcTemplate) : SetNewPrevHash where
  templateId := t.id
  prevHash := t.prevHash
  headerTimestamp := max t.curtime t.mintime
  nBits := t.bits

/-- A template has the id it was made with. -/
theorem fromGbt_id {id : TemplateId} {response : Except String GetBlockTemplate} {t : RpcTemplate}
    (h : fromGbt id response = .ok t) : t.id = id := by
  unfold fromGbt at h
  split at h
  · cases h
  · dsimp only at h
    split at h
    · cases h
    · cases h
      rfl

end RpcTemplate

/-- The messages of the provider to the manager. -/
inductive TemplateDistribution where
  | newTemplate (t : NewTemplate)
  | setNewPrevHash (m : SetNewPrevHash)
  deriving Repr, DecidableEq

def TemplateDistribution.templateId : TemplateDistribution → TemplateId
  | .newTemplate t => t.templateId
  | .setNewPrevHash m => m.templateId

/-- `MAX_RETAINED_TEMPLATES`. -/
def maxRetainedTemplates : Nat := 32

/-- `BitcoinRpcTemplateProvider`. `published` lists the ids of all templates ever stored, as a
ghost. -/
structure BitcoinRpcTemplateProvider where
  nextTemplateId : TemplateId
  templates : AList fun _ : TemplateId => RpcTemplate
  published : List TemplateId

/-- `SubmitSolution`. -/
structure SubmitSolution where
  templateId : TemplateId
  version : UInt32
  headerTimestamp : UInt32
  headerNonce : UInt32
  coinbaseTx : Bytes
  deriving Repr, DecidableEq

/-- The errors of `handle_submit_solution`. -/
inductive SubmitSolutionError where
  | unknownTemplate (id : TemplateId)
  | block (text : String)
  | node (text : String)
  deriving Repr, DecidableEq

namespace BitcoinRpcTemplateProvider

/-- `BitcoinRpcTemplateProvider::new`. -/
def new : BitcoinRpcTemplateProvider where
  nextTemplateId := 1
  templates := ∅
  published := []

/-- `publish_gbt`: the provider afterwards and the messages it sends. An id is used up also by a
response that is rejected. -/
def publishGbt (p : BitcoinRpcTemplateProvider) (response : Except String GetBlockTemplate)
    (futureTemplate sendPrevHash : Bool) :
    BitcoinRpcTemplateProvider × Except String (List TemplateDistribution) :=
  let id := p.nextTemplateId
  let p := { p with nextTemplateId := id + 1 }
  match RpcTemplate.fromGbt id response with
  | .error e => (p, .error e)
  | .ok template =>
      ({ p with
          templates := keepLargest maxRetainedTemplates (p.templates.insert template.id template)
          published := template.id :: p.published },
        .ok (.newTemplate (template.newTemplate futureTemplate) ::
          if sendPrevHash then [.setNewPrevHash template.setNewPrevHash] else []))

/-- `handle_submit_solution`, given how a block is assembled and what the node says to it. -/
def handleSubmitSolution {Block : Type} (p : BitcoinRpcTemplateProvider)
    (solutionBlock : RpcTemplate → SubmitSolution → Except String Block)
    (submitBlock : Block → Except String Unit) (solution : SubmitSolution) :
    Except SubmitSolutionError Unit :=
  match p.templates.lookup solution.templateId with
  | none => .error (.unknownTemplate solution.templateId)
  | some template =>
      match solutionBlock template solution with
      | .error e => .error (.block e)
      | .ok block => (submitBlock block).mapError .node

/-- The provider keeps the newest templates, and has not handed out larger ids. -/
structure Keeps (p : BitcoinRpcTemplateProvider) : Prop where
  retains : Retains maxRetainedTemplates p.published p.templates
  fresh : ∀ u ∈ p.published, u < p.nextTemplateId

theorem keeps_new : Keeps new where
  retains := retains_empty _
  fresh := by simp [new]

theorem keeps_publishGbt {p : BitcoinRpcTemplateProvider} (h : Keeps p)
    (response : Except String GetBlockTemplate) (futureTemplate sendPrevHash : Bool) :
    Keeps (p.publishGbt response futureTemplate sendPrevHash).1 := by
  have hfresh : ∀ u ∈ p.published, u < p.nextTemplateId + 1 := fun u hu =>
    Nat.lt_succ_of_lt (h.fresh u hu)
  unfold publishGbt
  dsimp only
  split
  · exact ⟨h.retains, hfresh⟩
  · rename_i template htemplate
    have hid := RpcTemplate.fromGbt_id htemplate
    refine ⟨retains_insert h.retains template (hid ▸ h.fresh), ?_⟩
    intro u hu
    rcases List.mem_cons.mp hu with rfl | hu
    · exact hid ▸ Nat.lt_succ_self _
    · exact hfresh u hu

/-- A solution for a template that is kept does not fail for lack of it. -/
theorem handleSubmitSolution_of_mem {Block : Type} {p : BitcoinRpcTemplateProvider}
    {solutionBlock : RpcTemplate → SubmitSolution → Except String Block}
    {submitBlock : Block → Except String Unit} {solution : SubmitSolution}
    (h : solution.templateId ∈ p.templates) (u : TemplateId) :
    p.handleSubmitSolution solutionBlock submitBlock solution ≠ .error (.unknownTemplate u) := by
  obtain ⟨template, htemplate⟩ := Option.isSome_iff_exists.mp (AList.lookup_isSome.mpr h)
  unfold handleSubmitSolution
  rw [htemplate]
  dsimp only
  split
  · simp
  · rename_i block hblock
    cases submitBlock block <;> simp [Except.mapError]

end BitcoinRpcTemplateProvider

/-! ### Templates that become active

A future template becomes active with its previous hash, and again when it is given to a channel
that is opened. -/

variable {env : Env}

/-- The active job of some channel comes from this template. -/
def ActiveTemplate (s : ChannelManager env.channels) (u : TemplateId) : Prop :=
  ∃ d k c ch j t, s.channel? d k c = some ch ∧ env.channels.channel.activeJob ch = some j ∧
    j.template? = some t ∧ t.templateId = u

/-- The event can make a job from template `u` the active job of some channel. -/
def Activates (s : ChannelManager env.channels) (u : TemplateId) : Event → Prop
  | .newTemplate t _ _ => t.templateId = u ∧ t.futureTemplate = false ∧
      ∃ d ds k c ch, s.downstreams.lookup d = some ds ∧ ds.requiresCustomWork = false ∧
        (ds.channels k).lookup c = some ch
  | .setNewPrevHash m => m.templateId = u ∧
      ∃ d k c ch, s.channel? d k c = some ch ∧ env.channels.channel.futureJob ch u ≠ none
  | .openChannel _ d _ _ _ => ∃ t ds, s.lastFutureTemplate = some t ∧ t.templateId = u ∧
      s.downstreams.lookup d = some ds ∧ ds.requiresCustomWork = false
  | .feeTick _ clock => ∃ t d k c ch, s.lastFutureTemplate = some t ∧ t.templateId = u ∧
      s.channel? d k c = some ch ∧ s.Rotates clock t d c ch
  | _ => False

/-- A template that is active after a step was active before, or the event activates it. -/
theorem step_active_template (law : env.channels.Lawful) {s : ChannelManager env.channels}
    (hkeyed : AllKeyed s) (e : Event) {u : TemplateId} (h : ActiveTemplate (s.step e) u) :
    ActiveTemplate s u ∨ Activates s u e := by
  cases hrun : s.running with
  | false =>
      rw [step_of_stopped s e hrun] at h
      exact .inl h
  | true =>
      obtain ⟨d, k, c, ch', j, t, hch', hj, ht, rfl⟩ := h
      have hstep := step_channel law s e hrun d k c
      rw [hch'] at hstep
      generalize hbefore : s.channel? d k c = before at hstep
      have hold : ∀ ch, before = some ch → env.channels.channel.activeJob ch = some j →
          ActiveTemplate s t.templateId :=
        fun ch hch hactive => ⟨d, k, c, ch, j, t, hbefore.trans hch, hactive, ht, rfl⟩
      cases hstep with
      | same => exact .inl (hold ch' rfl hj)
      | template hgives hok =>
          rename_i ch t₀ outputs
          cases hgives with
          | newTemplate hds hcustom =>
              obtain ⟨ds, hds', hlookup⟩ := channel?_eq_some.mp hbefore
              obtain rfl := Option.some.inj (hds.symm.trans hds')
              cases hf : t₀.futureTemplate with
              | true =>
                  obtain ⟨-, -, -, hactive, -⟩ := law.channel.onNewTemplate_future hok hf
                  exact .inl (hold ch rfl (hactive.symm.trans hj))
              | false =>
                  obtain ⟨j', hb, hactive, -⟩ := law.channel.onNewTemplate_active hok hf
                  obtain rfl := Option.some.inj (hactive.symm.trans hj)
                  obtain rfl := Option.some.inj (hb.template.symm.trans ht)
                  exact .inr ⟨rfl, hf, d, _, k, c, ch, hds, hcustom, hlookup⟩
          | feeTick hlast htick hrotates =>
              rename_i lastFuture
              obtain ⟨j', hb, hactive, -⟩ :=
                law.channel.onNewTemplate_active hok htick.futureTemplate
              obtain rfl := Option.some.inj (hactive.symm.trans hj)
              obtain rfl := Option.some.inj (hb.template.symm.trans ht)
              exact .inr ⟨lastFuture, d, k, c, ch, hlast, htick.templateId.symm, hbefore, hrotates⟩
      | groupJob he hg hds hcustom htemplate hfuture hok =>
          rename_i ch t₀ fetch clock job ds
          subst he
          obtain ⟨ds', hds', hlookup⟩ := channel?_eq_some.mp hbefore
          obtain rfl := Option.some.inj (hds.symm.trans hds')
          cases hf : t₀.futureTemplate with
          | true =>
              obtain ⟨-, hactive, -⟩ := law.onGroupChannelJob_future hok htemplate (hfuture.mpr hf)
              exact .inl (hold ch rfl (hactive.symm.trans hj))
          | false =>
              obtain ⟨hactive, -⟩ := law.onGroupChannelJob_active hok (by simp [hfuture, hf])
              obtain rfl := Option.some.inj (hactive.symm.trans hj)
              obtain rfl := Option.some.inj (htemplate.symm.trans ht)
              exact .inr ⟨rfl, hf, d, ds, k, c, ch, hds, hcustom, hlookup⟩
      | prevHash he hds hcustom hok =>
          rename_i ch m ds
          subst he
          cases hfuture : env.channels.channel.futureJob ch m.templateId with
          | none =>
              obtain ⟨-, hactive⟩ := law.channel.onSetNewPrevHash_unmatched hok hfuture
              exact .inl (hold ch rfl (hactive.symm.trans hj))
          | some j' =>
              obtain rfl := Option.some.inj
                ((law.channel.onSetNewPrevHash_activates hok hfuture).symm.trans hj)
              obtain ⟨-, t', ht', hid⟩ := hkeyed d k c ch hbefore _ _ hfuture
              obtain rfl := Option.some.inj (ht'.symm.trans ht)
              exact .inr ⟨hid.symm, d, k, c, ch, hbefore, by simp [hid, hfuture]⟩
      | custom he hc hok =>
          obtain ⟨⟨j', hactive, -, horigin⟩, -⟩ := law.onSetCustomMiningJob hok
          obtain rfl := Option.some.inj (hactive.symm.trans hj)
          simp [Job.template?, horigin] at ht
      | opened he hds hc hcustom hlast hm hnew hfirst =>
          subst he
          obtain ⟨-, hb, -, hactive, -⟩ := firstJob_new law hnew hfirst
          obtain rfl := Option.some.inj (hactive.symm.trans hj)
          obtain rfl := Option.some.inj (hb.template.symm.trans ht)
          exact .inr ⟨_, _, hlast, rfl, hds, hcustom⟩
      | openedCustom he hds hc hcustom hm hnew hok =>
          obtain ⟨hactive, hempty, -⟩ := hnew.empty law
          obtain ⟨-, hsame⟩ := law.channel.onSetNewPrevHash_unmatched hok (hempty _)
          rw [hsame, hactive] at hj
          cases hj

/-! ### The pool with its provider -/

/-- The provider, the messages under way to the manager, oldest first, and the manager. -/
structure RpcPool (env : Env) where
  provider : BitcoinRpcTemplateProvider
  queue : List TemplateDistribution
  manager : ChannelManager env.channels

/-- One event of the pool: a response is published, with a previous hash exactly when the tip
changed; the manager takes the next message, with what its handler reads from outside; or the
manager handles something that is not from the provider. -/
inductive RpcPoolEvent where
  | publish (response : Except String GetBlockTemplate) (tipChanged : Bool)
  | deliver (fetch : Nat → Except String WorkSelection) (clock : DownstreamId → ChannelId → UInt64)
  | manage (e : Event) (h : e.reachesAll = false)

namespace RpcPool

/-- The event of the manager, if the pool's event is one. -/
def managerEvent (s : RpcPool env) : RpcPoolEvent → Option Event
  | .publish _ _ => none
  | .deliver fetch clock =>
      match s.queue with
      | [] => none
      | .newTemplate t :: _ => some (.newTemplate t fetch clock)
      | .setNewPrevHash m :: _ => some (.setNewPrevHash m)
  | .manage e _ => some e

/-- The provider and the queue after an event. -/
def providerStep (s : RpcPool env) :
    RpcPoolEvent → BitcoinRpcTemplateProvider × List TemplateDistribution
  | .publish response tipChanged =>
      let r := s.provider.publishGbt response tipChanged tipChanged
      (r.1, match r.2 with
        | .error _ => s.queue
        | .ok messages => s.queue ++ messages)
  | .deliver _ _ => (s.provider, s.queue.tail)
  | .manage _ _ => (s.provider, s.queue)

def step (s : RpcPool env) (e : RpcPoolEvent) : RpcPool env where
  provider := (s.providerStep e).1
  queue := (s.providerStep e).2
  manager :=
    match s.managerEvent e with
    | none => s.manager
    | some e => s.manager.step e

/-- The pool after `start`, with a new provider. -/
def initial (manager : ChannelManager env.channels) : RpcPool env :=
  ⟨.new, [], manager⟩

/-- The condition on runs. A publication leaves the templates of active jobs among the newest 32,
and a template from which the manager can make an active job is one of these. -/
def Timely (s : RpcPool env) (e : RpcPoolEvent) : Prop :=
  (∀ response tip template, e = .publish response tip →
    RpcTemplate.fromGbt s.provider.nextTemplateId response = .ok template →
    ∀ u, ActiveTemplate s.manager u → after s.provider.published u + 1 < maxRetainedTemplates) ∧
  (∀ e', s.managerEvent e = some e' →
    ∀ u, Activates s.manager u e' → after s.provider.published u < maxRetainedTemplates)

/-- What the pool keeps to under the condition. -/
structure Retained (s : RpcPool env) : Prop where
  keeps : s.provider.Keeps
  queued : ∀ m ∈ s.queue, m.templateId ∈ s.provider.published
  last : s.manager.running = true → ∀ t, s.manager.lastFutureTemplate = some t →
    t.templateId ∈ s.provider.published
  keyed : AllKeyed s.manager
  active : ∀ u, ActiveTemplate s.manager u → u ∈ s.provider.templates

variable {s : RpcPool env}

theorem retained_initial (config : Config) (outputs : List TxOut) :
    Retained (initial (ChannelManager.initial config outputs : ChannelManager env.channels)) where
  keeps := BitcoinRpcTemplateProvider.keeps_new
  queued := by simp [initial]
  last := by simp [initial, ChannelManager.initial]
  keyed := allKeyed_initial config outputs
  active := by
    rintro u ⟨d, k, c, ch, j, t, h, -⟩
    cases h

/-- An event of the manager that carries a message takes it from the queue. -/
theorem managerEvent_queue {e : RpcPoolEvent} {e' : Event} (h : s.managerEvent e = some e') :
    (∀ t fetch clock, e' = .newTemplate t fetch clock → .newTemplate t ∈ s.queue) ∧
      (∀ m, e' = .setNewPrevHash m → .setNewPrevHash m ∈ s.queue) := by
  cases e with
  | publish response tip => cases h
  | deliver fetch clock =>
      unfold managerEvent at h
      split at h
      · rename_i heq
        cases heq
      · rename_i fetch' clock' heq
        split at h
        · cases h
        · rename_i t rest hq
          cases h
          refine ⟨?_, nofun⟩
          rintro t' fetch clock ⟨⟩
          simp [hq]
        · rename_i m rest hq
          cases h
          refine ⟨nofun, ?_⟩
          rintro m' ⟨⟩
          simp [hq]
      · rename_i heq
        cases heq
  | manage e₀ hlocal =>
      cases h
      refine ⟨?_, ?_⟩
      · rintro t fetch clock rfl
        cases hlocal
      · rintro m rfl
        cases hlocal

/-- An event of the manager that activates a template names one that was published. -/
theorem Retained.activates (h : Retained s) (hrun : s.manager.running = true) {e : RpcPoolEvent}
    {e' : Event} (he : s.managerEvent e = some e') {u : TemplateId}
    (hu : Activates s.manager u e') :
    u ∈ s.provider.published := by
  obtain ⟨htemplate, hprevHash⟩ := managerEvent_queue he
  cases e' with
  | newTemplate t fetch clock =>
      obtain ⟨rfl, -⟩ := hu
      exact h.queued _ (htemplate t fetch clock rfl)
  | setNewPrevHash m =>
      obtain ⟨rfl, -⟩ := hu
      exact h.queued _ (hprevHash m rfl)
  | openChannel k d msg allocated now =>
      obtain ⟨t, ds, ht, rfl, -⟩ := hu
      exact h.last hrun t ht
  | feeTick now clock =>
      obtain ⟨t, d, k, c, ch, ht, rfl, -⟩ := hu
      exact h.last hrun t ht
  | _ => cases hu

/-- A published template stays published, and the messages of a publication name the new one. -/
theorem providerStep_published (s : RpcPool env) (e : RpcPoolEvent) :
    (∀ u ∈ s.provider.published, u ∈ (s.providerStep e).1.published) ∧
      ∀ m ∈ (s.providerStep e).2, m ∈ s.queue ∨ m.templateId ∈ (s.providerStep e).1.published := by
  cases e with
  | deliver fetch clock => exact ⟨fun u hu => hu, fun m hm => .inl (List.mem_of_mem_tail hm)⟩
  | manage e h => exact ⟨fun u hu => hu, fun m hm => .inl hm⟩
  | publish response tip =>
      simp only [providerStep, BitcoinRpcTemplateProvider.publishGbt]
      cases RpcTemplate.fromGbt s.provider.nextTemplateId response with
      | error e => exact ⟨fun u hu => hu, fun m hm => .inl hm⟩
      | ok template =>
          refine ⟨fun u hu => List.mem_cons_of_mem _ hu, fun m hm => ?_⟩
          refine (List.mem_append.mp hm).imp_right fun hm => ?_
          rcases List.mem_cons.mp hm with rfl | hm
          · exact List.mem_cons_self
          · split at hm
            · rw [List.mem_singleton.mp hm]
              exact List.mem_cons_self
            · cases hm

theorem keeps_providerStep (h : s.provider.Keeps) (e : RpcPoolEvent) :
    (s.providerStep e).1.Keeps := by
  cases e with
  | publish response tip => exact BitcoinRpcTemplateProvider.keeps_publishGbt h response tip tip
  | deliver fetch clock => exact h
  | manage e hlocal => exact h

/-- A template that a timely event leaves active is still kept. -/
theorem Retained.active_step (law : env.channels.Lawful) (h : Retained s) {e : RpcPoolEvent}
    (hc : Timely s e) {u : TemplateId} (hu : ActiveTemplate (s.step e).manager u) :
    u ∈ (s.step e).provider.templates := by
  -- events of the manager leave the provider's templates alone
  have hmanage : ∀ e', s.managerEvent e = some e' → (s.step e).manager = s.manager.step e' →
      u ∈ s.provider.templates := by
    intro e' he' hstep
    rw [hstep] at hu
    cases hrun : s.manager.running with
    | false =>
        rw [step_of_stopped _ _ hrun] at hu
        exact h.active u hu
    | true =>
        rcases step_active_template law h.keyed e' hu with hold | hnew
        · exact h.active u hold
        · exact (h.keeps.retains.mem u).mpr ⟨h.activates hrun he' hnew, hc.2 e' he' u hnew⟩
  cases e with
  | publish response tip =>
      have hmem := h.active u hu
      obtain ⟨hpublished, hafter⟩ := (h.keeps.retains.mem u).mp hmem
      have hretains := (keeps_providerStep h.keeps (.publish response tip)).retains
      refine (hretains.mem u).mpr ?_
      simp only [providerStep, BitcoinRpcTemplateProvider.publishGbt]
      cases htemplate : RpcTemplate.fromGbt s.provider.nextTemplateId response with
      | error e => exact ⟨hpublished, hafter⟩
      | ok template =>
          have hlt : u < template.id := by
            rw [RpcTemplate.fromGbt_id htemplate]
            exact h.keeps.fresh u hpublished
          refine ⟨List.mem_cons_of_mem _ hpublished, ?_⟩
          rw [after_cons_of_lt hlt]
          exact hc.1 response tip template rfl htemplate u hu
  | deliver fetch clock =>
      cases he' : s.managerEvent (.deliver fetch clock) with
      | none =>
          have hsame : (s.step (.deliver fetch clock)).manager = s.manager := by simp [step, he']
          rw [hsame] at hu
          exact h.active u hu
      | some e' => exact hmanage e' he' (by simp [step, he'])
  | manage e' hlocal => exact hmanage e' rfl rfl

/-- Every event that meets the condition keeps the invariant. -/
theorem retained_step (law : env.channels.Lawful) (h : Retained s) {e : RpcPoolEvent}
    (hc : Timely s e) : Retained (s.step e) where
  keeps := keeps_providerStep h.keeps e
  queued := by
    intro m hm
    obtain ⟨hold, hnew⟩ := providerStep_published s e
    exact (hnew m hm).elim (fun hm => hold _ (h.queued m hm)) id
  last := by
    intro hrun' t ht
    obtain ⟨hold, -⟩ := providerStep_published s e
    cases he' : s.managerEvent e with
    | none =>
        have hsame : (s.step e).manager = s.manager := by simp [step, he']
        rw [hsame] at hrun' ht
        exact hold _ (h.last hrun' t ht)
    | some e' =>
        have hstep : (s.step e).manager = s.manager.step e' := by simp [step, he']
        rw [hstep] at hrun' ht
        cases hrun : s.manager.running with
        | false =>
            rw [step_of_stopped _ _ hrun, hrun] at hrun'
            cases hrun'
        | true =>
            rcases step_lastFutureTemplate s.manager e' hrun with
              ⟨t', fetch, clock, rfl, -, ht'⟩ | ⟨-, ht'⟩ | hstop
            · obtain rfl := Option.some.inj (ht'.symm.trans ht)
              exact hold _ (h.queued _ ((managerEvent_queue he').1 t' fetch clock rfl))
            · exact hold _ (h.last hrun t (ht'.symm.trans ht))
            · rw [hstop] at hrun'
              cases hrun'
  keyed := by
    unfold step
    dsimp only
    split
    · exact h.keyed
    · exact allKeyed_step law h.keyed _
  active := fun _ hu => h.active_step law hc hu

end RpcPool

/-! ### The result -/

/-- In every timely run the provider still holds the template of every channel's active job, and a
block found on that job is not refused for lack of it. -/
theorem active_template_retained (law : env.channels.Lawful) {config : Config} {now : UInt64}
    {manager : ChannelManager env.channels} (hstart : start env config now = .ok manager)
    {es : List RpcPoolEvent} (hc : Along RpcPool.step RpcPool.Timely (.initial manager) es)
    {d : DownstreamId} {k : ChannelKind} {c : ChannelId} {ch : env.channels.Channel} {j : Job}
    {t : NewTemplate} :
    let s := exec RpcPool.step (.initial manager) es
    s.manager.channel? d k c = some ch → env.channels.channel.activeJob ch = some j →
      j.template? = some t →
      t.templateId ∈ s.provider.templates ∧
        ∀ {Block : Type} (solutionBlock : RpcTemplate → SubmitSolution → Except String Block)
          (submitBlock : Block → Except String Unit) (solution : SubmitSolution),
          solution.templateId = t.templateId → ∀ u,
            s.provider.handleSubmitSolution solutionBlock submitBlock solution ≠
              .error (.unknownTemplate u) := by
  intro s hch hj ht
  obtain ⟨outputs, rfl⟩ := start_eq_ok hstart
  have h : RpcPool.Retained s :=
    exec_induct (I := RpcPool.Retained) (fun _ _ h hc => RpcPool.retained_step law h hc)
      (RpcPool.retained_initial config outputs) hc
  have hmem := h.active t.templateId ⟨d, k, c, ch, j, t, hch, hj, ht, rfl⟩
  refine ⟨hmem, fun solutionBlock submitBlock solution hid u => ?_⟩
  exact BitcoinRpcTemplateProvider.handleSubmitSolution_of_mem (hid ▸ hmem) u

/-! ### A channel opened after many publications -/

/-- Fewer publications than templates kept are always timely. -/
theorem timely_of_length {s : RpcPool env}
    (h : s.provider.published.length + 1 < maxRetainedTemplates) (e : RpcPoolEvent) :
    s.Timely e := by
  have hafter : ∀ u, after s.provider.published u ≤ s.provider.published.length :=
    fun u => List.length_filter_le _ _
  refine ⟨fun _ _ _ _ _ u _ => ?_, fun _ _ u _ => ?_⟩
  · have := hafter u
    omega
  · have := hafter u
    omega

/-- A response of the node. -/
def sampleGbt : GetBlockTemplate where
  previousBlockHash := List.replicate 32 7
  coinbaseScript := [0x03, 0x40, 0x0d, 0x03]
  coinbaseValue := 5000000000
  mintime := 1700000000
  curtime := 1700000060
  bits := 0x207fffff

/-- The node's response is published and handled; the work selection is not needed without
GridPool. -/
def publishAndDeliver : List RpcPoolEvent :=
  [.publish (.ok sampleGbt) false, .deliver (fun _ => .error "unreachable") (fun _ _ => 0)]

/-- The first template and its previous hash, a connection, `n` more templates for the same tip, and
the first channel. -/
def openAfter (n : Nat) : List RpcPoolEvent :=
  [.publish (.ok sampleGbt) true, .deliver (fun _ => .error "unreachable") (fun _ _ => 0),
    .deliver (fun _ => .error "unreachable") (fun _ _ => 0), .manage (.connect false false) rfl] ++
  (List.replicate n publishAndDeliver).flatten ++
  [.manage (.openChannel .extended 1 Reference.openRequest (.ok [1, 2, 3, 4]) 0) rfl]

/-- A pool without GridPool. -/
def rpcManager : ChannelManager Reference.env.channels :=
  initial (Reference.config none) (Reference.config none).coinbaseOutputs

/-- The template of the active job of the channel opened in the run. -/
def activeTemplateId (s : RpcPool Reference.env) : Option TemplateId :=
  (s.manager.channel? 1 .extended 2).bind fun ch =>
    (Reference.storeOps.activeJob ch).bind fun j => j.template?.map (·.templateId)

theorem open_after_two_templates :
    let s := exec RpcPool.step (.initial rpcManager) (openAfter 2)
    activeTemplateId s = some 1 ∧ 1 ∈ s.provider.templates := by
  have hid : activeTemplateId (exec RpcPool.step (.initial rpcManager) (openAfter 2)) = some 1 := by
    decide +kernel
  have hfew : Along RpcPool.step
      (fun s _ => s.provider.published.length + 1 < maxRetainedTemplates) (.initial rpcManager)
      (openAfter 2) := by
    decide +kernel
  obtain ⟨ch, hch, hactive⟩ := Option.bind_eq_some_iff.mp hid
  obtain ⟨j, hj, htemplate⟩ := Option.bind_eq_some_iff.mp hactive
  obtain ⟨t, ht, heq⟩ := Option.map_eq_some_iff.mp htemplate
  have hstart : start Reference.env (Reference.config none) 0 = .ok rpcManager := rfl
  have hc := hfew.mono fun s e h => timely_of_length h e
  exact ⟨hid, heq ▸ (active_template_retained Reference.channels_lawful hstart hc hch hj ht).1⟩

theorem open_after_thirty_two_templates :
    let s := exec RpcPool.step (.initial rpcManager) (openAfter 32)
    start Reference.env (Reference.config none) 0 = .ok rpcManager ∧
      activeTemplateId s = some 1 ∧ 1 ∉ s.provider.templates ∧
      s.provider.handleSubmitSolution (fun t _ => .ok t) (fun _ => .ok ())
        ⟨1, 0x20000000, 1700000060, 0, []⟩ = .error (.unknownTemplate 1) := by
  refine ⟨rfl, by decide +kernel, by decide +kernel, by decide +kernel⟩

end GridPoolSv2.Pool
