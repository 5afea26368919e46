import GridPoolSv2.BitcoinCoreSv2.TemplateDistribution
import GridPoolSv2.Lib.Runs

/-!
# BitcoinCoreSv2.TemplateStream: the template messages of two tasks

The monitor and the loop over incoming messages both publish templates. In `TemplateDistribution` a
publication is one event, because no `send` on an unbounded channel waits. Here every `send` is an
`await`: a task may be suspended before each message of a publication, and the other tasks go on.

* `Tasks` adds to the cells what each task still has to send (`Sending`), and the handle that
  `handle_coinbase_output_constraints` takes to wait for the monitor. `run` takes it too, once the
  global token is cancelled.
* `Complete` is the grammar of the stream with everything that is still to be sent.
* `Inv` says that the tasks do not publish at the same time, and that the stream is complete as long
  as somebody receives it. `stream_wellFormed` reads the order of the messages off it.

Proof shape: `stream` is what was sent followed by what is still to be sent, so a publication adds
all of its messages to it when it begins and a single send moves nothing. `Flows` says that this
stream is `Complete`, and `Takes` that the two tasks do not have something to send at once: the loop
over incoming messages joins the monitor before it bootstraps, and the monitor it starts then finds
no unsent message. `Inv` is kept by every event, with one lemma for each. A receiver that is gone
cuts the stream off, and `WellFormed.followed` then promises nothing of the rest.
-/

namespace GridPoolSv2.BitcoinCoreSv2

open Consensus (Bytes)

/-! ### The grammar

A complete stream is a sequence of publications: one `NewTemplate`, or a future `NewTemplate` with
its `SetNewPrevHash`. `WellFormed` is what a receiver can observe of a prefix of it. -/

/-- A template message: the answers to requests for transactions are none. -/
def TemplateDistribution.isTemplate : TemplateDistribution → Bool
  | .newTemplate _ | .setNewPrevHash _ => true
  | .requestTransactionDataSuccess .. | .requestTransactionDataError .. => false

def TemplateDistribution.newTemplateId? : TemplateDistribution → Option TemplateId
  | .newTemplate t => some t.templateId
  | _ => none

def TemplateDistribution.prevHash? : TemplateDistribution → Option Bytes
  | .setNewPrevHash m => some m.prevHash
  | _ => none

/-- The ids of the templates in a stream. -/
def templateIds (ms : List TemplateDistribution) : List TemplateId :=
  ms.filterMap TemplateDistribution.newTemplateId?

/-- The last previous hash of a stream. -/
def lastPrevHash (ms : List TemplateDistribution) : Option Bytes :=
  (ms.filterMap TemplateDistribution.prevHash?).getLast?

/-- A template with this id was stored, and has this previous hash. -/
def HasPrevHash (pubs : List Publication) (i : TemplateId) (h : Bytes) : Prop :=
  ∃ p ∈ pubs, p.templateId = i ∧ p.prevHash = h

/-- A stream of whole publications, and its last previous hash. -/
inductive Complete (pubs : List Publication) : Option Bytes → List TemplateDistribution → Prop
  | nil : Complete pubs none []
  | tip {h ms} {t : NewTemplate} {m : SetNewPrevHash} (hms : Complete pubs h ms)
      (future : t.futureTemplate = true) (same : m.templateId = t.templateId)
      (published : HasPrevHash pubs t.templateId m.prevHash) (new : t.templateId ∉ templateIds ms) :
      Complete pubs (some m.prevHash) (ms ++ [.newTemplate t, .setNewPrevHash m])
  | update {h ms} {t : NewTemplate} (hms : Complete pubs (some h) ms)
      (future : t.futureTemplate = false) (published : HasPrevHash pubs t.templateId h)
      (new : t.templateId ∉ templateIds ms) : Complete pubs (some h) (ms ++ [.newTemplate t])

/-- What the receiver of a stream can rely on. `rest` is what is still to be sent, if anybody
receives it. -/
structure WellFormed (pubs : List Publication) (rest : Option (List TemplateDistribution))
    (ms : List TemplateDistribution) : Prop where
  preceded : ∀ pre m post, ms = pre ++ .setNewPrevHash m :: post →
    ∃ pre' t, pre = pre' ++ [.newTemplate t] ∧ t.futureTemplate = true ∧ t.templateId = m.templateId
  followed : ∀ pre t post, ms = pre ++ .newTemplate t :: post → t.futureTemplate = true →
    (∃ m post', post = .setNewPrevHash m :: post' ∧ m.templateId = t.templateId) ∨
      post = [] ∧ ∀ ms' ∈ rest, ∃ m post', ms' = .setNewPrevHash m :: post' ∧
        m.templateId = t.templateId
  tip : ∀ pre t post, ms = pre ++ .newTemplate t :: post → t.futureTemplate = false →
    ∃ h, lastPrevHash pre = some h ∧ HasPrevHash pubs t.templateId h
  distinct : (templateIds ms).Nodup

/-- Where an element of a list with one more element can be. -/
theorem append_singleton_eq_append_cons {α : Type*} {xs pre post : List α} {x y : α} :
    xs ++ [x] = pre ++ y :: post ↔
      (pre = xs ∧ y = x ∧ post = []) ∨ ∃ post', post = post' ++ [x] ∧ xs = pre ++ y :: post' := by
  constructor
  · intro h
    rcases List.eq_nil_or_concat post with rfl | ⟨post', z, rfl⟩
    · obtain ⟨hxs, hx⟩ := List.append_inj' h rfl
      exact .inl ⟨hxs.symm, (List.singleton_inj.mp hx).symm, rfl⟩
    · rw [List.concat_eq_append, ← List.cons_append, ← List.append_assoc] at h
      obtain ⟨hxs, hx⟩ := List.append_inj' h rfl
      exact .inr ⟨post', by rw [List.singleton_inj.mp hx, List.concat_eq_append], hxs⟩
  · rintro (⟨rfl, rfl, rfl⟩ | ⟨post', rfl, rfl⟩)
    · rfl
    · simp

/-- Where an element of a list with two more elements can be. -/
theorem append_pair_eq_append_cons {α : Type*} {xs pre post : List α} {x x' y : α}
    (h : xs ++ [x, x'] = pre ++ y :: post) :
    (pre = xs ++ [x] ∧ y = x' ∧ post = []) ∨ (pre = xs ∧ y = x ∧ post = [x']) ∨
      ∃ post', post = post' ++ [x, x'] ∧ xs = pre ++ y :: post' := by
  have h' : (xs ++ [x]) ++ [x'] = pre ++ y :: post := by simpa using h
  rcases append_singleton_eq_append_cons.mp h' with hlast | ⟨post', rfl, hxs⟩
  · exact .inl hlast
  · rcases append_singleton_eq_append_cons.mp hxs with ⟨hpre, hy, rfl⟩ | ⟨post'', rfl, hold⟩
    · exact .inr (.inl ⟨hpre, hy, rfl⟩)
    · exact .inr (.inr ⟨post'', by simp, hold⟩)

@[simp] theorem templateIds_newTemplate (t : NewTemplate) :
    templateIds [.newTemplate t] = [t.templateId] := rfl

@[simp] theorem templateIds_tip (t : NewTemplate) (m : SetNewPrevHash) :
    templateIds [.newTemplate t, .setNewPrevHash m] = [t.templateId] := rfl

@[simp] theorem lastPrevHash_update (ms : List TemplateDistribution) (t : NewTemplate) :
    lastPrevHash (ms ++ [.newTemplate t]) = lastPrevHash ms := by
  simp [lastPrevHash, List.filterMap_append, TemplateDistribution.prevHash?]

@[simp] theorem lastPrevHash_tip (ms : List TemplateDistribution) (t : NewTemplate)
    (m : SetNewPrevHash) :
    lastPrevHash (ms ++ [.newTemplate t, .setNewPrevHash m]) = some m.prevHash := by
  rw [lastPrevHash, List.filterMap_append, List.getLast?_append]
  rfl

theorem templateIds_append (xs ys : List TemplateDistribution) :
    templateIds (xs ++ ys) = templateIds xs ++ templateIds ys :=
  List.filterMap_append

theorem HasPrevHash.mono {pubs pubs' : List Publication} (hsub : pubs ⊆ pubs') {i : TemplateId}
    {h : Bytes} (hp : HasPrevHash pubs i h) : HasPrevHash pubs' i h := by
  obtain ⟨p, hp, hi, hh⟩ := hp
  exact ⟨p, hsub hp, hi, hh⟩

namespace Complete

variable {pubs : List Publication} {h : Option Bytes} {ms : List TemplateDistribution}

theorem mono {pubs' : List Publication} (hsub : pubs ⊆ pubs') (hc : Complete pubs h ms) :
    Complete pubs' h ms := by
  induction hc with
  | nil => exact .nil
  | tip _ future same published new ih => exact .tip ih future same (published.mono hsub) new
  | update _ future published new ih => exact .update ih future (published.mono hsub) new

/-- The last previous hash of a complete stream is the one the grammar carries along. -/
theorem lastPrevHash_eq (hc : Complete pubs h ms) : lastPrevHash ms = h := by
  induction hc with
  | nil => rfl
  | tip => exact lastPrevHash_tip _ _ _
  | update _ future published new ih => rw [lastPrevHash_update, ih]

theorem published (hc : Complete pubs h ms) {i : TemplateId} (hi : i ∈ templateIds ms) :
    ∃ p ∈ pubs, p.templateId = i := by
  induction hc with
  | nil => cases hi
  | tip _ future same published new ih =>
      rw [templateIds_append] at hi
      rcases List.mem_append.mp hi with hi | hi
      · exact ih hi
      · obtain rfl := List.mem_singleton.mp hi
        obtain ⟨p, hp, hid, -⟩ := published
        exact ⟨p, hp, hid⟩
  | update _ future published new ih =>
      rw [templateIds_append] at hi
      rcases List.mem_append.mp hi with hi | hi
      · exact ih hi
      · obtain rfl := List.mem_singleton.mp hi
        obtain ⟨p, hp, hid, -⟩ := published
        exact ⟨p, hp, hid⟩

theorem distinct (hc : Complete pubs h ms) : (templateIds ms).Nodup := by
  induction hc with
  | nil => exact List.nodup_nil
  | tip _ future same published new ih =>
      rw [templateIds_append]
      exact ih.append (List.nodup_singleton _) (List.disjoint_singleton.mpr new)
  | update _ future published new ih =>
      rw [templateIds_append]
      exact ih.append (List.nodup_singleton _) (List.disjoint_singleton.mpr new)

theorem isTemplate (hc : Complete pubs h ms) : ∀ m ∈ ms, m.isTemplate = true := by
  induction hc with
  | nil => nofun
  | tip _ future same published new ih =>
      exact List.forall_mem_append.mpr ⟨ih, by simp [TemplateDistribution.isTemplate]⟩
  | update _ future published new ih =>
      exact List.forall_mem_append.mpr ⟨ih, by simp [TemplateDistribution.isTemplate]⟩

/-- A previous hash comes right after its future template. -/
theorem preceded (hc : Complete pubs h ms) : ∀ pre m post, ms = pre ++ .setNewPrevHash m :: post →
    ∃ pre' t, pre = pre' ++ [.newTemplate t] ∧ t.futureTemplate = true ∧
      t.templateId = m.templateId := by
  induction hc with
  | nil =>
      intro pre m post heq
      simp at heq
  | @tip h ms t m' _ future same published new ih =>
      intro pre m post heq
      rcases append_pair_eq_append_cons heq with ⟨rfl, hm, -⟩ | ⟨-, hm, -⟩ | ⟨post', rfl, hold⟩
      · cases hm
        exact ⟨ms, t, rfl, future, same.symm⟩
      · cases hm
      · exact ih pre m post' hold
  | update _ future published new ih =>
      intro pre m post heq
      rcases append_singleton_eq_append_cons.mp heq with ⟨-, hm, -⟩ | ⟨post', rfl, hold⟩
      · cases hm
      · exact ih pre m post' hold

/-- A future template is followed by its previous hash. -/
theorem followed (hc : Complete pubs h ms) : ∀ pre t post, ms = pre ++ .newTemplate t :: post →
    t.futureTemplate = true →
      ∃ m post', post = .setNewPrevHash m :: post' ∧ m.templateId = t.templateId := by
  induction hc with
  | nil =>
      intro pre t post heq
      simp at heq
  | @tip h ms t' m _ future same published new ih =>
      intro pre t post heq ht
      rcases append_pair_eq_append_cons heq with ⟨-, hm, -⟩ | ⟨rfl, hm, rfl⟩ | ⟨post', rfl, hold⟩
      · cases hm
      · cases hm
        exact ⟨m, [], rfl, same⟩
      · obtain ⟨m', post', rfl, hsame⟩ := ih pre t post' hold ht
        exact ⟨m', _, rfl, hsame⟩
  | update _ future published new ih =>
      intro pre t post heq ht
      rcases append_singleton_eq_append_cons.mp heq with ⟨rfl, hm, rfl⟩ | ⟨post', rfl, hold⟩
      · cases hm
        rw [future] at ht
        cases ht
      · obtain ⟨m', post', rfl, hsame⟩ := ih pre t post' hold ht
        exact ⟨m', _, rfl, hsame⟩

/-- Any other template has the last previous hash. -/
theorem sameTip (hc : Complete pubs h ms) : ∀ pre t post, ms = pre ++ .newTemplate t :: post →
    t.futureTemplate = false → ∃ h', lastPrevHash pre = some h' ∧
      HasPrevHash pubs t.templateId h' := by
  induction hc with
  | nil =>
      intro pre t post heq
      simp at heq
  | @tip h ms t' m _ future same published new ih =>
      intro pre t post heq ht
      rcases append_pair_eq_append_cons heq with ⟨-, hm, -⟩ | ⟨-, hm, -⟩ | ⟨post', rfl, hold⟩
      · cases hm
      · cases hm
        rw [future] at ht
        cases ht
      · exact ih pre t post' hold ht
  | update hms future published new ih =>
      intro pre t post heq ht
      rcases append_singleton_eq_append_cons.mp heq with ⟨rfl, hm, rfl⟩ | ⟨post', rfl, hold⟩
      · cases hm
        exact ⟨_, hms.lastPrevHash_eq, published⟩
      · exact ih pre t post' hold ht

/-- What was sent of a complete stream is well formed. -/
theorem wellFormed {rest : List TemplateDistribution} (hc : Complete pubs h (ms ++ rest)) :
    WellFormed pubs (some rest) ms where
  preceded pre m post heq := by
    subst heq
    exact hc.preceded pre m (post ++ rest) (by simp)
  followed pre t post heq ht := by
    subst heq
    obtain ⟨m, post', hpost, hsame⟩ := hc.followed pre t (post ++ rest) (by simp) ht
    cases post with
    | nil =>
        refine .inr ⟨rfl, fun ms' hms' => ?_⟩
        obtain rfl := Option.some.inj hms'
        exact ⟨m, post', hpost, hsame⟩
    | cons x post =>
        obtain ⟨rfl, -⟩ := List.cons_eq_cons.mp hpost
        exact .inl ⟨m, post, rfl, hsame⟩
  tip pre t post heq ht := by
    subst heq
    exact hc.sameTip pre t (post ++ rest) (by simp) ht
  distinct := by
    have hall := hc.distinct
    rw [templateIds_append] at hall
    exact (List.nodup_append.mp hall).1

end Complete

/-- Nobody receives the stream any more. -/
theorem WellFormed.closed {pubs : List Publication} {rest : Option (List TemplateDistribution)}
    {ms : List TemplateDistribution} (h : WellFormed pubs rest ms) : WellFormed pubs none ms where
  preceded := h.preceded
  followed pre t post heq ht := (h.followed pre t post heq ht).imp_right fun ⟨hpost, _⟩ =>
    ⟨hpost, nofun⟩
  tip := h.tip
  distinct := h.distinct

/-- What was observed stays well formed as publications are added. -/
theorem WellFormed.mono {pubs pubs' : List Publication} {rest : Option (List TemplateDistribution)}
    {ms : List TemplateDistribution} (hsub : pubs ⊆ pubs') (h : WellFormed pubs rest ms) :
    WellFormed pubs' rest ms where
  preceded := h.preceded
  followed := h.followed
  tip pre t post heq ht := by
    obtain ⟨b, hb, hp⟩ := h.tip pre t post heq ht
    exact ⟨b, hb, hp.mono hsub⟩
  distinct := h.distinct

/-! ### A publication and its awaits

`beginPublication` is `publish_template` up to its first `await`: it stores the template and returns
the messages that are still to be sent. -/

/-- The message is about the template it is made from. -/
theorem TemplateData.getNewTemplateMessage_ok {d : TemplateData} {f : Bool} {t : NewTemplate}
    (h : d.getNewTemplateMessage f = .ok t) :
    t.templateId = d.templateId ∧ t.futureTemplate = f := by
  unfold getNewTemplateMessage at h
  split at h
  · cases h
  · split at h
    · cases h
    · split at h
      · cases h
      · split at h
        · cases h
        · split at h
          · cases h
          · obtain rfl := Except.ok.inj h
            exact ⟨rfl, rfl⟩

namespace BitcoinCoreSv2TDP

/-- `publish_template` up to its first `send`, with the messages it is going to send. -/
def beginPublication (d : TemplateData) (futureTemplate sendSetNewPrevHash : Bool)
    (s : BitcoinCoreSv2TDP) :
    Option (BitcoinCoreSv2TDP × TemplateDistribution × List TemplateDistribution) :=
  match d.getNewTemplateMessage futureTemplate with
  | .error _ => none
  | .ok newTemplate =>
      some ({ s.storeTemplateData d with
          currentPrevHash := if sendSetNewPrevHash then some d.prevHash else s.currentPrevHash
          publications := s.publications ++
            [⟨d.templateId, d.prevHash, s.changesTip d sendSetNewPrevHash⟩] },
        .newTemplate newTemplate,
        if sendSetNewPrevHash then [.setNewPrevHash d.getSetNewPrevHashMessage] else [])

/-- A publication that nobody interrupts is `publish_template`. -/
theorem publishTemplate_ok_iff {d : TemplateData} {f b : Bool} {s s' : BitcoinCoreSv2TDP} :
    s.publishTemplate d f b = (s', .ok ()) ↔
      ∃ begun m rest, s.beginPublication d f b = some (begun, m, rest) ∧
        (m :: rest).foldlM (fun s m => send m s) begun = some s' := by
  unfold publishTemplate beginPublication
  cases hm : d.getNewTemplateMessage f with
  | error e => simp
  | ok m =>
      cases hopen : s.outgoingOpen <;> cases b <;> simp [send, storeTemplateData, hopen]

theorem send_eq_some {m : TemplateDistribution} {s s' : BitcoinCoreSv2TDP}
    (h : s.send m = some s') :
    s.outgoingOpen = true ∧ s' = { s with outgoing := s.outgoing ++ [m] } := by
  unfold send at h
  split at h
  · exact ⟨‹_›, (Option.some.inj h).symm⟩
  · cases h

theorem send_eq_none {m : TemplateDistribution} {s : BitcoinCoreSv2TDP} (h : s.send m = none) :
    s.outgoingOpen = false := by
  unfold send at h
  split at h
  · cases h
  · rename_i hopen
    simpa using hopen

/-- What `publish_template` has done before its first `send`, and what it is going to send. -/
structure Begins (s s' : BitcoinCoreSv2TDP) (d : TemplateData) (f b : Bool) (t : NewTemplate) :
    Prop where
  templateId : t.templateId = d.templateId
  futureTemplate : t.futureTemplate = f
  publications : ∃ tipChange, s'.publications = s.publications ++
    [⟨d.templateId, d.prevHash, tipChange⟩]
  currentPrevHash : s'.currentPrevHash = if b then some d.prevHash else s.currentPrevHash
  outgoing : s'.outgoing = s.outgoing
  outgoingOpen : s'.outgoingOpen = s.outgoingOpen
  templateIdFactory : s'.templateIdFactory = s.templateIdFactory
  monitor : s'.monitor = s.monitor
  incoming : s'.incoming = s.incoming
  globalCancellationToken : s'.globalCancellationToken = s.globalCancellationToken

/-- The first message is the `NewTemplate`, and the `SetNewPrevHash` follows for a change of the
tip. -/
theorem beginPublication_begins {d : TemplateData} {f b : Bool} {s s' : BitcoinCoreSv2TDP}
    {m : TemplateDistribution} {rest : List TemplateDistribution}
    (h : s.beginPublication d f b = some (s', m, rest)) :
    ∃ t, m = .newTemplate t ∧
      rest = (if b then [.setNewPrevHash d.getSetNewPrevHashMessage] else []) ∧
        Begins s s' d f b t := by
  unfold beginPublication at h
  cases hm : d.getNewTemplateMessage f with
  | error e => simp [hm] at h
  | ok t =>
      simp only [hm, Option.some.injEq, Prod.mk.injEq] at h
      obtain ⟨rfl, rfl, rfl⟩ := h
      obtain ⟨hid, hfuture⟩ := TemplateData.getNewTemplateMessage_ok hm
      exact ⟨t, rfl, rfl, hid, hfuture, ⟨_, rfl⟩, rfl, rfl, rfl, rfl, rfl, rfl, rfl⟩

end BitcoinCoreSv2TDP

/-- A publication at one of its awaits: the message of this `send`, the ones after it, and for a tip
change of the monitor the templates it makes stale. -/
structure Sending where
  message : TemplateDistribution
  rest : List TemplateDistribution
  stale : Option (List TemplateId)
  deriving Repr, DecidableEq

/-- The cells, and the tasks that share them. -/
structure Tasks where
  tdp : BitcoinCoreSv2TDP
  /-- `handle_coinbase_output_constraints` waits for the monitor to end. -/
  joining : Bool
  /-- `monitor_ipc_templates_handle` holds the handle of the monitor. -/
  handle : Bool
  monitorSending : Option Sending
  incomingSending : Option Sending

namespace Tasks

def new : Tasks := ⟨.new, false, false, none, none⟩

/-- The `createNewBlock` request is sent. With a cancelled token the `select!` is over at once. -/
def requestNewBlock (x : Tasks) : Tasks :=
  if x.tdp.globalCancellationToken then { x with tdp := x.tdp.stopIncoming, joining := false }
  else { x with tdp := { x.tdp with incoming := .bootstrapping }, joining := false }

/-- `run` takes up the first constraints, and `handle_coinbase_output_constraints` all others. -/
def takeUpConstraints (x : Tasks) : Tasks :=
  match x.tdp.incoming with
  | .firstConstraints => x.requestNewBlock
  | .listening =>
      if x.handle then
        { x with
          tdp := { x.tdp with incoming := .bootstrapping }
          joining := true
          handle := false }
      else x.requestNewBlock
  | _ => x

/-- The handle resolves once the task of the monitor has ended. -/
def joined (x : Tasks) : Tasks :=
  if x.joining ∧ x.tdp.monitor = .off then x.requestNewBlock else x

def createNewBlock (created : Bool) (x : Tasks) : Tasks :=
  match x.tdp.incoming, x.joining with
  | .bootstrapping, false =>
      if created then
        { x with tdp := { x.tdp with
            incoming := .fetching x.tdp.templateIdFactory
            templateIdFactory := x.tdp.templateIdFactory + 1 } }
      else { x with tdp := x.tdp.stopIncoming }
  | _, _ => x

/-- The data of a bootstrapped template was fetched, and is published. -/
def bootstrapFetched (fetched : Option BlockTemplate) (x : Tasks) : Tasks :=
  match x.tdp.incoming, x.incomingSending, fetched with
  | .fetching _, none, none => { x with tdp := x.tdp.stopIncoming }
  | .fetching id, none, some b =>
      match x.tdp.beginPublication { b with templateId := id } true true with
      | none => { x with tdp := x.tdp.stopIncoming }
      | some (s, m, rest) => { x with tdp := s, incomingSending := some ⟨m, rest, none⟩ }
  | _, _, _ => x

/-- The data of the monitor's template was fetched, and is published. -/
def monitorFetched (fetched : Option BlockTemplate) (x : Tasks) : Tasks :=
  match x.tdp.monitor, x.monitorSending, fetched, x.tdp.currentPrevHash with
  | .fetching id, none, some b, some currentPrevHash =>
      let d : TemplateData := { b with templateId := id }
      let changed := decide (d.prevHash ≠ currentPrevHash)
      match x.tdp.beginPublication d changed changed with
      | none => { x with tdp := x.tdp.stopMonitor }
      | some (s, m, rest) =>
          { x with
            tdp := s
            monitorSending := some ⟨m, rest,
              if changed then some x.tdp.currentTemplateIds else none⟩ }
  | .fetching _, none, _, _ => { x with tdp := x.tdp.stopMonitor }
  | _, _, _, _ => x

/-- A `send` of the loop over incoming messages, and the new monitor after the last one. -/
def incomingSent (x : Tasks) : Tasks :=
  match x.incomingSending with
  | none => x
  | some ⟨m, rest, stale⟩ =>
      match x.tdp.send m, rest with
      | none, _ => { x with tdp := x.tdp.stopIncoming, incomingSending := none }
      | some s, m' :: rest' => { x with tdp := s, incomingSending := some ⟨m', rest', stale⟩ }
      | some s, [] =>
          { x with
            tdp := { s with incoming := .listening, monitor := .waitNext }
            incomingSending := none
            handle := true }

/-- A `send` of the monitor. -/
def monitorSent (x : Tasks) : Tasks :=
  match x.monitorSending with
  | none => x
  | some ⟨m, rest, stale⟩ =>
      match x.tdp.send m, rest with
      | none, _ => { x with tdp := x.tdp.stopMonitor, monitorSending := none }
      | some s, m' :: rest' => { x with tdp := s, monitorSending := some ⟨m', rest', stale⟩ }
      | some s, [] =>
          { x with
            tdp := match stale with
              | none => { s with monitor := .waitNext }
              | some ids => { s with monitor := .waitNext }.processStaleTemplateData ids
            monitorSending := none }

/-- `run` waits for the monitor as well, after the global token was cancelled. -/
def runTakesHandle (x : Tasks) : Tasks :=
  if x.tdp.globalCancellationToken then { x with handle := false } else x

end Tasks

/-- What a task does between two awaits, with the sends of publications as awaits. -/
inductive TaskEvent where
  | tdp (e : BitcoinCoreSv2TDP.Event)
  | joined
  | incomingSent
  | monitorSent
  | runTakesHandle

namespace Tasks

def step (x : Tasks) : TaskEvent → Tasks
  | .tdp .coinbaseOutputConstraints => x.takeUpConstraints
  | .tdp (.createNewBlock created) => x.createNewBlock created
  | .tdp (.bootstrapFetched fetched) => x.bootstrapFetched fetched
  | .tdp (.monitorFetched fetched) => x.monitorFetched fetched
  | .tdp e => { x with tdp := x.tdp.step e }
  | .joined => x.joined
  | .incomingSent => x.incomingSent
  | .monitorSent => x.monitorSent
  | .runTakesHandle => x.runTakesHandle

/-! ### The invariant

Three parts: the messages that are out and the ones to be sent make a complete stream (`Flows`), the
two tasks do not publish at the same time (`Takes`), and both together (`Inv`). -/

/-- The template messages that were sent. -/
def stream (x : Tasks) : List TemplateDistribution :=
  x.tdp.outgoing.filter TemplateDistribution.isTemplate

/-- The messages of a publication that were not. -/
def left : Option Sending → List TemplateDistribution
  | none => []
  | some p => p.message :: p.rest

def unsent (x : Tasks) : List TemplateDistribution :=
  left x.incomingSending ++ left x.monitorSending

/-- What is still to be sent, if anybody receives it. -/
def expected (x : Tasks) : Option (List TemplateDistribution) :=
  if x.tdp.outgoingOpen then some x.unsent else none

/-- The stream is complete as long as somebody receives it, and the current previous hash is its
last one. -/
structure Flows (x : Tasks) : Prop where
  complete : x.tdp.outgoingOpen = true →
    Complete x.tdp.publications x.tdp.currentPrevHash (x.stream ++ x.unsent)
  wellFormed : WellFormed x.tdp.publications none x.stream

/-- The tasks do not publish at the same time, and publish under new ids. -/
structure Takes (x : Tasks) : Prop where
  alone : x.tdp.incoming ≠ .listening → x.tdp.incoming ≠ .stopped → x.joining = false →
    x.tdp.monitor = .off
  joining : x.joining = true → x.tdp.incoming = .bootstrapping
  handle : x.tdp.incoming = .listening → x.handle = true ∨ x.tdp.globalCancellationToken = true
  incomingSending : x.incomingSending ≠ none → ∃ id, x.tdp.incoming = .fetching id
  monitorSending : x.monitorSending ≠ none → ∃ id, x.tdp.monitor = .fetching id
  publications : ∀ p ∈ x.tdp.publications, p.templateId < x.tdp.templateIdFactory
  incomingId : ∀ id, x.tdp.incoming = .fetching id → id < x.tdp.templateIdFactory ∧
    (x.incomingSending = none → ∀ p ∈ x.tdp.publications, p.templateId ≠ id)
  monitorId : ∀ id, x.tdp.monitor = .fetching id → id < x.tdp.templateIdFactory ∧
    (x.monitorSending = none → ∀ p ∈ x.tdp.publications, p.templateId ≠ id)

structure Inv (x : Tasks) : Prop where
  takes : x.Takes
  flows : x.Flows

/-- What has been sent is well formed, whatever is still to be sent. -/
theorem Inv.wellFormed {x : Tasks} (h : x.Inv) :
    WellFormed x.tdp.publications x.expected x.stream := by
  unfold expected
  split
  · rename_i hopen
    exact (h.flows.complete hopen).wellFormed
  · exact h.flows.wellFormed

/-- The stream is complete again after a step that publishes nothing. -/
theorem Flows.congr {x x' : Tasks} (h : x.Flows)
    (hpubs : x'.tdp.publications = x.tdp.publications)
    (hprev : x'.tdp.currentPrevHash = x.tdp.currentPrevHash) (hstream : x'.stream = x.stream)
    (hopen : x'.tdp.outgoingOpen = true → x.tdp.outgoingOpen = true)
    (hunsent : x'.tdp.outgoingOpen = true → x'.unsent = x.unsent) : x'.Flows where
  complete hopen' := by
    rw [hpubs, hprev, hstream, hunsent hopen']
    exact h.complete (hopen hopen')
  wellFormed := by
    rw [hpubs, hstream]
    exact h.wellFormed

theorem inv_new : new.Inv where
  takes := by
    refine ⟨fun _ _ _ => rfl, nofun, nofun, ?_, ?_, nofun, nofun, nofun⟩
    · exact fun h => absurd rfl h
    · exact fun h => absurd rfl h
  flows := ⟨fun _ => .nil, ⟨by simp [stream, new, BitcoinCoreSv2TDP.new],
    by simp [stream, new, BitcoinCoreSv2TDP.new], by simp [stream, new, BitcoinCoreSv2TDP.new],
    List.nodup_nil⟩⟩

/-! ### Constraints updates -/

theorem incomingSending_eq_none {x : Tasks} (h : x.Takes)
    (hid : ∀ id, x.tdp.incoming ≠ .fetching id) :
    x.incomingSending = none := by
  by_contra hne
  obtain ⟨id, hincoming⟩ := h.incomingSending hne
  exact hid id hincoming

theorem monitorSending_eq_none {x : Tasks} (h : x.Takes)
    (hid : ∀ id, x.tdp.monitor ≠ .fetching id) :
    x.monitorSending = none := by
  by_contra hne
  obtain ⟨id, hmonitor⟩ := h.monitorSending hne
  exact hid id hmonitor

/-- The loop over incoming messages gives up. -/
theorem inv_stopIncoming {x : Tasks} (h : x.Inv) (hsending : x.incomingSending = none) {j : Bool}
    (hj : j = false) : { x with tdp := x.tdp.stopIncoming, joining := j }.Inv where
  takes :=
    { alone := fun _ hne => absurd rfl hne
      joining := fun hjoins => by simp [hj] at hjoins
      handle := nofun
      incomingSending := fun hne => absurd hsending hne
      monitorSending := h.takes.monitorSending
      publications := h.takes.publications
      incomingId := nofun
      monitorId := h.takes.monitorId }
  flows := h.flows.congr rfl rfl rfl (fun hopen => hopen) fun _ => rfl

theorem inv_requestNewBlock {x : Tasks} (h : x.Inv) (hsending : x.incomingSending = none)
    (hoff : x.tdp.globalCancellationToken = false → x.tdp.monitor = .off) :
    x.requestNewBlock.Inv := by
  unfold requestNewBlock
  split
  · exact inv_stopIncoming h hsending rfl
  · rename_i htoken
    have hmonitor := hoff (by simpa using htoken)
    exact {
      takes :=
        { alone := fun _ _ _ => hmonitor
          joining := nofun
          handle := nofun
          incomingSending := fun hne => absurd hsending hne
          monitorSending := h.takes.monitorSending
          publications := h.takes.publications
          incomingId := nofun
          monitorId := h.takes.monitorId }
      flows := h.flows.congr rfl rfl rfl (fun hopen => hopen) fun _ => rfl }

theorem inv_takeUpConstraints {x : Tasks} (h : x.Inv) : x.takeUpConstraints.Inv := by
  unfold takeUpConstraints
  cases hincoming : x.tdp.incoming with
  | firstConstraints =>
      have hjoining : x.joining = false := by
        by_contra hne
        have := h.takes.joining (by simpa using hne)
        rw [hincoming] at this
        cases this
      refine inv_requestNewBlock h (incomingSending_eq_none h.takes (by simp [hincoming])) fun _ =>
        ?_
      exact h.takes.alone (by simp [hincoming]) (by simp [hincoming]) hjoining
  | listening =>
      have hsending := incomingSending_eq_none h.takes (by simp [hincoming])
      dsimp only
      split
      · exact {
          takes :=
            { alone := nofun
              joining := fun _ => rfl
              handle := nofun
              incomingSending := fun hne => absurd hsending hne
              monitorSending := h.takes.monitorSending
              publications := h.takes.publications
              incomingId := nofun
              monitorId := h.takes.monitorId }
          flows := h.flows.congr rfl rfl rfl (fun hopen => hopen) fun _ => rfl }
      · rename_i hhandle
        refine inv_requestNewBlock h hsending fun htoken => ?_
        rcases h.takes.handle hincoming with hheld | hcancelled
        · exact absurd hheld hhandle
        · rw [hcancelled] at htoken
          cases htoken
  | bootstrapping => exact h
  | fetching id => exact h
  | stopped => exact h

theorem inv_joined {x : Tasks} (h : x.Inv) : x.joined.Inv := by
  unfold joined
  split
  · rename_i hjoins
    have hincoming := h.takes.joining hjoins.1
    exact inv_requestNewBlock h (incomingSending_eq_none h.takes (by simp [hincoming]))
      fun _ => hjoins.2
  · exact h

theorem inv_createNewBlock {x : Tasks} (h : x.Inv) (created : Bool) :
    (x.createNewBlock created).Inv := by
  unfold createNewBlock
  split
  · rename_i hincoming hjoining
    have hsending := incomingSending_eq_none h.takes (by simp [hincoming])
    have hmonitor := h.takes.alone (by simp [hincoming]) (by simp [hincoming]) hjoining
    split
    · exact {
        takes :=
          { alone := fun _ _ _ => hmonitor
            joining := fun hj => by simp [hjoining] at hj
            handle := nofun
            incomingSending := fun hne => absurd hsending hne
            monitorSending := h.takes.monitorSending
            publications := fun p hp => Nat.lt_succ_of_lt (h.takes.publications p hp)
            incomingId := fun id hid => by
              obtain rfl : x.tdp.templateIdFactory = id := by simpa using hid
              exact ⟨Nat.lt_succ_self _, fun _ p hp => (h.takes.publications p hp).ne⟩
            monitorId := fun id hid => by
              rw [hmonitor] at hid
              cases hid }
        flows := h.flows.congr rfl rfl rfl (fun hopen => hopen) fun _ => rfl }
    · exact inv_stopIncoming h hsending hjoining
  · exact h

/-! ### Publications -/

theorem notJoining {x : Tasks} (h : x.Takes) (hne : x.tdp.incoming ≠ .bootstrapping) :
    x.joining = false := by
  by_contra hj
  exact hne (h.joining (by simpa using hj))

/-- A publication that begins adds its messages to a stream that is complete. -/
theorem begins_flows {x x' : Tasks} (h : x.Flows) (hunsent : x.unsent = []) {d : TemplateData}
    {b : Bool} {t : NewTemplate} (hbegin : x.tdp.Begins x'.tdp d b b t)
    (htip : b = false → x.tdp.currentPrevHash = some d.prevHash)
    (hnew : ∀ p ∈ x.tdp.publications, p.templateId ≠ d.templateId)
    (hunsent' : x'.unsent = .newTemplate t ::
      if b then [.setNewPrevHash d.getSetNewPrevHashMessage] else []) : x'.Flows := by
  obtain ⟨tipChange, hpubs⟩ := hbegin.publications
  have hsub : x.tdp.publications ⊆ x'.tdp.publications := hpubs ▸ List.subset_append_left _ _
  have hstream : x'.stream = x.stream := by rw [stream, stream, hbegin.outgoing]
  have hpublished : HasPrevHash x'.tdp.publications t.templateId d.prevHash := by
    rw [hpubs]
    exact ⟨_, List.mem_append_right _ (List.mem_singleton.mpr rfl), hbegin.templateId.symm, rfl⟩
  constructor
  · intro hopen
    have hcomplete := (h.complete (hbegin.outgoingOpen ▸ hopen)).mono hsub
    rw [hunsent, List.append_nil] at hcomplete
    have hfresh : t.templateId ∉ templateIds x.stream := by
      intro hmem
      have hold := h.complete (hbegin.outgoingOpen ▸ hopen)
      rw [hunsent, List.append_nil] at hold
      obtain ⟨p, hp, hid⟩ := hold.published hmem
      exact hnew p hp (hid.trans hbegin.templateId)
    rw [hstream, hunsent', hbegin.currentPrevHash]
    cases b with
    | true =>
        exact .tip (m := d.getSetNewPrevHashMessage) hcomplete hbegin.futureTemplate
          hbegin.templateId.symm hpublished hfresh
    | false =>
        rw [htip rfl] at hcomplete ⊢
        exact .update hcomplete hbegin.futureTemplate hpublished hfresh
  · rw [hstream]
    exact h.wellFormed.mono hsub

theorem inv_bootstrapFetched {x : Tasks} (h : x.Inv) (fetched : Option BlockTemplate) :
    (x.bootstrapFetched fetched).Inv := by
  unfold bootstrapFetched
  split
  · rename_i hincoming hsending
    exact inv_stopIncoming h hsending (notJoining h.takes (by simp [hincoming]))
  · rename_i id b hincoming hsending
    have hjoining := notJoining h.takes (by simp [hincoming])
    have hmonitor := h.takes.alone (by simp [hincoming]) (by simp [hincoming]) hjoining
    have hmonitorSending := monitorSending_eq_none h.takes (by simp [hmonitor])
    obtain ⟨hid, hnew⟩ := h.takes.incomingId id hincoming
    split
    · exact inv_stopIncoming h hsending hjoining
    · rename_i s m rest hbegin
      obtain ⟨t, rfl, rfl, hbegins⟩ := BitcoinCoreSv2TDP.beginPublication_begins hbegin
      obtain ⟨tipChange, hpubs⟩ := hbegins.publications
      refine ⟨?_, begins_flows h.flows (by simp [unsent, left, hsending, hmonitorSending]) hbegins
        nofun (hnew hsending) (by simp [unsent, left, hmonitorSending])⟩
      exact {
        alone := fun _ _ _ => hbegins.monitor.trans hmonitor
        joining := fun hj => by simp [hjoining] at hj
        handle := fun hlistening => by
          have := hbegins.incoming.symm.trans hlistening
          rw [hincoming] at this
          cases this
        incomingSending := fun _ => ⟨id, hbegins.incoming.trans hincoming⟩
        monitorSending := fun hne => absurd hmonitorSending hne
        publications := fun p hp => by
          rw [hbegins.templateIdFactory]
          rw [hpubs] at hp
          rcases List.mem_append.mp hp with hp | hp
          · exact h.takes.publications p hp
          · obtain rfl := List.mem_singleton.mp hp
            exact hid
        incomingId := fun id' hid' => by
          have := (hbegins.incoming.trans hincoming).symm.trans hid'
          obtain rfl : id = id' := by simpa using this
          exact ⟨hbegins.templateIdFactory ▸ hid, nofun⟩
        monitorId := fun id' hid' => by
          have := (hbegins.monitor.trans hmonitor).symm.trans hid'
          cases this }
  · exact h

/-- The monitor gives up. -/
theorem inv_stopMonitor {x : Tasks} (h : x.Inv) (hsending : x.monitorSending = none) :
    { x with tdp := x.tdp.stopMonitor }.Inv where
  takes :=
    { alone := fun _ _ _ => rfl
      joining := h.takes.joining
      handle := fun _ => .inr rfl
      incomingSending := h.takes.incomingSending
      monitorSending := fun hne => absurd hsending hne
      publications := h.takes.publications
      incomingId := h.takes.incomingId
      monitorId := nofun }
  flows := h.flows.congr rfl rfl rfl (fun hopen => hopen) fun _ => rfl

/-- While the monitor works on a template, the loop over incoming messages does not. -/
theorem incoming_ne_fetching {x : Tasks} (h : x.Takes) {id : TemplateId}
    (hmonitor : x.tdp.monitor = .fetching id) (id' : TemplateId) :
    x.tdp.incoming ≠ .fetching id' := by
  intro hincoming
  have hoff := h.alone (by simp [hincoming]) (by simp [hincoming])
    (notJoining h (by simp [hincoming]))
  rw [hmonitor] at hoff
  cases hoff

theorem inv_monitorFetched {x : Tasks} (h : x.Inv) (fetched : Option BlockTemplate) :
    (x.monitorFetched fetched).Inv := by
  unfold monitorFetched
  split
  · rename_i id b currentPrevHash hmonitor hsending htip
    have hincoming := incoming_ne_fetching h.takes hmonitor
    have hincomingSending := incomingSending_eq_none h.takes hincoming
    obtain ⟨hid, hnew⟩ := h.takes.monitorId id hmonitor
    dsimp only
    split
    · exact inv_stopMonitor h hsending
    · rename_i s m rest hbegin
      obtain ⟨t, rfl, rfl, hbegins⟩ := BitcoinCoreSv2TDP.beginPublication_begins hbegin
      obtain ⟨tipChange, hpubs⟩ := hbegins.publications
      refine ⟨?_, begins_flows h.flows (by simp [unsent, left, hsending, hincomingSending]) hbegins
        (fun hsame => ?_) (hnew hsending) (by simp [unsent, left, hincomingSending])⟩
      · exact {
          alone := fun hlistening hstopped hj => by
            rw [hbegins.incoming] at hlistening hstopped
            rw [hbegins.monitor]
            exact h.takes.alone hlistening hstopped hj
          joining := fun hj => hbegins.incoming.trans (h.takes.joining hj)
          handle := fun hlistening => by
            rw [hbegins.globalCancellationToken]
            exact h.takes.handle (hbegins.incoming.symm.trans hlistening)
          incomingSending := fun hne => absurd hincomingSending hne
          monitorSending := fun _ => ⟨id, hbegins.monitor.trans hmonitor⟩
          publications := fun p hp => by
            rw [hbegins.templateIdFactory]
            rw [hpubs] at hp
            rcases List.mem_append.mp hp with hp | hp
            · exact h.takes.publications p hp
            · obtain rfl := List.mem_singleton.mp hp
              exact hid
          incomingId := fun id' hid' => absurd (hbegins.incoming.symm.trans hid') (hincoming id')
          monitorId := fun id' hid' => by
            have := (hbegins.monitor.trans hmonitor).symm.trans hid'
            obtain rfl : id = id' := by simpa using this
            exact ⟨hbegins.templateIdFactory ▸ hid, nofun⟩ }
      · have hequal : b.prevHash = currentPrevHash := by simpa using hsame
        rw [htip, ← hequal]
  · rename_i hsending _
    exact inv_stopMonitor h hsending
  · exact h

/-- A message that is sent moves from the one end to the other. -/
theorem send_flows {x x' : Tasks} (h : x.Flows) {m : TemplateDistribution}
    {rest : List TemplateDistribution} {s : BitcoinCoreSv2TDP} (hsend : x.tdp.send m = some s)
    (hunsent : x.unsent = m :: rest) (hpubs : x'.tdp.publications = x.tdp.publications)
    (hprev : x'.tdp.currentPrevHash = x.tdp.currentPrevHash) (hout : x'.tdp.outgoing = s.outgoing)
    (hunsent' : x'.unsent = rest) : x'.Flows := by
  obtain ⟨hopen, rfl⟩ := BitcoinCoreSv2TDP.send_eq_some hsend
  have hcomplete := h.complete hopen
  rw [hunsent] at hcomplete
  have htemplate : m.isTemplate = true := hcomplete.isTemplate m (by simp)
  have hstream : x'.stream = x.stream ++ [m] := by
    rw [stream, hout]
    simp [stream, List.filter_append, htemplate]
  have hsent : Complete x'.tdp.publications x'.tdp.currentPrevHash (x'.stream ++ x'.unsent) := by
    rw [hpubs, hprev, hstream, hunsent']
    simpa using hcomplete
  exact ⟨fun _ => hsent, hsent.wellFormed.closed⟩

theorem inv_incomingSent {x : Tasks} (h : x.Inv) : x.incomingSent.Inv := by
  unfold incomingSent
  split
  · exact h
  · rename_i m rest stale hsending
    obtain ⟨id, hincoming⟩ := h.takes.incomingSending (by simp [hsending])
    obtain ⟨hid, -⟩ := h.takes.incomingId id hincoming
    have hjoining := notJoining h.takes (by simp [hincoming])
    have hmonitor := h.takes.alone (by simp [hincoming]) (by simp [hincoming]) hjoining
    have hmonitorSending := monitorSending_eq_none h.takes (by simp [hmonitor])
    have hunsent : x.unsent = m :: rest := by simp [unsent, left, hsending, hmonitorSending]
    split
    · rename_i hsend
      have hclosed : x.tdp.outgoingOpen = false := BitcoinCoreSv2TDP.send_eq_none hsend
      exact {
        takes :=
          { alone := fun _ hne => absurd rfl hne
            joining := fun hj => by simp [hjoining] at hj
            handle := nofun
            incomingSending := fun hne => absurd rfl hne
            monitorSending := h.takes.monitorSending
            publications := h.takes.publications
            incomingId := nofun
            monitorId := h.takes.monitorId }
        flows := h.flows.congr rfl rfl rfl (fun hopen => hopen) fun hopen => by
          exact absurd (hclosed.symm.trans hopen) (by simp) }
    · rename_i s m' rest' hsend
      obtain ⟨-, rfl⟩ := BitcoinCoreSv2TDP.send_eq_some hsend
      exact {
        takes :=
          { alone := h.takes.alone
            joining := h.takes.joining
            handle := h.takes.handle
            incomingSending := fun _ => ⟨id, hincoming⟩
            monitorSending := h.takes.monitorSending
            publications := h.takes.publications
            incomingId := fun id' hid' => ⟨(h.takes.incomingId id' hid').1, nofun⟩
            monitorId := h.takes.monitorId }
        flows := send_flows h.flows hsend hunsent rfl rfl rfl (by
          simp [unsent, left, hmonitorSending]) }
    · rename_i s hsend
      obtain ⟨-, rfl⟩ := BitcoinCoreSv2TDP.send_eq_some hsend
      exact {
        takes :=
          { alone := fun hne => absurd rfl hne
            joining := fun hj => by simp [hjoining] at hj
            handle := fun _ => .inl rfl
            incomingSending := fun hne => absurd rfl hne
            monitorSending := fun hne => absurd hmonitorSending hne
            publications := h.takes.publications
            incomingId := nofun
            monitorId := nofun }
        flows := send_flows h.flows hsend hunsent rfl rfl rfl (by
          simp [unsent, left, hmonitorSending]) }

theorem inv_monitorSent {x : Tasks} (h : x.Inv) : x.monitorSent.Inv := by
  unfold monitorSent
  split
  · exact h
  · rename_i m rest stale hsending
    obtain ⟨id, hmonitor⟩ := h.takes.monitorSending (by simp [hsending])
    have hincoming := incoming_ne_fetching h.takes hmonitor
    have hincomingSending := incomingSending_eq_none h.takes hincoming
    have hunsent : x.unsent = m :: rest := by simp [unsent, left, hsending, hincomingSending]
    have hbusy : x.tdp.incoming ≠ .listening → x.tdp.incoming ≠ .stopped → x.joining ≠ false := by
      intro hlistening hstopped hj
      have hoff := h.takes.alone hlistening hstopped hj
      rw [hmonitor] at hoff
      cases hoff
    split
    · rename_i hsend
      have hclosed : x.tdp.outgoingOpen = false := BitcoinCoreSv2TDP.send_eq_none hsend
      exact {
        takes :=
          { alone := fun _ _ _ => rfl
            joining := h.takes.joining
            handle := fun _ => .inr rfl
            incomingSending := h.takes.incomingSending
            monitorSending := fun hne => absurd rfl hne
            publications := h.takes.publications
            incomingId := h.takes.incomingId
            monitorId := nofun }
        flows := h.flows.congr rfl rfl rfl (fun hopen => hopen) fun hopen => by
          exact absurd (hclosed.symm.trans hopen) (by simp) }
    · rename_i s m' rest' hsend
      obtain ⟨-, rfl⟩ := BitcoinCoreSv2TDP.send_eq_some hsend
      exact {
        takes :=
          { alone := h.takes.alone
            joining := h.takes.joining
            handle := h.takes.handle
            incomingSending := h.takes.incomingSending
            monitorSending := fun _ => ⟨id, hmonitor⟩
            publications := h.takes.publications
            incomingId := h.takes.incomingId
            monitorId := fun id' hid' => ⟨(h.takes.monitorId id' hid').1, nofun⟩ }
        flows := send_flows h.flows hsend hunsent rfl rfl rfl (by
          simp [unsent, left, hincomingSending]) }
    · rename_i s hsend
      obtain ⟨-, rfl⟩ := BitcoinCoreSv2TDP.send_eq_some hsend
      have hwaits : ∀ s' : BitcoinCoreSv2TDP, s'.monitor = .waitNext →
          s'.incoming = x.tdp.incoming → s'.publications = x.tdp.publications →
          s'.templateIdFactory = x.tdp.templateIdFactory →
          s'.globalCancellationToken = x.tdp.globalCancellationToken →
          { x with tdp := s', monitorSending := none }.Takes := by
        intro s' hwait hincoming' hpubs hfactory htoken
        exact {
          alone := fun hlistening hstopped hj =>
            absurd hj (hbusy (hincoming' ▸ hlistening) (hincoming' ▸ hstopped))
          joining := fun hj => hincoming'.trans (h.takes.joining hj)
          handle := fun hlistening => htoken ▸ h.takes.handle (hincoming'.symm.trans hlistening)
          incomingSending := fun hne => absurd hincomingSending hne
          monitorSending := fun hne => absurd rfl hne
          publications := by
            dsimp only
            rw [hpubs, hfactory]
            exact h.takes.publications
          incomingId := fun id' hid' => absurd (hincoming'.symm.trans hid') (hincoming id')
          monitorId := fun id' hid' => by
            have := hwait.symm.trans hid'
            cases this }
      cases stale with
      | none =>
          exact ⟨hwaits _ rfl rfl rfl rfl rfl, send_flows h.flows hsend hunsent rfl rfl rfl (by
            simp [unsent, left, hincomingSending])⟩
      | some ids =>
          exact ⟨hwaits _ rfl rfl rfl rfl rfl, send_flows h.flows hsend hunsent rfl rfl rfl (by
            simp [unsent, left, hincomingSending])⟩

/-! ### The other events -/

/-- A step that leaves the tasks and the stream alone. -/
theorem inv_cells {x : Tasks} (h : x.Inv) {s : BitcoinCoreSv2TDP}
    (hincoming : s.incoming = x.tdp.incoming) (hmonitor : s.monitor = x.tdp.monitor)
    (hpubs : s.publications = x.tdp.publications)
    (hprev : s.currentPrevHash = x.tdp.currentPrevHash)
    (hfactory : s.templateIdFactory = x.tdp.templateIdFactory)
    (htoken : x.tdp.globalCancellationToken = true → s.globalCancellationToken = true)
    (hstream : s.outgoing.filter TemplateDistribution.isTemplate = x.stream)
    (hopen : s.outgoingOpen = true → x.tdp.outgoingOpen = true) : { x with tdp := s }.Inv where
  takes :=
    { alone := by
        dsimp only
        rw [hincoming, hmonitor]
        exact h.takes.alone
      joining := fun hj => hincoming.trans (h.takes.joining hj)
      handle := fun hlistening =>
        (h.takes.handle (hincoming.symm.trans hlistening)).imp_right htoken
      incomingSending := by
        dsimp only
        rw [hincoming]
        exact h.takes.incomingSending
      monitorSending := by
        dsimp only
        rw [hmonitor]
        exact h.takes.monitorSending
      publications := by
        dsimp only
        rw [hpubs, hfactory]
        exact h.takes.publications
      incomingId := by
        dsimp only
        rw [hincoming, hpubs, hfactory]
        exact h.takes.incomingId
      monitorId := by
        dsimp only
        rw [hmonitor, hpubs, hfactory]
        exact h.takes.monitorId }
  flows := h.flows.congr hpubs hprev hstream hopen fun _ => rfl

theorem inv_waitNext {x : Tasks} (h : x.Inv) (result : BitcoinCoreSv2TDP.WaitNext) :
    { x with tdp := x.tdp.step (.waitNext result) }.Inv := by
  simp only [BitcoinCoreSv2TDP.step]
  split
  · rename_i hmonitor
    have hincoming : ∀ id, x.tdp.incoming ≠ .fetching id := by
      intro id hid
      have hoff := h.takes.alone (by simp [hid]) (by simp [hid])
        (notJoining h.takes (by simp [hid]))
      rw [hmonitor] at hoff
      cases hoff
    exact {
      takes :=
        { alone := fun hlistening hstopped hj => by
            have hoff := h.takes.alone hlistening hstopped hj
            rw [hmonitor] at hoff
            cases hoff
          joining := h.takes.joining
          handle := h.takes.handle
          incomingSending := h.takes.incomingSending
          monitorSending := fun _ => ⟨_, rfl⟩
          publications := fun p hp => Nat.lt_succ_of_lt (h.takes.publications p hp)
          incomingId := fun id hid => absurd hid (hincoming id)
          monitorId := fun id hid => by
            obtain rfl : x.tdp.templateIdFactory = id := by simpa using hid
            exact ⟨Nat.lt_succ_self _, fun _ p hp => (h.takes.publications p hp).ne⟩ }
      flows := h.flows.congr rfl rfl rfl (fun hopen => hopen) fun _ => rfl }
  · rename_i hmonitor
    exact inv_stopMonitor h (monitorSending_eq_none h.takes (by simp [hmonitor]))
  · exact h

theorem inv_monitorCancelled {x : Tasks} (h : x.Inv) (interrupted : Bool) :
    { x with tdp := x.tdp.step (.monitorCancelled interrupted) }.Inv := by
  simp only [BitcoinCoreSv2TDP.step]
  split
  · rename_i hcancelled
    have hsending := monitorSending_eq_none h.takes (by simp [hcancelled.1])
    exact {
      takes :=
        { alone := fun _ _ _ => rfl
          joining := h.takes.joining
          handle := fun hlistening => (h.takes.handle hlistening).imp_right fun ht => by simp [ht]
          incomingSending := h.takes.incomingSending
          monitorSending := fun hne => absurd hsending hne
          publications := h.takes.publications
          incomingId := h.takes.incomingId
          monitorId := nofun }
      flows := h.flows.congr rfl rfl rfl (fun hopen => hopen) fun _ => rfl }
  · exact h

theorem inv_requestTransactionData {x : Tasks} (h : x.Inv) (id : TemplateId)
    (fetched : Option (List Bytes)) :
    { x with tdp := x.tdp.step (.requestTransactionData id fetched) }.Inv := by
  simp only [BitcoinCoreSv2TDP.step]
  cases hincoming : x.tdp.incoming with
  | listening =>
      have hsending := incomingSending_eq_none h.takes (by simp [hincoming])
      have hstop := inv_stopIncoming h hsending (notJoining h.takes (by simp [hincoming]))
      have hanswer : ∀ m, x.tdp.answer id fetched = .ok m → m.isTemplate = false := by
        intro m hm
        unfold BitcoinCoreSv2TDP.answer at hm
        split at hm
        · obtain rfl := Except.ok.inj hm
          rfl
        · split at hm
          · obtain rfl := Except.ok.inj hm
            rfl
          · split at hm
            · cases hm
            · obtain rfl := Except.ok.inj hm
              rfl
      unfold BitcoinCoreSv2TDP.handleRequestTransactionData
      cases hm : x.tdp.answer id fetched with
      | error e => exact hstop
      | ok m =>
          dsimp only
          cases hsend : x.tdp.send m with
          | none => exact hstop
          | some s =>
              obtain ⟨-, rfl⟩ := BitcoinCoreSv2TDP.send_eq_some hsend
              refine inv_cells h rfl rfl rfl rfl rfl (fun ht => ht) ?_ fun hopen => hopen
              simp [stream, List.filter_append, hanswer m hm]
  | firstConstraints => exact h
  | bootstrapping => exact h
  | fetching id' => exact h
  | stopped => exact h

theorem inv_submitSolution {x : Tasks} (h : x.Inv) (m : SubmitSolution) (dir accepted : Bool) :
    { x with tdp := x.tdp.step (.submitSolution m dir accepted) }.Inv := by
  simp only [BitcoinCoreSv2TDP.step]
  split
  · unfold BitcoinCoreSv2TDP.handleSubmitSolution
    split
    · exact h
    · split
      · split
        · exact h
        · exact inv_cells h rfl rfl rfl rfl rfl (fun ht => ht) rfl fun hopen => hopen
      · exact h
  · exact h

theorem inv_removeStale {x : Tasks} (h : x.Inv) (i : Nat) (destroyed : Bool) :
    { x with tdp := x.tdp.step (.removeStale i destroyed) }.Inv := by
  simp only [BitcoinCoreSv2TDP.step, BitcoinCoreSv2TDP.removeStale]
  split
  · exact h
  · exact inv_cells h rfl rfl rfl rfl rfl (fun ht => by simp [ht]) rfl fun hopen => hopen

theorem inv_runTakesHandle {x : Tasks} (h : x.Inv) : x.runTakesHandle.Inv := by
  unfold runTakesHandle
  split
  · rename_i htoken
    exact {
      takes :=
        { alone := h.takes.alone
          joining := h.takes.joining
          handle := fun _ => .inr htoken
          incomingSending := h.takes.incomingSending
          monitorSending := h.takes.monitorSending
          publications := h.takes.publications
          incomingId := h.takes.incomingId
          monitorId := h.takes.monitorId }
      flows := h.flows.congr rfl rfl rfl (fun hopen => hopen) fun _ => rfl }
  · exact h

theorem inv_step {x : Tasks} (h : x.Inv) (e : TaskEvent) : (x.step e).Inv := by
  cases e with
  | joined => exact inv_joined h
  | incomingSent => exact inv_incomingSent h
  | monitorSent => exact inv_monitorSent h
  | runTakesHandle => exact inv_runTakesHandle h
  | tdp e =>
      cases e with
      | coinbaseOutputConstraints => exact inv_takeUpConstraints h
      | createNewBlock created => exact inv_createNewBlock h created
      | bootstrapFetched fetched => exact inv_bootstrapFetched h fetched
      | waitNext result => exact inv_waitNext h result
      | monitorFetched fetched => exact inv_monitorFetched h fetched
      | monitorCancelled interrupted => exact inv_monitorCancelled h interrupted
      | requestTransactionData id fetched => exact inv_requestTransactionData h id fetched
      | submitSolution m dir accepted => exact inv_submitSolution h m dir accepted
      | removeStale i destroyed => exact inv_removeStale h i destroyed
      | cancel => exact inv_cells h rfl rfl rfl rfl rfl (fun _ => rfl) rfl fun hopen => hopen
      | receiverDropped => exact inv_cells h rfl rfl rfl rfl rfl (fun ht => ht) rfl nofun

/-- **The stream of template messages.** In every run every `SetNewPrevHash` comes right after its
future template, every future template is followed by its `SetNewPrevHash` or waits for it, any
other template has the last previous hash, and no template id is used twice. -/
theorem stream_wellFormed (es : List TaskEvent) :
    WellFormed (Runs.exec step new es).tdp.publications (Runs.exec step new es).expected
      (Runs.exec step new es).stream :=
  (Runs.exec_invariant (I := Inv) (fun _ e h => inv_step h e) inv_new es).wellFormed

/-- An empty block on a chain tip. -/
def emptyBlock (tip : UInt8) : BlockTemplate where
  header := ⟨4, [tip], 10, 20⟩
  coinbaseTx := ⟨2, [], 0, [], 0⟩
  blockRewardRemaining := 5000
  merklePath := []

/-- New constraints arrive while the monitor is between the two messages of a new tip. -/
example :
    (Runs.exec step new [.tdp .coinbaseOutputConstraints, .tdp (.createNewBlock true),
      .tdp (.bootstrapFetched (some (emptyBlock 1))), .incomingSent, .incomingSent,
      .tdp (.waitNext .template), .tdp (.monitorFetched (some (emptyBlock 2))), .monitorSent,
      .tdp .coinbaseOutputConstraints, .joined, .tdp (.createNewBlock true), .monitorSent,
      .tdp (.monitorCancelled true), .joined, .tdp (.createNewBlock true),
      .tdp (.bootstrapFetched (some (emptyBlock 2))), .incomingSent]).stream.map
        (fun m => (m.newTemplateId?, m.prevHash?)) =
      [(some 0, none), (none, some [1]), (some 1, none), (none, some [2]), (some 2, none)] := by
  decide +kernel

end Tasks

end GridPoolSv2.BitcoinCoreSv2
