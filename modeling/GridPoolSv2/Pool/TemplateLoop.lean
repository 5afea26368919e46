import GridPoolSv2.Pool.BlockWeight

/-!
# Pool.TemplateLoop: the loop of the JSON-RPC template provider

The model of `BitcoinRpcTemplateProvider::run` (`pool/src/lib/template_receiver/bitcoin_rpc.rs`).
The loop has two halves. Without coinbase output constraints it only waits for them; the
first template is requested once they are there. With constraints it waits for the pool and
for the answer to a long poll at the same time. Answers can be unreadable or refused by
`from_gbt`, and each of the two messages of a publication can fail to be sent.

* `GbtAnswer` is an answer of the node as it is read from JSON, and `GbtAnswer.checked` what
  `from_gbt` makes of it before a template gets its id.
* `TemplateLoop` holds the variables of the loop, and `TemplateLoop.step` is one turn.
* `constraints_kept_iff` says in which runs the loop never goes back to waiting for
  constraints that the pool sends only once.
* `tip_published_iff` says in which runs the tip behind the id of a long poll was always
  published before.

Replies to `RequestTransactionData` and the node's verdict on a block do not touch the
variables of the loop and are left out.

Proof shape: `step_turn` is the only lemma that looks into a turn. Both results are invariants
over the constructors of `Turn`, and their converses follow the loop for one turn after the
condition has failed.
-/

namespace GridPoolSv2.Pool

open Consensus (Bytes)
open Payout (Text)
open Runs

/-! ### Answers of the node -/

/-- `write_scriptint`: the magnitude from the lowest byte on, the sign in the highest bit. -/
def writeScriptint (negative : Bool) : Nat → Nat → Bytes
  | 0, _ => []
  | fuel + 1, abs =>
      if 0xff < abs then UInt8.ofNat abs :: writeScriptint negative fuel (abs / 256)
      else if 0x80 ≤ abs then [UInt8.ofNat abs, if negative then 0x80 else 0]
      else [UInt8.ofNat (abs + if negative then 0x80 else 0)]

/-- The script of `Builder::push_int`, for all numbers but `i64::MIN`, whose absolute value is no
`i64`. -/
def pushInt (n : Int) : Bytes :=
  if n = -1 ∨ 1 ≤ n ∧ n ≤ 16 then [UInt8.ofNat (n + 0x50).toNat]
  else if n = 0 then [0]
  else
    let bytes := writeScriptint (n < 0) 8 n.natAbs
    UInt8.ofNat bytes.length :: bytes

/-- `u32::from_str_radix` with radix 16. -/
def u32FromHex (text : Text) : Option UInt32 :=
  let digits := match text with
    | '+' :: rest => rest
    | _ => text
  if digits = [] then none
  else
    match digits.foldlM (fun n c => (hexDigit c).map (16 * n + ·)) 0 with
    | none => none
    | some n => if n < 2 ^ 32 then some (UInt32.ofNat n) else none

/-- `GetBlockTemplate` as it is deserialized. -/
structure GbtAnswer where
  version : UInt32
  previousblockhash : Text
  transactions : List GetBlockTemplateTransaction
  flags : Text
  coinbasevalue : UInt64
  longpollid : Option String
  mintime : UInt32
  curtime : UInt32
  bits : Text
  height : UInt64
  deriving Repr, DecidableEq

namespace GbtAnswer

/-- The height and the flags, as `from_gbt` puts them into the coinbase. -/
def coinbaseScript (a : GbtAnswer) : Except String Bytes :=
  if a.flags = [] then .ok (pushInt a.height.toInt64.toInt)
  else
    match hexDecode a.flags with
    | .error e => .error ("invalid GBT coinbaseaux.flags: " ++ e)
    | .ok flags => .ok (pushInt a.height.toInt64.toInt ++ flags)

/-- The transactions `from_gbt` selects. -/
def selected (a : GbtAnswer) (constraints : CoinbaseOutputConstraints) :
    List GetBlockTemplateTransaction :=
  a.transactions.take (selectTransactionPrefix a.transactions
    (transactionBudget constraints.coinbaseOutputMaxAdditionalSize))

/-- The checks of `from_gbt`, up to the length of the coinbase prefix. -/
def checked (a : GbtAnswer) (constraints : CoinbaseOutputConstraints) :
    Except String GetBlockTemplate :=
  match hashFromStr a.previousblockhash with
  | none => .error "invalid GBT previousblockhash"
  | some previousBlockHash =>
      match u32FromHex a.bits with
      | none => .error "invalid GBT bits"
      | some bits =>
          match parseTransactions Sha256.digestTwice (a.selected constraints) with
          | .error e => .error e
          | .ok _ =>
              match a.coinbaseScript with
              | .error e => .error e
              | .ok coinbaseScript =>
                  .ok
                    { previousBlockHash := previousBlockHash
                      coinbaseScript := coinbaseScript
                      coinbaseValue := a.coinbasevalue
                      mintime := a.mintime
                      curtime := a.curtime
                      bits := bits }

/-- `from_gbt` makes a template of the answer: the checks pass, and the coinbase prefix has room for
nine bytes of the template id. -/
def Accepted (a : GbtAnswer) (constraints : CoinbaseOutputConstraints) : Prop :=
  ∃ g, a.checked constraints = .ok g ∧ g.coinbaseScript.length + 9 ≤ 100

instance (a : GbtAnswer) (constraints : CoinbaseOutputConstraints) :
    Decidable (a.Accepted constraints) :=
  match h : a.checked constraints with
  | .error e => isFalse fun ⟨g, hg, _⟩ => by
      rw [h] at hg
      cases hg
  | .ok g =>
      decidable_of_iff (g.coinbaseScript.length + 9 ≤ 100)
        ⟨fun hg => ⟨g, h, hg⟩, fun ⟨g', hg', hlength⟩ => by
          rw [h] at hg'
          cases hg'
          exact hlength⟩

theorem checked_eq_ok {a : GbtAnswer} {constraints : CoinbaseOutputConstraints}
    {g : GetBlockTemplate} (h : a.checked constraints = .ok g) :
    hashFromStr a.previousblockhash = some g.previousBlockHash ∧
      ∃ xs, parseTransactions Sha256.digestTwice (a.selected constraints) = .ok xs := by
  unfold checked at h
  split at h
  · cases h
  · rename_i previousBlockHash hprev
    split at h
    · cases h
    · split at h
      · cases h
      · rename_i xs hxs
        split at h
        · cases h
        · cases h
          exact ⟨hprev, xs, hxs⟩

/-- The template of an answer that passes the checks is the one a solved block is assembled from. -/
theorem fromGbt_checked {a : GbtAnswer} {constraints : CoinbaseOutputConstraints}
    {g : GetBlockTemplate} (h : a.checked constraints = .ok g) (id : TemplateId) :
    (RpcBlockTemplate.fromGbt Sha256.digestTwice id ⟨g, a.version, a.transactions⟩
        constraints.coinbaseOutputMaxAdditionalSize).map (·.toRpcTemplate) =
      RpcTemplate.fromGbt id (.ok g) := by
  obtain ⟨-, xs, hxs⟩ := checked_eq_ok h
  unfold selected at hxs
  simp only [RpcBlockTemplate.fromGbt, hxs]
  cases RpcTemplate.fromGbt id (.ok g) <;> rfl

theorem fromGbt_eq_ok {a : GbtAnswer} {constraints : CoinbaseOutputConstraints} {id : TemplateId}
    {t : RpcTemplate} (h : RpcTemplate.fromGbt id (a.checked constraints) = .ok t) :
    hashFromStr a.previousblockhash = some t.prevHash ∧ t.id = id := by
  refine ⟨?_, RpcTemplate.fromGbt_id h⟩
  cases hg : a.checked constraints with
  | error e =>
      rw [hg] at h
      cases h
  | ok g =>
      obtain ⟨hprev, -⟩ := checked_eq_ok hg
      rw [hg] at h
      simp only [RpcTemplate.fromGbt] at h
      split at h
      · cases h
      · cases h
        exact hprev

/-- Whether there is a template does not depend on its id. -/
theorem exists_fromGbt_iff (a : GbtAnswer) (constraints : CoinbaseOutputConstraints)
    (id : TemplateId) :
    (∃ t, RpcTemplate.fromGbt id (a.checked constraints) = .ok t) ↔ a.Accepted constraints := by
  unfold Accepted
  cases a.checked constraints with
  | error e => simp [RpcTemplate.fromGbt]
  | ok g =>
      simp only [RpcTemplate.fromGbt, List.length_append, List.length_singleton,
        Consensus.leBytes_length, Except.ok.injEq, exists_eq_left']
      split
      · simp only [reduceCtorEq, exists_false, false_iff]
        omega
      · simp only [Except.ok.injEq, exists_eq', true_iff]
        omega

end GbtAnswer

/-! ### The loop -/

/-- The messages of the pool to the provider. -/
inductive PoolMessage where
  | coinbaseOutputConstraints (constraints : CoinbaseOutputConstraints)
  | requestTransactionData (templateId : TemplateId)
  | submitSolution (solution : SubmitSolution)
  | other
  deriving Repr, DecidableEq

/-- What becomes of the two messages of a publication. -/
structure Sends where
  newTemplate : Except String Unit
  setNewPrevHash : Except String Unit

/-- What is to be sent arrives. -/
def Sends.Arrive (sends : Sends) (sendPrevHash : Bool) : Prop :=
  sends.newTemplate = .ok () ∧ (sendPrevHash = true → sends.setNewPrevHash = .ok ())

/-- `PublishedTemplate`. -/
structure PublishedTemplate where
  prevHash : Bytes
  longpollid : Option String
  deriving Repr, DecidableEq

/-- The provider and the variables of `run`. `sent` lists the messages that were sent and `source`
is the answer `longpollid` was taken from, as ghosts. -/
structure TemplateLoop where
  provider : BitcoinRpcTemplateProvider
  minInterval : Nat
  running : Bool
  constraints : Option CoinbaseOutputConstraints
  longpollid : Option String
  currentPrevHash : Option Bytes
  lastNonTipPublish : Option Nat
  sent : List TemplateDistribution
  source : Option GbtAnswer

/-- One turn of the loop: it sees that it is cancelled; it takes a message of the pool (`none` when
the channel is closed), with the answer to the request the message may lead to; or the long poll is
answered, with the time then and after the publication. -/
inductive TemplateLoopEvent where
  | cancel
  | incoming (message : Option PoolMessage) (response : Except String GbtAnswer) (sends : Sends)
  | response (response : Except String GbtAnswer) (now published : Nat) (sends : Sends)

/-- The constraints an event delivers. -/
def TemplateLoopEvent.constraints? : TemplateLoopEvent → Option CoinbaseOutputConstraints
  | .incoming (some (.coinbaseOutputConstraints c)) _ _ => some c
  | _ => none

namespace TemplateLoop

/-- The start of `run`. -/
def initial (minInterval : Nat) : TemplateLoop where
  provider := .new
  minInterval := minInterval
  running := true
  constraints := none
  longpollid := none
  currentPrevHash := none
  lastNonTipPublish := none
  sent := []
  source := none

/-- `publish_gbt`. The template is stored before it is sent. -/
def publishGbt (s : TemplateLoop) (constraints : CoinbaseOutputConstraints) (gbt : GbtAnswer)
    (futureTemplate sendPrevHash : Bool) (sends : Sends) :
    TemplateLoop × Except String PublishedTemplate :=
  let response := gbt.checked constraints
  let s' := { s with provider := (s.provider.publishGbt response futureTemplate sendPrevHash).1 }
  match RpcTemplate.fromGbt s.provider.nextTemplateId response with
  | .error e => (s', .error e)
  | .ok template =>
      let published : PublishedTemplate := ⟨template.prevHash, gbt.longpollid⟩
      match sends.newTemplate with
      | .error e => (s', .error ("failed to publish RPC NewTemplate: " ++ e))
      | .ok () =>
          let sent := s.sent ++ [.newTemplate (template.newTemplate futureTemplate)]
          if sendPrevHash then
            match sends.setNewPrevHash with
            | .error e =>
                ({ s' with sent := sent }, .error ("failed to publish RPC SetNewPrevHash: " ++ e))
            | .ok () =>
                ({ s' with sent := sent ++ [.setNewPrevHash template.setNewPrevHash] },
                  .ok published)
          else ({ s' with sent := sent }, .ok published)

/-- `refresh_template`, given the answer of the node. -/
def refreshTemplate (s : TemplateLoop) (constraints : CoinbaseOutputConstraints)
    (response : Except String GbtAnswer) (futureTemplate sendPrevHash : Bool) (sends : Sends) :
    TemplateLoop × Except String PublishedTemplate :=
  match response with
  | .error e => (s, .error e)
  | .ok gbt => s.publishGbt constraints gbt futureTemplate sendPrevHash sends

/-- The loop goes on from a refresh that worked. -/
def follow (s : TemplateLoop) (response : Except String GbtAnswer) (template : PublishedTemplate) :
    TemplateLoop :=
  { s with
    currentPrevHash := some template.prevHash
    longpollid := template.longpollid
    source := response.toOption }

/-- A turn without constraints. -/
def waitForConstraints (s : TemplateLoop) (message : Option PoolMessage)
    (response : Except String GbtAnswer) (sends : Sends) : TemplateLoop :=
  match message with
  | none => { s with running := false }
  | some (.coinbaseOutputConstraints value) =>
      match { s with constraints := some value }.refreshTemplate value response true true sends with
      | (s, .ok template) => s.follow response template
      | (s, .error _) => { s with constraints := none }
  | some _ => s

/-- A turn with constraints in which the pool was faster. -/
def handleIncoming (s : TemplateLoop) (message : Option PoolMessage)
    (response : Except String GbtAnswer) (sends : Sends) : TemplateLoop :=
  match message with
  | none => { s with running := false }
  | some (.coinbaseOutputConstraints value) =>
      match { s with constraints := some value }.refreshTemplate value response true true sends with
      | (s, .ok template) => s.follow response template
      | (s, .error _) => s
  | some _ => s

/-- The last publication for an unchanged tip was less than the minimal interval ago. -/
def throttled (s : TemplateLoop) (now : Nat) : Bool :=
  match s.lastNonTipPublish with
  | none => false
  | some last => decide (now - last < s.minInterval)

/-- A turn with constraints in which the node was faster. -/
def handleResponse (s : TemplateLoop) (constraints : CoinbaseOutputConstraints)
    (response : Except String GbtAnswer) (now published : Nat) (sends : Sends) : TemplateLoop :=
  match response with
  | .error _ => s
  | .ok gbt =>
      match hashFromStr gbt.previousblockhash with
      | none => s
      | some prevHash =>
          let tipChanged := decide (s.currentPrevHash ≠ some prevHash)
          let s' := { s with longpollid := gbt.longpollid, source := some gbt }
          if !tipChanged && s.throttled now then s'
          else
            match s'.publishGbt constraints gbt tipChanged tipChanged sends with
            | (s'', .error _) => s''
            | (s'', .ok template) =>
                { s'' with
                  currentPrevHash := some template.prevHash
                  lastNonTipPublish := if tipChanged then s''.lastNonTipPublish else some
                    published }

/-- One turn. -/
def step (s : TemplateLoop) (e : TemplateLoopEvent) : TemplateLoop :=
  if s.running = false then s
  else
    match e with
    | .cancel => { s with running := false }
    | .incoming message response sends =>
        match s.constraints with
        | none => s.waitForConstraints message response sends
        | some _ => s.handleIncoming message response sends
    | .response response now published sends =>
        match s.constraints with
        | none => s
        | some constraints => s.handleResponse constraints response now published sends

/-- The `getblocktemplate` request the loop has under way, if it does not wait for constraints: the
constraints its answer is published under, and the id it polls with. -/
def request (s : TemplateLoop) : Option (CoinbaseOutputConstraints × Option String) :=
  if s.running then s.constraints.map (·, s.longpollid) else none

/-! ### What a turn does

`Turn` lists the cases: nothing of interest, the end of the loop, constraints with or without a
refresh, and an answer with or without a publication. -/

/-- What a publication of an answer leads to: an error, with at most the template sent, or a
template for the tip of the answer, followed by its previous hash when that is to be sent. -/
inductive Published (s : TemplateLoop) (response : Except String GbtAnswer) (sendPrevHash : Bool) :
    TemplateLoop → Except String PublishedTemplate → Prop where
  | failed {p : BitcoinRpcTemplateProvider} {sent : List TemplateDistribution} {e : String}
      (hsent : sent = s.sent ∨ ∃ t, sent = s.sent ++ [.newTemplate t]) :
      Published s response sendPrevHash { s with provider := p, sent := sent } (.error e)
  | done {p : BitcoinRpcTemplateProvider} {gbt : GbtAnswer} {t : RpcTemplate}
      {futureTemplate : Bool} (hresponse : response = .ok gbt)
      (hprev : hashFromStr gbt.previousblockhash = some t.prevHash) :
      Published s response sendPrevHash
        { s with
          provider := p
          sent := s.sent ++ .newTemplate (t.newTemplate futureTemplate) ::
            if sendPrevHash then [.setNewPrevHash t.setNewPrevHash] else [] }
        (.ok ⟨t.prevHash, gbt.longpollid⟩)

/-- A publication sends the template, and the previous hash if it is wanted. -/
theorem publishGbt_published (s : TemplateLoop) (constraints : CoinbaseOutputConstraints)
    (gbt : GbtAnswer) (futureTemplate sendPrevHash : Bool) (sends : Sends) :
    Published s (.ok gbt) sendPrevHash
      (s.publishGbt constraints gbt futureTemplate sendPrevHash sends).1
      (s.publishGbt constraints gbt futureTemplate sendPrevHash sends).2 := by
  unfold publishGbt
  dsimp only
  cases ht : RpcTemplate.fromGbt s.provider.nextTemplateId (gbt.checked constraints) with
  | error e => exact .failed (.inl rfl)
  | ok template =>
      obtain ⟨hprev, -⟩ := GbtAnswer.fromGbt_eq_ok ht
      dsimp only
      cases sends.newTemplate with
      | error e => exact .failed (.inl rfl)
      | ok u =>
          cases sendPrevHash with
          | false => exact .done rfl hprev
          | true =>
              rw [if_pos rfl]
              cases sends.setNewPrevHash with
              | error e => exact .failed (.inr ⟨_, rfl⟩)
              | ok u =>
                  dsimp only
                  rw [List.append_assoc]
                  exact .done rfl hprev

theorem exists_publishGbt_iff (s : TemplateLoop) (constraints : CoinbaseOutputConstraints)
    (gbt : GbtAnswer) (futureTemplate sendPrevHash : Bool) (sends : Sends) :
    (∃ t, (s.publishGbt constraints gbt futureTemplate sendPrevHash sends).2 = .ok t) ↔
      gbt.Accepted constraints ∧ sends.Arrive sendPrevHash := by
  rw [← gbt.exists_fromGbt_iff constraints s.provider.nextTemplateId]
  unfold publishGbt Sends.Arrive
  dsimp only
  cases RpcTemplate.fromGbt s.provider.nextTemplateId (gbt.checked constraints) with
  | error e => simp
  | ok template =>
      cases sends.newTemplate with
      | error e => simp
      | ok u =>
          cases sendPrevHash with
          | false => simp
          | true => cases sends.setNewPrevHash <;> simp

/-- The node answers with a template that `from_gbt` accepts, and it can be sent. -/
def Refreshes (constraints : CoinbaseOutputConstraints) (response : Except String GbtAnswer)
    (sends : Sends) : Prop :=
  ∃ gbt, response = .ok gbt ∧ gbt.Accepted constraints ∧ sends.Arrive true

/-- A refresh is a publication with a previous hash. -/
theorem refreshTemplate_published (s : TemplateLoop) (constraints : CoinbaseOutputConstraints)
    (response : Except String GbtAnswer) (sends : Sends) :
    Published s response true
      (s.refreshTemplate constraints response true true sends).1
      (s.refreshTemplate constraints response true true sends).2 := by
  cases response with
  | error e => exact .failed (.inl rfl)
  | ok gbt => exact s.publishGbt_published constraints gbt true true sends

theorem exists_refreshTemplate_iff (s : TemplateLoop) (constraints : CoinbaseOutputConstraints)
    (response : Except String GbtAnswer) (sends : Sends) :
    (∃ t, (s.refreshTemplate constraints response true true sends).2 = .ok t) ↔
      Refreshes constraints response sends := by
  unfold Refreshes
  cases response with
  | error e => simp [refreshTemplate]
  | ok gbt => simp [refreshTemplate, exists_publishGbt_iff]

/-- The event brings neither constraints nor an answer with a readable tip that is waited for. -/
def Idle (s : TemplateLoop) : TemplateLoopEvent → Prop
  | .incoming (some (.coinbaseOutputConstraints _)) _ _ => False
  | .response (.ok gbt) _ _ _ => s.constraints = none ∨ hashFromStr gbt.previousblockhash = none
  | _ => True

theorem Idle.constraints? {s : TemplateLoop} {e : TemplateLoopEvent} (h : s.Idle e) :
    e.constraints? = none := by
  unfold TemplateLoopEvent.constraints?
  split
  · exact h.elim
  · rfl

/-- What a turn of a running loop does. -/
inductive Turn (s : TemplateLoop) : TemplateLoopEvent → TemplateLoop → Prop where
  | same {e : TemplateLoopEvent} (hidle : s.Idle e) : Turn s e s
  | stopped {e : TemplateLoopEvent} (hidle : s.Idle e) : Turn s e { s with running := false }
  | refreshed {c : CoinbaseOutputConstraints} {response : Except String GbtAnswer} {sends : Sends}
      {gbt : GbtAnswer} {p : BitcoinRpcTemplateProvider} {t : RpcTemplate} {futureTemplate : Bool}
      (hrefreshes : Refreshes c response sends)
      (hprev : hashFromStr gbt.previousblockhash = some t.prevHash) :
      Turn s (.incoming (some (.coinbaseOutputConstraints c)) response sends)
        { s with
          constraints := some c
          provider := p
          sent := s.sent ++ [.newTemplate (t.newTemplate futureTemplate),
            .setNewPrevHash t.setNewPrevHash]
          currentPrevHash := some t.prevHash
          longpollid := gbt.longpollid
          source := some gbt }
  | unrefreshed {c : CoinbaseOutputConstraints} {response : Except String GbtAnswer} {sends : Sends}
      {p : BitcoinRpcTemplateProvider} {sent : List TemplateDistribution}
      (hrefreshes : ¬Refreshes c response sends)
      (hsent : sent = s.sent ∨ ∃ t, sent = s.sent ++ [.newTemplate t]) :
      Turn s (.incoming (some (.coinbaseOutputConstraints c)) response sends)
        { s with
          constraints := s.constraints.map fun _ => c
          provider := p
          sent := sent }
  | published {c : CoinbaseOutputConstraints} {gbt : GbtAnswer} {now published : Nat}
      {sends : Sends} {p : BitcoinRpcTemplateProvider} {t : RpcTemplate} {futureTemplate : Bool}
      {last : Option Nat}
      (hc : s.constraints = some c)
      (hprev : hashFromStr gbt.previousblockhash = some t.prevHash)
      (harrives : s.currentPrevHash = some t.prevHash ∨ gbt.Accepted c ∧ sends.Arrive true) :
      Turn s (.response (.ok gbt) now published sends)
        { s with
          provider := p
          sent := s.sent ++ .newTemplate (t.newTemplate futureTemplate) ::
            if s.currentPrevHash ≠ some t.prevHash then [.setNewPrevHash t.setNewPrevHash] else []
          currentPrevHash := some t.prevHash
          longpollid := gbt.longpollid
          lastNonTipPublish := last
          source := some gbt }
  | unpublished {c : CoinbaseOutputConstraints} {gbt : GbtAnswer} {now published : Nat}
      {sends : Sends} {p : BitcoinRpcTemplateProvider} {sent : List TemplateDistribution}
      {prevHash : Bytes} (hc : s.constraints = some c)
      (hprev : hashFromStr gbt.previousblockhash = some prevHash)
      (hfailed : s.currentPrevHash = some prevHash ∨ ¬(gbt.Accepted c ∧ sends.Arrive true))
      (hsent : sent = s.sent ∨ ∃ t, sent = s.sent ++ [.newTemplate t]) :
      Turn s (.response (.ok gbt) now published sends)
        { s with
          provider := p
          sent := sent
          longpollid := gbt.longpollid
          source := some gbt }

theorem idle_of_other {s : TemplateLoop} {m : PoolMessage}
    (h : ∀ c, m = .coinbaseOutputConstraints c → False) {response : Except String GbtAnswer}
    {sends : Sends} : s.Idle (.incoming (some m) response sends) := by
  cases m with
  | coinbaseOutputConstraints c => exact h c rfl
  | _ => trivial

/-- The two halves treat new constraints alike, except for what they `keep` after an error. -/
theorem refresh_turn (s : TemplateLoop) (c : CoinbaseOutputConstraints)
    (response : Except String GbtAnswer) (sends : Sends) (keep : TemplateLoop → TemplateLoop)
    (hkeep : ∀ p sent, keep { s with constraints := some c, provider := p, sent := sent } =
      { s with constraints := s.constraints.map fun _ => c, provider := p, sent := sent }) :
    Turn s (.incoming (some (.coinbaseOutputConstraints c)) response sends)
      (match { s with constraints := some c }.refreshTemplate c response true true sends with
      | (s, .ok template) => s.follow response template
      | (s, .error _) => keep s) := by
  have hpublished := refreshTemplate_published { s with constraints := some c } c response sends
  have hiff := exists_refreshTemplate_iff { s with constraints := some c } c response sends
  generalize refreshTemplate { s with constraints := some c } c response true true sends = r
    at hpublished hiff
  obtain ⟨s', result⟩ := r
  cases hpublished with
  | failed hsent =>
      have hfailed : ¬Refreshes c response sends := fun h => by
        obtain ⟨t, ht⟩ := hiff.mpr h
        cases ht
      dsimp only
      rw [hkeep]
      exact .unrefreshed hfailed hsent
  | done hresponse hprev =>
      subst hresponse
      exact .refreshed (hiff.mp ⟨_, rfl⟩) hprev

theorem waitForConstraints_turn {s : TemplateLoop} (hc : s.constraints = none)
    (message : Option PoolMessage) (response : Except String GbtAnswer) (sends : Sends) :
    Turn s (.incoming message response sends) (s.waitForConstraints message response sends) := by
  unfold waitForConstraints
  split
  · exact .stopped trivial
  · refine s.refresh_turn _ response sends (fun s => { s with constraints := none }) ?_
    intro p sent
    rw [hc]
    rfl
  · rename_i hother
    exact .same (idle_of_other hother)

theorem handleIncoming_turn {s : TemplateLoop} {c : CoinbaseOutputConstraints}
    (hc : s.constraints = some c) (message : Option PoolMessage)
    (response : Except String GbtAnswer) (sends : Sends) :
    Turn s (.incoming message response sends) (s.handleIncoming message response sends) := by
  unfold handleIncoming
  split
  · exact .stopped trivial
  · refine s.refresh_turn _ response sends id ?_
    intro p sent
    rw [hc]
    rfl
  · rename_i hother
    exact .same (idle_of_other hother)

theorem handleResponse_turn {s : TemplateLoop} {c : CoinbaseOutputConstraints}
    (hc : s.constraints = some c) (response : Except String GbtAnswer) (now published : Nat)
    (sends : Sends) :
    Turn s (.response response now published sends)
      (s.handleResponse c response now published sends) := by
  unfold handleResponse
  split
  · exact .same trivial
  · rename_i gbt
    split
    · rename_i hnone
      exact .same (.inr hnone)
    · rename_i prevHash hprev
      dsimp only
      split
      · rename_i hthrottled
        have hsame : s.currentPrevHash = some prevHash := by
          by_contra hne
          simp [hne] at hthrottled
        exact .unpublished hc hprev (.inl hsame) (.inl rfl)
      · generalize hs' : { s with longpollid := gbt.longpollid, source := some gbt } = s'
        generalize htip : decide (s.currentPrevHash ≠ some prevHash) = tipChanged
        have hpublished := publishGbt_published s' c gbt tipChanged tipChanged sends
        have hiff := exists_publishGbt_iff s' c gbt tipChanged tipChanged sends
        generalize publishGbt s' c gbt tipChanged tipChanged sends = r at hpublished hiff
        obtain ⟨s'', result⟩ := r
        subst hs'
        cases hpublished with
        | failed hsent =>
            refine .unpublished hc hprev ?_ hsent
            refine or_iff_not_imp_left.mpr fun hne => ?_
            have htrue : tipChanged = true := by simp [← htip, hne]
            rw [htrue] at hiff
            intro h
            obtain ⟨t, ht⟩ := hiff.mpr h
            cases ht
        | done hresponse ht =>
            cases hresponse
            obtain rfl := Option.some.inj (hprev.symm.trans ht)
            have harrives := hiff.mp ⟨_, rfl⟩
            subst htip
            simp only [decide_eq_true_eq]
            refine .published hc hprev (or_iff_not_imp_left.mpr fun hne => ?_)
            rwa [decide_eq_true hne] at harrives

theorem step_turn {s : TemplateLoop} (hrun : s.running = true) (e : TemplateLoopEvent) :
    Turn s e (s.step e) := by
  unfold step
  rw [if_neg (by simp [hrun])]
  cases e with
  | cancel => exact .stopped trivial
  | incoming message response sends =>
      cases hc : s.constraints with
      | none => exact waitForConstraints_turn hc message response sends
      | some c => exact handleIncoming_turn hc message response sends
  | response response now published sends =>
      cases hc : s.constraints with
      | none =>
          refine .same ?_
          cases response with
          | error e => trivial
          | ok gbt => exact .inl hc
      | some c => exact handleResponse_turn hc response now published sends

theorem step_of_stopped {s : TemplateLoop} (hrun : s.running = false) (e : TemplateLoopEvent) :
    s.step e = s :=
  if_pos hrun

/-- A loop that runs after a turn ran before. -/
theorem running_of_step {s : TemplateLoop} {e : TemplateLoopEvent}
    (h : (s.step e).running = true) : s.running = true := by
  cases hrun : s.running with
  | true => rfl
  | false =>
      rw [step_of_stopped hrun, hrun] at h
      cases h

/-! ### Constraints -/

/-- The last constraints the pool sent. -/
def received (es : List TemplateLoopEvent) : Option CoinbaseOutputConstraints :=
  (es.filterMap TemplateLoopEvent.constraints?).getLast?

theorem received_concat (es : List TemplateLoopEvent) (e : TemplateLoopEvent) :
    received (es ++ [e]) = e.constraints?.or (received es) := by
  unfold received
  rw [List.filterMap_append]
  cases he : e.constraints? with
  | none => simp [he]
  | some c => simp [he]

/-- The loop requests templates with the constraints it has received. -/
def Retries (es : List TemplateLoopEvent) (s : TemplateLoop) : Prop :=
  s.running = true → ∀ c, received es = some c → s.request = some (c, s.longpollid)

/-- The refresh for constraints that are received while there are none succeeds. -/
def FirstRefreshSucceeds (s : TemplateLoop) : TemplateLoopEvent → Prop
  | .incoming (some (.coinbaseOutputConstraints c)) response sends =>
      s.running = true → s.constraints = none → Refreshes c response sends
  | _ => True

/-- The constraints held are the last ones received. -/
def Holds (es : List TemplateLoopEvent) (s : TemplateLoop) : Prop :=
  s.running = true → s.constraints = received es

theorem Holds.retries {es : List TemplateLoopEvent} {s : TemplateLoop} (h : Holds es s) :
    Retries es s := by
  intro hrun c hc
  rw [request, if_pos hrun, h hrun, hc]
  rfl

theorem holds_step {es : List TemplateLoopEvent} {s : TemplateLoop} (h : Holds es s)
    {e : TemplateLoopEvent} (he : FirstRefreshSucceeds s e) : Holds (es ++ [e]) (s.step e) := by
  intro hrun'
  have hrun := running_of_step hrun'
  have hc := h hrun
  have hturn := step_turn hrun e
  rw [received_concat]
  generalize s.step e = s' at hturn hrun'
  cases hturn with
  | same hidle =>
      rw [hidle.constraints?]
      exact hc
  | stopped hidle => cases hrun'
  | refreshed hrefreshes hprev => rfl
  | unrefreshed hrefreshes hsent =>
      have hsome : s.constraints ≠ none := fun hnone => hrefreshes (he hrun hnone)
      obtain ⟨c, hc'⟩ := Option.ne_none_iff_exists'.mp hsome
      simp only [hc']
      rfl
  | published hc' hprev harrives => exact hc
  | unpublished hc' hprev hfailed hsent => exact hc

/-- After a refresh that failed without constraints the loop waits for constraints again. -/
theorem waits_of_failure {s : TemplateLoop} {c : CoinbaseOutputConstraints}
    {response : Except String GbtAnswer} {sends : Sends} (hrun : s.running = true)
    (hc : s.constraints = none) (hfailed : ¬Refreshes c response sends) :
    let s' := s.step (.incoming (some (.coinbaseOutputConstraints c)) response sends)
    s'.running = true ∧ s'.constraints = none := by
  intro s'
  have hturn := step_turn hrun (.incoming (some (.coinbaseOutputConstraints c)) response sends)
  change Turn s _ s' at hturn
  generalize s' = s'' at hturn
  cases hturn with
  | same hidle => exact hidle.elim
  | stopped hidle => exact hidle.elim
  | refreshed hrefreshes hprev => exact absurd hrefreshes hfailed
  | unrefreshed hrefreshes hsent => exact ⟨hrun, by rw [hc]; rfl⟩

/-! ### The tip behind a long poll -/

/-- The tip of the last previous hash sent. -/
def lastTip (sent : List TemplateDistribution) : Option Bytes :=
  sent.foldl (fun tip m =>
    match m with
    | .newTemplate _ => tip
    | .setNewPrevHash m => some m.prevHash) none

/-- A template and its previous hash were sent for the tip, and no other tip since. -/
structure TipPublished (sent : List TemplateDistribution) (tip : Bytes) : Prop where
  messages : ∃ t m, [.newTemplate t, .setNewPrevHash m] <:+: sent ∧ m.templateId = t.templateId ∧
    m.prevHash = tip
  last : lastTip sent = some tip

@[simp] theorem lastTip_newTemplate (sent : List TemplateDistribution) (t : NewTemplate) :
    lastTip (sent ++ [.newTemplate t]) = lastTip sent := by
  simp [lastTip]

@[simp] theorem lastTip_setNewPrevHash (sent : List TemplateDistribution) (t : NewTemplate)
    (m : SetNewPrevHash) :
    lastTip (sent ++ [.newTemplate t, .setNewPrevHash m]) = some m.prevHash := by
  simp [lastTip]

theorem TipPublished.newTemplate {sent : List TemplateDistribution} {tip : Bytes}
    (h : TipPublished sent tip) (t : NewTemplate) :
    TipPublished (sent ++ [.newTemplate t]) tip := by
  obtain ⟨⟨t', m, hsent, hm⟩, hlast⟩ := h
  exact ⟨⟨t', m, hsent.trans (List.infix_append' [] sent _), hm⟩,
    by rw [lastTip_newTemplate, hlast]⟩

/-- A publication with a previous hash publishes the tip. -/
theorem tipPublished_template (sent : List TemplateDistribution) (t : RpcTemplate)
    (futureTemplate : Bool) :
    TipPublished (sent ++ [.newTemplate (t.newTemplate futureTemplate),
      .setNewPrevHash t.setNewPrevHash]) t.prevHash :=
  ⟨⟨_, _, (List.suffix_append _ _).isInfix, rfl, rfl⟩, lastTip_setNewPrevHash _ _ _⟩

/-- `current_prev_hash` is the tip that was published last. -/
structure Tracks (s : TemplateLoop) : Prop where
  last : s.currentPrevHash = lastTip s.sent
  published : ∀ tip, s.currentPrevHash = some tip → TipPublished s.sent tip

theorem Tracks.sent {s : TemplateLoop} (h : s.Tracks) {sent : List TemplateDistribution}
    (hsent : sent = s.sent ∨ ∃ t, sent = s.sent ++ [.newTemplate t]) :
    s.currentPrevHash = lastTip sent ∧ ∀ tip, s.currentPrevHash = some tip →
      TipPublished sent tip := by
  rcases hsent with rfl | ⟨t, rfl⟩
  · exact ⟨h.last, h.published⟩
  · exact ⟨by rw [lastTip_newTemplate, h.last], fun tip htip =>
      (h.published tip htip).newTemplate t⟩

/-- Every turn keeps the tip in step with what was sent. -/
theorem tracks_step {s : TemplateLoop} (h : s.Tracks) (e : TemplateLoopEvent) :
    (s.step e).Tracks := by
  cases hrun : s.running with
  | false => rwa [step_of_stopped hrun]
  | true =>
      have hturn := step_turn hrun e
      generalize s.step e = s' at hturn
      cases hturn with
      | same hidle => exact h
      | stopped hidle => exact ⟨h.last, h.published⟩
      | refreshed hrefreshes hprev =>
          rename_i t futureTemplate
          have hnew := tipPublished_template s.sent t futureTemplate
          exact ⟨hnew.last.symm, fun tip htip => Option.some.inj htip ▸ hnew⟩
      | unrefreshed hrefreshes hsent =>
          obtain ⟨hlast, hpublished⟩ := h.sent hsent
          exact ⟨hlast, hpublished⟩
      | unpublished hc hprev hfailed hsent =>
          obtain ⟨hlast, hpublished⟩ := h.sent hsent
          exact ⟨hlast, hpublished⟩
      | published hc hprev harrives =>
          rename_i t futureTemplate last
          by_cases hsame : s.currentPrevHash = some t.prevHash
          · obtain ⟨hlast, hpublished⟩ := h.sent (.inr ⟨t.newTemplate futureTemplate, rfl⟩)
            simp only [hsame, ne_eq, not_true_eq_false, if_false]
            exact ⟨hsame.symm.trans hlast, fun tip htip => hpublished tip (hsame.trans htip)⟩
          · simp only [hsame, ne_eq, not_false_eq_true, if_true]
            have hnew := tipPublished_template s.sent t futureTemplate
            exact ⟨hnew.last.symm, fun tip htip => Option.some.inj htip ▸ hnew⟩

theorem tracks_initial (minInterval : Nat) : (initial minInterval).Tracks :=
  ⟨rfl, nofun⟩

/-- The loop polls with an id from an answer for the tip. -/
def LongPolls (s : TemplateLoop) (id : String) (tip : Bytes) : Prop :=
  (∃ c, s.request = some (c, some id)) ∧
    ∃ gbt, s.source = some gbt ∧ gbt.longpollid = some id ∧
      hashFromStr gbt.previousblockhash = some tip

/-- An answer to the long poll that names a new tip and an id for the next poll is published. -/
def NewTipArrives (s : TemplateLoop) : TemplateLoopEvent → Prop
  | .response (.ok gbt) _ _ sends =>
      gbt.longpollid ≠ none → ∀ c tip, s.request.map Prod.fst = some c →
        hashFromStr gbt.previousblockhash = some tip → s.currentPrevHash ≠ some tip →
          gbt.Accepted c ∧ sends.Arrive true
  | _ => True

/-- The answer the id was taken from names the current tip. -/
def Follows (s : TemplateLoop) : Prop :=
  s.longpollid ≠ none → ∀ gbt tip, s.source = some gbt →
    hashFromStr gbt.previousblockhash = some tip → s.currentPrevHash = some tip

theorem request_fst {s : TemplateLoop} {c : CoinbaseOutputConstraints} (hrun : s.running = true)
    (hc : s.constraints = some c) : s.request.map Prod.fst = some c := by
  rw [request, if_pos hrun, hc]
  rfl

/-- The long poll follows the tip under the condition. -/
theorem follows_step {s : TemplateLoop} (h : s.Follows) {e : TemplateLoopEvent}
    (he : NewTipArrives s e) : (s.step e).Follows := by
  cases hrun : s.running with
  | false => rwa [step_of_stopped hrun]
  | true =>
      have hturn := step_turn hrun e
      generalize s.step e = s' at hturn
      cases hturn with
      | same hidle => exact h
      | stopped hidle => exact h
      | refreshed hrefreshes hprev =>
          rintro - gbt tip ⟨⟩ htip
          exact hprev.symm.trans htip
      | unrefreshed hrefreshes hsent => exact h
      | published hc hprev harrives =>
          rintro - gbt tip ⟨⟩ htip
          exact hprev.symm.trans htip
      | unpublished hc hprev hfailed hsent =>
          rintro hid gbt tip ⟨⟩ htip
          obtain rfl := Option.some.inj (hprev.symm.trans htip)
          by_contra hne
          exact (hfailed.resolve_left hne) (he hid _ _ (request_fst hrun hc) hprev hne)

/-- After an answer with a new tip that could not be published the loop polls with its id. -/
theorem polls_of_failure {s : TemplateLoop} {c : CoinbaseOutputConstraints} {gbt : GbtAnswer}
    {id : String} {tip : Bytes} {now published : Nat} {sends : Sends}
    (hc : s.request.map Prod.fst = some c) (hid : gbt.longpollid = some id)
    (htip : hashFromStr gbt.previousblockhash = some tip) (hnew : s.currentPrevHash ≠ some tip)
    (hfailed : ¬(gbt.Accepted c ∧ sends.Arrive true)) :
    let s' := s.step (.response (.ok gbt) now published sends)
    s'.LongPolls id tip ∧ s'.currentPrevHash = s.currentPrevHash := by
  intro s'
  have hrun : s.running = true := by
    by_contra hrun
    rw [request, if_neg hrun] at hc
    cases hc
  have hc' : s.constraints = some c := by
    rw [request, if_pos hrun, Option.map_map] at hc
    obtain ⟨c', hc', rfl⟩ := Option.map_eq_some_iff.mp hc
    exact hc'
  have hturn := step_turn hrun (.response (.ok gbt) now published sends)
  change Turn s _ s' at hturn
  generalize s' = s'' at hturn
  have hbusy : ¬s.Idle (.response (.ok gbt) now published sends) := by
    rintro (hnone | hnone)
    · cases hc'.symm.trans hnone
    · cases htip.symm.trans hnone
  cases hturn with
  | same hidle => exact absurd hidle hbusy
  | stopped hidle => exact absurd hidle hbusy
  | published hc'' hprev harrives =>
      obtain rfl := Option.some.inj (hprev.symm.trans htip)
      obtain rfl := Option.some.inj (hc''.symm.trans hc')
      exact absurd (harrives.resolve_left hnew) hfailed
  | unpublished hc'' hprev hfailed' hsent =>
      refine ⟨⟨⟨c, ?_⟩, gbt, rfl, hid, htip⟩, rfl⟩
      simp only [request, hrun, if_true, hc', hid]
      rfl

end TemplateLoop

/-! ### Results -/

/-- An answer for the tip whose hash is written with one digit. -/
def sampleAnswer (digit : Char) (flags : Text) (longpollid : String) : GbtAnswer where
  version := 0x20000000
  previousblockhash := List.replicate 64 digit
  transactions := []
  flags := flags
  coinbasevalue := 312500000
  longpollid := some longpollid
  mintime := 1700000000
  curtime := 1700000001
  bits := "207fffff".toList
  height := 200000

/-- The pool sends its constraints, and the node answers. -/
def sampleConstraints (response : Except String GbtAnswer) : TemplateLoopEvent :=
  .incoming (some (.coinbaseOutputConstraints ⟨1024, 4⟩)) response ⟨.ok (), .ok ()⟩

/-- At every point of a run the loop requests templates with the constraints it has received,
exactly when every refresh it makes for constraints while it holds none succeeds. -/
theorem constraints_kept_iff (minInterval : Nat) (es : List TemplateLoopEvent) :
    (∀ pre post, es = pre ++ post →
        TemplateLoop.Retries pre (exec TemplateLoop.step (.initial minInterval) pre)) ↔
      Along TemplateLoop.step TemplateLoop.FirstRefreshSucceeds (.initial minInterval) es := by
  constructor
  · intro h
    refine along_iff_splits.mpr fun pre e post hsplit => ?_
    unfold TemplateLoop.FirstRefreshSucceeds
    split
    · rename_i c response sends
      intro hrun hc
      by_contra hfailed
      obtain ⟨hrun', hc'⟩ := TemplateLoop.waits_of_failure hrun hc hfailed
      have hretries := h (pre ++ [.incoming (some (.coinbaseOutputConstraints c)) response sends])
        post (by rw [hsplit, List.append_assoc]; rfl)
      rw [exec_append, exec_cons, exec_nil] at hretries
      have hrequest := hretries hrun' c (TemplateLoop.received_concat pre _)
      rw [TemplateLoop.request, if_pos hrun', hc'] at hrequest
      cases hrequest
    · trivial
  · rintro hc pre post rfl
    obtain ⟨hpre, -⟩ := along_append.mp hc
    have hholds : TemplateLoop.Holds pre (exec TemplateLoop.step (.initial minInterval) pre) :=
      exec_induct_events (I := TemplateLoop.Holds) (fun _ _ h he => TemplateLoop.holds_step h he)
        (fun _ => rfl) hpre
    exact hholds.retries

/-- The node cannot be reached when the constraints arrive: the loop waits for others, and an answer
of the node would find nobody. -/
theorem unreachable_node_forgets_constraints :
    let es := [sampleConstraints (.error "Bitcoin RPC getblocktemplate transport failure"),
      .response (.ok (sampleAnswer '7' [] "a")) 0 0 ⟨.ok (), .ok ()⟩]
    let s := exec TemplateLoop.step (.initial 5) es
    s.running = true ∧ TemplateLoop.received es = some ⟨1024, 4⟩ ∧ s.request = none ∧
      s.sent = [] ∧ ¬TemplateLoop.Retries es s := by
  refine ⟨rfl, rfl, rfl, rfl, fun h => ?_⟩
  cases h rfl ⟨1024, 4⟩ rfl

/-- At every point of a run a template and its previous hash have been sent for the tip behind the
id the loop polls with, and no other tip since, exactly when every answer to a long poll that names
a new tip and a next id is published. -/
theorem tip_published_iff (minInterval : Nat) (es : List TemplateLoopEvent) :
    (∀ pre post, es = pre ++ post → ∀ id tip,
        (exec TemplateLoop.step (.initial minInterval) pre).LongPolls id tip →
          TemplateLoop.TipPublished (exec TemplateLoop.step (.initial minInterval) pre).sent tip) ↔
      Along TemplateLoop.step TemplateLoop.NewTipArrives (.initial minInterval) es := by
  have htracks : ∀ pre, (exec TemplateLoop.step (.initial minInterval) pre).Tracks := fun pre =>
    exec_invariant (I := TemplateLoop.Tracks) (fun _ e h => TemplateLoop.tracks_step h e)
      (TemplateLoop.tracks_initial minInterval) pre
  constructor
  · intro h
    refine along_iff_splits.mpr fun pre e post hsplit => ?_
    unfold TemplateLoop.NewTipArrives
    split
    · rename_i gbt now published sends
      intro hid c tip hc htip hnew
      by_contra hfailed
      obtain ⟨id, hid⟩ := Option.ne_none_iff_exists'.mp hid
      obtain ⟨hpolls, hcurrent⟩ := TemplateLoop.polls_of_failure hc hid htip hnew hfailed
      have hpublished := h (pre ++ [.response (.ok gbt) now published sends]) post
        (by rw [hsplit, List.append_assoc]; rfl) id tip
      have hlast := (htracks (pre ++ [.response (.ok gbt) now published sends])).last
      rw [exec_append, exec_cons, exec_nil] at hpublished hlast
      exact hnew (hcurrent.symm.trans (hlast.trans (hpublished hpolls).last))
    · trivial
  · rintro hc pre post rfl id tip ⟨⟨c, hrequest⟩, gbt, hsource, hid, htip⟩
    obtain ⟨hpre, -⟩ := along_append.mp hc
    have hfollows : (exec TemplateLoop.step (.initial minInterval) pre).Follows :=
      exec_induct (I := TemplateLoop.Follows) (fun _ _ h he => TemplateLoop.follows_step h he)
        (fun hne => (hne rfl).elim) hpre
    refine (htracks pre).published tip (hfollows ?_ gbt tip hsource htip)
    intro hnone
    unfold TemplateLoop.request at hrequest
    split at hrequest
    · obtain ⟨c', -, heq⟩ := Option.map_eq_some_iff.mp hrequest
      cases hnone.symm.trans (Prod.mk.inj heq).2
    · cases hrequest

/-- The first answer for a new tip leaves no room for the template id in the coinbase prefix: the
loop polls with its id, but has sent nothing for the tip. -/
theorem refused_tip_is_polled :
    let s := exec TemplateLoop.step (.initial 5)
      [sampleConstraints (.ok (sampleAnswer '7' [] "a")),
        .response (.ok (sampleAnswer '8' (List.replicate 180 '0') "b")) 30 30 ⟨.ok (), .ok ()⟩]
    s.LongPolls "b" (List.replicate 32 0x88) ∧
      ¬∃ m, .setNewPrevHash m ∈ s.sent ∧ m.prevHash = List.replicate 32 0x88 := by
  intro s
  have hsent : s.sent.all (fun m => match m with
      | .newTemplate _ => true
      | .setNewPrevHash m => m.prevHash ≠ List.replicate 32 0x88) = true := by
    decide +kernel
  have hsource : s.source = some (sampleAnswer '8' (List.replicate 180 '0') "b") := by
    decide +kernel
  have hrequest : s.request = some (⟨1024, 4⟩, some "b") := by
    decide +kernel
  have htip : hashFromStr (sampleAnswer '8' (List.replicate 180 '0') "b").previousblockhash =
      some (List.replicate 32 0x88) := by
    decide +kernel
  refine ⟨⟨⟨_, hrequest⟩, _, hsource, rfl, htip⟩, ?_⟩
  rintro ⟨m, hm, htip⟩
  have hne := List.all_eq_true.mp hsent _ hm
  simp [htip] at hne

end GridPoolSv2.Pool
