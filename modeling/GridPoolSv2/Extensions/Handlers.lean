import GridPoolSv2.Lib.Handler
import GridPoolSv2.Lib.Link

/-!
# Extensions.Handlers: a request for extensions and its answers

The model of `extensions_message_handler.rs`: the server's half in the pool and in the JD client
(towards its miners), the client's half in the translator and in the JD client (towards the
pool), and of the request that `setup_connection` sends at the start.

* The client requests the extensions it requires. The server grants those that it supports if
  there are any and none of its own required extensions is missing from the request. Else it
  answers with an error that lists what it does not support and what was missing.
* The client retries a request with *the missing extensions alone*, if it supports them all.
* The server stores the granted extensions before it answers. The client stores them when the
  answer comes and sends the user identity of a share from then on.

The two halves are the parties of a `Link`. A server that failed reads no more frames and a client
that failed no more replies; a party whose writer is gone sends nothing.

`Grants` and `Retries` are the two decisions, stated with the configurations alone. Every
handler has a lemma for each side of its decision, so the dialogue in `Extensions.Negotiation`
never unfolds one.
-/

namespace GridPoolSv2.Extensions

open Visit Handler
open Runs (exec)

/-- The number of an extension, a `u16`. -/
abbrev Extension := UInt16

/-- `EXTENSION_TYPE_WORKER_HASHRATE_TRACKING` -/
def workerHashrateTracking : Extension := 0x0002

/-- `Seq064K<u16>`, whose length is written in two bytes. -/
def Seq064K : Type := { es : List Extension // es.length ≤ 65535 }

namespace Seq064K

def new (es : List Extension) : Option Seq064K :=
  if h : es.length ≤ 65535 then some ⟨es, h⟩ else none

def intoInner (s : Seq064K) : List Extension := s.val

/-- A selection of a sequence is a sequence. -/
def filter (s : Seq064K) (p : Extension → Bool) : Seq064K :=
  ⟨s.val.filter p, (List.length_filter_le p s.val).trans s.property⟩

@[simp] theorem intoInner_filter (s : Seq064K) (p : Extension → Bool) :
    (s.filter p).intoInner = s.intoInner.filter p := rfl

@[simp] theorem new_filter (s : Seq064K) (p : Extension → Bool) :
    new (s.intoInner.filter p) = some (s.filter p) :=
  dif_pos (s.filter p).property

theorem new_eq_some {es : List Extension} {s : Seq064K} (h : new es = some s) :
    s.intoInner = es := by
  unfold new at h
  split at h
  · cases h
    rfl
  · cases h

theorem new_eq_none {es : List Extension} (h : new es = none) : 65535 < es.length := by
  unfold new at h
  split at h
  · cases h
  · omega

end Seq064K

structure RequestExtensions where
  requestId : UInt16
  requestedExtensions : Seq064K

structure RequestExtensionsSuccess where
  requestId : UInt16
  supportedExtensions : Seq064K

structure RequestExtensionsError where
  requestId : UInt16
  unsupportedExtensions : Seq064K
  requiredExtensions : Seq064K

/-- What an error makes of the party: `PoolError`, `JDCError` and `TproxyError`. -/
inductive Action where
  | shutdown
  | disconnect
  | fallback
  | panic
  deriving Repr, DecidableEq

/-- The kinds of `PoolErrorKind`, `JDCErrorKind` and `TproxyErrorKind` that the handlers use. -/
inductive ErrorKind where
  | binarySv2
  | invalidUnsupportedExtensionsSequence
  | invalidRequiredExtensionsSequence
  | invalidSupportedExtensionsSequence
  | channelErrorSender
  | clientDoesNotSupportRequiredExtensions (missing : List Extension)
  | requiredExtensionsNotSupported (missing : List Extension)
  | serverRequiresUnsupportedExtensions (cannotSupport : List Extension)
  | general (text : String)
  deriving Repr, DecidableEq

structure Fault where
  action : Action
  kind : ErrorKind
  deriving Repr, DecidableEq

/-- `supported_extensions` and `required_extensions` of a role's configuration. -/
structure Config where
  supportedExtensions : List Extension
  requiredExtensions : List Extension
  deriving Repr, DecidableEq

/-! ### The server's half

After an error that lists missing extensions the pool disconnects the client, and the JD client
goes on. -/

/-- `Downstream`: what a server keeps of a connection. -/
structure Downstream where
  config : Config
  negotiatedExtensions : List Extension := []
  /-- The other end of `downstream_sender` is there. -/
  senderOpen : Bool := true

/-- Where the handlers of the pool and of the JD client differ. -/
structure ServerRole where
  unsupportedTooLong : ErrorKind
  requiredTooLong : ErrorKind
  supportedTooLong : ErrorKind
  /-- What a server does after an error that lists missing extensions. -/
  onMissingRequired : List Extension → Option Fault

/-- The pool disconnects the client. -/
def ServerRole.pool : ServerRole where
  unsupportedTooLong := .binarySv2
  requiredTooLong := .binarySv2
  supportedTooLong := .binarySv2
  onMissingRequired missing := some ⟨.disconnect, .clientDoesNotSupportRequiredExtensions missing⟩

/-- The JD client says that it must, and does not (a TODO in the source). -/
def ServerRole.jdClient : ServerRole where
  unsupportedTooLong := .invalidUnsupportedExtensionsSequence
  requiredTooLong := .invalidRequiredExtensionsSequence
  supportedTooLong := .invalidSupportedExtensionsSequence
  onMissingRequired _ := none

inductive Reply where
  | success (m : RequestExtensionsSuccess)
  | error (m : RequestExtensionsError)

def handleRequestExtensions (role : ServerRole) (d : Downstream) (msg : RequestExtensions) :
    Outcome Downstream Reply Fault :=
  let requested := msg.requestedExtensions.intoInner
  let supported := requested.filter fun ext => d.config.supportedExtensions.contains ext
  let unsupported := requested.filter fun ext => !d.config.supportedExtensions.contains ext
  let missingRequired := d.config.requiredExtensions.filter fun ext => !requested.contains ext
  let shouldSendError := supported.isEmpty || !missingRequired.isEmpty
  if shouldSendError then
    match Seq064K.new unsupported with
    | none => .fail d ⟨.shutdown, role.unsupportedTooLong⟩
    | some unsupportedExtensions =>
        match Seq064K.new missingRequired with
        | none => .fail d ⟨.shutdown, role.requiredTooLong⟩
        | some requiredExtensions =>
            if d.senderOpen then
              (say [.error ⟨msg.requestId, unsupportedExtensions, requiredExtensions⟩] d).andThen
                fun d =>
                  if missingRequired.isEmpty then .keep d
                  else
                    match role.onMissingRequired missingRequired with
                    | some fault => .fail d fault
                    | none => .keep d
            else .fail d ⟨.disconnect, .channelErrorSender⟩
  else
    let d := { d with negotiatedExtensions := supported }
    match Seq064K.new supported with
    | none => .fail d ⟨.shutdown, role.supportedTooLong⟩
    | some supportedExtensions =>
        if d.senderOpen then say [.success ⟨msg.requestId, supportedExtensions⟩] d
        else .fail d ⟨.disconnect, .channelErrorSender⟩

/-! ### The client's half

The translator and the JD client share the handlers, and differ in the first request id and in the
texts of their errors. -/

/-- `ChannelManager`, as far as extensions go. -/
structure ChannelManager where
  config : Config
  negotiatedExtensions : List Extension := []
  /-- The other end of `upstream_sender` is there. -/
  senderOpen : Bool := true

/-- Where the translator and the JD client differ. -/
structure ClientRole where
  firstRequestId : UInt16
  /-- The error for a success without a required extension. -/
  notGranted : List Extension → ErrorKind

/-- `{:?}` of a list of extensions. -/
def debugList (es : List Extension) : String :=
  "[" ++ ", ".intercalate (es.map fun e => toString e.toNat) ++ "]"

def ClientRole.translator : ClientRole where
  firstRequestId := 1
  notGranted missing :=
    .general ("Server does not support required extensions: " ++ debugList missing)

def ClientRole.jdClient : ClientRole where
  firstRequestId := 0
  notGranted missing := .requiredExtensionsNotSupported missing

/-- `setup_connection` of the translator and `send_request_extensions` of the JD client. -/
def sendRequestExtensions (role : ClientRole) (cm : ChannelManager) :
    Outcome ChannelManager RequestExtensions Fault :=
  if cm.config.requiredExtensions.isEmpty then .keep cm
  else
    match Seq064K.new cm.config.requiredExtensions with
    | none => .fail cm ⟨.shutdown, .binarySv2⟩
    | some requested =>
        if cm.senderOpen then say [⟨role.firstRequestId, requested⟩] cm
        else .fail cm ⟨.fallback, .channelErrorSender⟩

def handleRequestExtensionsSuccess (role : ClientRole) (cm : ChannelManager)
    (msg : RequestExtensionsSuccess) : Outcome ChannelManager RequestExtensions Fault :=
  let supported := msg.supportedExtensions.intoInner
  let missingRequired := cm.config.requiredExtensions.filter fun ext => !supported.contains ext
  if missingRequired.isEmpty then .keep { cm with negotiatedExtensions := supported }
  else .fail cm ⟨.fallback, role.notGranted missingRequired⟩

def handleRequestExtensionsError (cm : ChannelManager) (msg : RequestExtensionsError) :
    Outcome ChannelManager RequestExtensions Fault :=
  let unsupported := msg.unsupportedExtensions.intoInner
  let requiredByServer := msg.requiredExtensions.intoInner
  let missingRequired := cm.config.requiredExtensions.filter fun ext => unsupported.contains ext
  if !missingRequired.isEmpty then
    .fail cm ⟨.fallback, .requiredExtensionsNotSupported missingRequired⟩
  else if requiredByServer.isEmpty then .keep cm
  else
    let canSupport := requiredByServer.filter fun ext => cm.config.supportedExtensions.contains ext
    let cannotSupport :=
      requiredByServer.filter fun ext => !cm.config.supportedExtensions.contains ext
    if !cannotSupport.isEmpty then
      .fail cm ⟨.fallback, .serverRequiresUnsupportedExtensions cannotSupport⟩
    else
      -- the sum is a `u16`: it wraps in a release build
      match Seq064K.new canSupport with
      | none => .fail cm ⟨.panic, .binarySv2⟩
      | some requested =>
          if cm.senderOpen then say [⟨msg.requestId + 1, requested⟩] cm
          else .fail cm ⟨.fallback, .channelErrorSender⟩

/-! ### The two parties

What travels besides the requests and replies, and what a party can do by itself: a share is
submitted, a writer or a channel is lost. -/

inductive Upward where
  | request (m : RequestExtensions)
  /-- `SubmitSharesExtended`, and whether a user identity is attached. -/
  | share (userIdentity : Bool)

inductive Downward where
  | reply (m : Reply)
  | mining

structure Server where
  downstream : Downstream
  failed : Option Fault := none
  /-- Ghost: the user identities that came without the extension. -/
  unread : Nat := 0

structure Client where
  manager : ChannelManager
  failed : Option Fault := none
  /-- Ghost: the requests sent so far. -/
  requests : Nat := 0

/-- What becomes of a client after a handler. -/
def Client.took (c : Client) (o : Outcome ChannelManager RequestExtensions Fault) :
    Client × List Upward :=
  ({ manager := o.value, failed := o.error, requests := c.requests + o.notes.length },
    o.notes.map .request)

def Server.took (s : Server) (o : Outcome Downstream Reply Fault) : Server × List Downward :=
  ({ s with downstream := o.value, failed := o.error }, o.notes.map .reply)

inductive ClientAct where
  /-- A miner's share goes to the server; `tlv` says whether its user identity is known. -/
  | submitShare (tlv : Bool)
  | senderLost

inductive ServerAct where
  | sendMining
  | senderLost

def serverReceives (role : ServerRole) (s : Server) (frame : Upward) : Server × List Downward :=
  if s.failed.isSome then (s, [])
  else
    match frame with
    | .request m => s.took (handleRequestExtensions role s.downstream m)
    | .share userIdentity =>
        if userIdentity && !s.downstream.negotiatedExtensions.contains workerHashrateTracking then
          ({ s with unread := s.unread + 1 }, [])
        else (s, [])

def clientReceives (role : ClientRole) (c : Client) (frame : Downward) : Client × List Upward :=
  if c.failed.isSome then (c, [])
  else
    match frame with
    | .reply (.success m) => c.took (handleRequestExtensionsSuccess role c.manager m)
    | .reply (.error m) => c.took (handleRequestExtensionsError c.manager m)
    | .mining => (c, [])

def clientActs (a : ClientAct) (c : Client) : Client × List Upward :=
  match a with
  | .submitShare tlv =>
      if c.failed.isNone && c.manager.senderOpen then
        (c, [.share (tlv && c.manager.negotiatedExtensions.contains workerHashrateTracking)])
      else (c, [])
  | .senderLost => ({ c with manager := { c.manager with senderOpen := false } }, [])

def serverActs (a : ServerAct) (s : Server) : Server × List Downward :=
  match a with
  | .sendMining => if s.failed.isNone && s.downstream.senderOpen then (s, [.mining]) else (s, [])
  | .senderLost => ({ s with downstream := { s.downstream with senderOpen := false } }, [])

def parties (server : ServerRole) (client : ClientRole) :
    Link.Parties Client Server Upward Downward ClientAct ServerAct where
  clientReceives := clientReceives client
  serverReceives := serverReceives server
  clientActs := clientActs
  serverActs := serverActs

abbrev Event := Link.Event ClientAct ServerAct

abbrev State := Link.State Client Server Upward Downward

/-- The connection after `setup_connection`, which sends the first request. -/
def start (client : ClientRole) (cc sc : Config) : State :=
  let sent := Client.took ⟨⟨cc, [], true⟩, none, 0⟩ (sendRequestExtensions client ⟨cc, [], true⟩)
  { client := sent.1, server := { downstream := { config := sc } }, up := sent.2 }

def run (server : ServerRole) (client : ClientRole) (cc sc : Config) (es : List Event) : State :=
  exec (Link.step (parties server client)) (start client cc sc) es

def requestOf : Upward → Option RequestExtensions
  | .request m => some m
  | .share _ => none

def replyOf : Downward → Option Reply
  | .reply m => some m
  | .mining => none

/-! ### What the handlers do -/

/-- The server grants a request for `requested`. -/
def Grants (sc : Config) (requested : List Extension) : Prop :=
  (∃ e ∈ requested, e ∈ sc.supportedExtensions) ∧ ∀ e ∈ sc.requiredExtensions, e ∈ requested

/-- The required extensions of the server that a request for `requested` leaves out. -/
def missing (sc : Config) (requested : List Extension) : List Extension :=
  sc.requiredExtensions.filter fun e => !requested.contains e

theorem missing_eq_nil_iff {sc : Config} {requested : List Extension} :
    missing sc requested = [] ↔ ∀ e ∈ sc.requiredExtensions, e ∈ requested := by
  simp [missing]

theorem mem_missing {sc : Config} {requested : List Extension} {e : Extension} :
    e ∈ missing sc requested ↔ e ∈ sc.requiredExtensions ∧ e ∉ requested := by
  simp [missing]

/-- The server grants something, and is granted everything it requires. -/
theorem grants_iff {sc : Config} {requested : List Extension} :
    Grants sc requested ↔
      requested.filter (fun e => sc.supportedExtensions.contains e) ≠ [] ∧
        missing sc requested = [] := by
  rw [missing_eq_nil_iff, Grants, Ne, List.filter_eq_nil_iff]
  simp

section Handlers

variable {role : ServerRole} {client : ClientRole} {d : Downstream} {cm : ChannelManager}

/-- A request that is granted: the extensions are stored, and named in the answer. -/
theorem handleRequestExtensions_of_grants {msg : RequestExtensions}
    (h : Grants d.config msg.requestedExtensions.intoInner) :
    handleRequestExtensions role d msg =
      let granted := msg.requestedExtensions.filter fun e => d.config.supportedExtensions.contains e
      let d' := { d with negotiatedExtensions := granted.intoInner }
      if d.senderOpen then say [.success ⟨msg.requestId, granted⟩] d'
      else .fail d' ⟨.disconnect, .channelErrorSender⟩ := by
  obtain ⟨hsupported, hmissing⟩ := grants_iff.mp h
  have hsome := List.isEmpty_eq_false_iff.mpr hsupported
  have hnone := List.isEmpty_iff.mpr hmissing
  rw [missing] at hnone
  simp only [handleRequestExtensions, hsome, hnone, Bool.not_true, Bool.or_false,
    Bool.false_eq_true, if_false, Seq064K.new_filter]
  rfl

/-- A refused request: the one conversion that can fail is the one of the missing extensions. -/
theorem handleRequestExtensions_of_not_grants {msg : RequestExtensions}
    (h : ¬ Grants d.config msg.requestedExtensions.intoInner) :
    handleRequestExtensions role d msg =
      let requested := msg.requestedExtensions.intoInner
      let unsupported :=
        msg.requestedExtensions.filter fun e => !d.config.supportedExtensions.contains e
      match Seq064K.new (missing d.config requested) with
      | none => .fail d ⟨.shutdown, role.requiredTooLong⟩
      | some required =>
          if d.senderOpen then
            (say [.error ⟨msg.requestId, unsupported, required⟩] d).andThen fun d =>
              if (missing d.config requested).isEmpty then .keep d
              else
                match role.onMissingRequired (missing d.config requested) with
                | some fault => .fail d fault
                | none => .keep d
          else .fail d ⟨.disconnect, .channelErrorSender⟩ := by
  have hsend : ((msg.requestedExtensions.intoInner.filter fun e =>
      d.config.supportedExtensions.contains e).isEmpty ||
        !(missing d.config msg.requestedExtensions.intoInner).isEmpty) = true := by
    rw [grants_iff, not_and_or, not_ne_iff] at h
    rcases h with h | h
    · rw [h]
      rfl
    · rw [List.isEmpty_eq_false_iff.mpr h]
      exact Bool.or_true _
  rw [missing] at hsend
  simp only [handleRequestExtensions, hsend, if_true, Seq064K.new_filter]
  rfl

/-- What a server has done after a request. -/
inductive Answered (role : ServerRole) (d : Downstream) (msg : RequestExtensions) :
    Outcome Downstream Reply Fault → Prop where
  | granted (granted : Seq064K) (h : Grants d.config msg.requestedExtensions.intoInner)
      (hgranted : granted.intoInner = msg.requestedExtensions.intoInner.filter fun e =>
        d.config.supportedExtensions.contains e) :
      Answered role d msg
        (say [.success ⟨msg.requestId, granted⟩]
          { d with negotiatedExtensions := granted.intoInner })
  | refused (unsupported required : Seq064K) (fault : Option Fault)
      (h : ¬ Grants d.config msg.requestedExtensions.intoInner)
      (hunsupported : unsupported.intoInner = msg.requestedExtensions.intoInner.filter fun e =>
        !d.config.supportedExtensions.contains e)
      (hrequired : required.intoInner = missing d.config msg.requestedExtensions.intoInner)
      (hfault : missing d.config msg.requestedExtensions.intoInner ≠ [] →
        fault = role.onMissingRequired (missing d.config msg.requestedExtensions.intoInner)) :
      Answered role d msg ⟨d, [.error ⟨msg.requestId, unsupported, required⟩], fault⟩
  | silent (d' : Downstream) (fault : Fault) (hconfig : d'.config = d.config)
      (hsender : d'.senderOpen = d.senderOpen)
      (h : d.senderOpen = true → ¬ Grants d.config msg.requestedExtensions.intoInner ∧
        65535 < d.config.requiredExtensions.length) :
      Answered role d msg (.fail d' fault)

/-- A request is answered once, with success or with an error, or the writer is gone. -/
theorem handleRequestExtensions_answered (msg : RequestExtensions) :
    Answered role d msg (handleRequestExtensions role d msg) := by
  by_cases h : Grants d.config msg.requestedExtensions.intoInner
  · rw [handleRequestExtensions_of_grants h]
    dsimp only
    by_cases hsender : d.senderOpen = true
    · rw [if_pos hsender]
      exact .granted _ h (Seq064K.intoInner_filter _ _)
    · rw [if_neg hsender]
      exact .silent _ _ rfl rfl fun hopen => absurd hopen hsender
  · rw [handleRequestExtensions_of_not_grants h]
    dsimp only
    cases hnew : Seq064K.new (missing d.config msg.requestedExtensions.intoInner) with
    | none =>
        refine .silent _ _ rfl rfl fun _ => ⟨h, ?_⟩
        exact (Seq064K.new_eq_none hnew).trans_le (List.length_filter_le ..)
    | some required =>
        have hrequired := Seq064K.new_eq_some hnew
        by_cases hsender : d.senderOpen = true
        · dsimp only
          rw [if_pos hsender, Outcome.andThen_eq_of_ok rfl]
          dsimp only [say]
          by_cases hnone : (missing d.config msg.requestedExtensions.intoInner).isEmpty = true
          · simp only [hnone, if_true]
            exact .refused _ _ _ h (Seq064K.intoInner_filter _ _) hrequired fun hmissing =>
              absurd (List.isEmpty_iff.mp hnone) hmissing
          · simp only [hnone]
            cases hfault : role.onMissingRequired
              (missing d.config msg.requestedExtensions.intoInner) with
            | none =>
                exact .refused _ _ _ h (Seq064K.intoInner_filter _ _) hrequired fun _ => hfault.symm
            | some fault =>
                exact .refused _ _ _ h (Seq064K.intoInner_filter _ _) hrequired fun _ => hfault.symm
        · dsimp only
          rw [if_neg hsender]
          exact .silent _ _ rfl rfl fun hopen => absurd hopen hsender

/-- The client requests again what an error to a request for `requested` lists as missing. -/
def Retries (cc sc : Config) (requested : List Extension) : Prop :=
  missing sc requested ≠ [] ∧ (∀ e ∈ missing sc requested, e ∈ cc.supportedExtensions) ∧
    ∀ e ∈ cc.requiredExtensions, e ∈ requested → e ∈ sc.supportedExtensions

section Errors

variable {sc : Config} {requested : List Extension} {msg : RequestExtensionsError}
  (hunsupported : msg.unsupportedExtensions.intoInner = requested.filter fun e =>
    !sc.supportedExtensions.contains e)
  (hrequired : msg.requiredExtensions.intoInner = missing sc requested)

include hunsupported in
theorem missingRequired_eq_nil_iff :
    (cm.config.requiredExtensions.filter fun ext =>
        msg.unsupportedExtensions.intoInner.contains ext) = [] ↔
      ∀ e ∈ cm.config.requiredExtensions, e ∈ requested → e ∈ sc.supportedExtensions := by
  rw [hunsupported, List.filter_eq_nil_iff]
  simp

include hunsupported hrequired

/-- A retry asks for what the server said was missing, under the next request id. -/
theorem handleRequestExtensionsError_of_retries (h : Retries cm.config sc requested) :
    handleRequestExtensionsError cm msg =
      if cm.senderOpen then say [⟨msg.requestId + 1, msg.requiredExtensions⟩] cm
      else .fail cm ⟨.fallback, .channelErrorSender⟩ := by
  obtain ⟨hmissing, hsupported, hgranted⟩ := h
  have hnone := (missingRequired_eq_nil_iff hunsupported).mpr hgranted
  have hsome : msg.requiredExtensions.intoInner.isEmpty = false := by
    rw [hrequired]
    exact List.isEmpty_eq_false_iff.mpr hmissing
  have hcan : msg.requiredExtensions.intoInner.filter
      (fun e => cm.config.supportedExtensions.contains e) = msg.requiredExtensions.intoInner := by
    refine List.filter_eq_self.mpr fun e he => ?_
    rw [hrequired] at he
    simpa using hsupported e he
  have hcannot : msg.requiredExtensions.intoInner.filter
      (fun e => !cm.config.supportedExtensions.contains e) = [] := by
    refine List.filter_eq_nil_iff.mpr fun e he => ?_
    rw [hrequired] at he
    simpa using hsupported e he
  have hnew : Seq064K.new msg.requiredExtensions.intoInner = some msg.requiredExtensions :=
    dif_pos msg.requiredExtensions.property
  simp only [handleRequestExtensionsError, hnone, hsome, hcan, hcannot, hnew, List.isEmpty_nil,
    Bool.not_true, Bool.false_eq_true, if_false]

/-- A client that does not request again sends nothing and keeps what it had. -/
theorem handleRequestExtensionsError_of_not_retries (h : ¬ Retries cm.config sc requested) :
    (handleRequestExtensionsError cm msg).value = cm ∧
      (handleRequestExtensionsError cm msg).notes = [] := by
  unfold handleRequestExtensionsError
  dsimp only
  split
  · exact ⟨rfl, rfl⟩
  · rename_i hnone
    split
    · exact ⟨rfl, rfl⟩
    · rename_i hsome
      split
      · exact ⟨rfl, rfl⟩
      · rename_i hcannot
        refine absurd ⟨?_, ?_, ?_⟩ h
        · rw [← hrequired]
          simpa using hsome
        · rw [← hrequired]
          simpa using hcannot
        · refine (missingRequired_eq_nil_iff hunsupported).mp ?_
          simpa using hnone

end Errors

end Handlers

end GridPoolSv2.Extensions
