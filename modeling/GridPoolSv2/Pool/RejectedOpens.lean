import GridPoolSv2.Lib.Runs
import GridPoolSv2.Pool.ChannelManager

/-!
# Pool.RejectedOpens: what a refused channel leaves behind

An open handler answers with `OpenMiningChannelError` for several reasons: the kind of the
channel, the extranonce size, the identity, and what the constructor of the channel refuses,
such as an invalid nominal hashrate. The payout mode of the connection is written before the
channel is constructed, everything else after.

* `WithVardiff` adds the `vardiff` map, the last one an open handler writes.
* `OpenCase` is the one case analysis of both handlers: how far they get, and what they have
  written by then.
* `refusal_unchanged_iff` says which refused opens leave the connection and the maps alone:
  all but those refused by the constructor that switch the payout mode.
-/

namespace GridPoolSv2.Pool

open Consensus (Bytes TxOut)
open Payout (PayoutMode)
open Function (update)

variable {env : Env} {V : Type}

/-! ### The handlers, with the vardiff map -/

namespace ChannelManager

/-- The open handler of a kind of channel. -/
def handleOpen (s : ChannelManager env.channels) (k : ChannelKind) (d : DownstreamId)
    (msg : OpenMiningChannel) (allocated : Except String Bytes) (now : UInt64) :
    ChannelManager env.channels × Option PoolError :=
  match k with
  | .standard => s.handleOpenStandardMiningChannel d msg allocated now
  | .extended => s.handleOpenExtendedMiningChannel d msg allocated now

end ChannelManager

/-- The constructor of a kind of channel. -/
def ChannelsSv2.newChannel (api : ChannelsSv2) (k : ChannelKind) (c : ChannelId)
    (msg : OpenMiningChannel) (extranoncePrefix : Bytes) : Except ChannelError api.Channel :=
  match k with
  | .standard => api.newStandard c msg extranoncePrefix
  | .extended => api.newExtended c msg extranoncePrefix

/-- An `OpenMiningChannelError` was sent. -/
def Note.refuses : Note → Bool
  | .sent m =>
      match m.message with
      | .openMiningChannelError _ _ => true
      | _ => false
  | .built _ => false

/-- The manager with its `vardiff` map. -/
structure WithVardiff (api : ChannelsSv2) (V : Type) where
  manager : ChannelManager api
  vardiff : DownstreamId × ChannelId → Option V

/-- What follows the rest of an open handler: the last statement, the insertion into `vardiff`,
which is reached unless the handler returned before. If `VardiffState::new` fails, the messages are
not sent. -/
def WithVardiff.insertVardiff (newVardiff : Except String V) (s : WithVardiff env.channels V)
    (d : DownstreamId) (r : ChannelManager env.channels × Option PoolError) :
    WithVardiff env.channels V × Option PoolError :=
  match r.2, s.manager.downstreams.lookup d with
  | none, some ds =>
      if r.1.history.getLast?.any Note.refuses then (⟨r.1, s.vardiff⟩, none)
      else
        match newVardiff with
        | .ok v => (⟨r.1, update s.vardiff (d, ds.channelIdFactory) (some v)⟩, none)
        | .error e =>
            (⟨{ r.1 with history := s.manager.history }, s.vardiff⟩,
              some (.shutdown (.configuration e)))
  | e, _ => (⟨r.1, s.vardiff⟩, e)

/-- `handle_open_standard_mining_channel` and `handle_open_extended_mining_channel`. -/
def WithVardiff.openChannel (newVardiff : Except String V) (s : WithVardiff env.channels V)
    (k : ChannelKind) (d : DownstreamId) (msg : OpenMiningChannel)
    (allocated : Except String Bytes) (now : UInt64) :
    WithVardiff env.channels V × Option PoolError :=
  s.insertVardiff newVardiff d (s.manager.handleOpen k d msg allocated now)

/-! ### How far a handler gets -/

namespace ChannelManager

/-- Every check before the constructor succeeds, and the constructor gets this prefix. -/
structure ReachesConstructor (s : ChannelManager env.channels) (k : ChannelKind)
    (ds : Downstream env.channels) (msg : OpenMiningChannel) (allocated : Except String Bytes)
    (now : UInt64) (mode : PayoutMode) (extranoncePrefix : Bytes) : Prop where
  allocates : allocated = .ok extranoncePrefix
  names : payoutModeOf env msg.userIdentity = some mode
  resolves : ∃ payout, s.resolvePayout msg.userIdentity = .ok payout ∧
    (k = .standard → ∃ t m outputs, s.lastFutureTemplate = some t ∧ s.lastNewPrevHash = some m ∧
      s.rewardOutputs payout mode t now = .ok outputs)
  supported : match k with
    | .standard => ds.requiresCustomWork = false
    | .extended => ds.requiresStandardJobs = false

/-- The connection when the constructor is called. -/
def counted (ds : Downstream env.channels) (mode : PayoutMode) : Downstream env.channels :=
  { ds with payoutMode := some mode, channelIdFactory := ds.channelIdFactory + 1 }

/-- The message that refuses an open. -/
def refusal (s : ChannelManager env.channels) (d : DownstreamId) (msg : OpenMiningChannel)
    (code : OpenErrorCode) : ChannelManager env.channels :=
  s.reply d (.openMiningChannelError msg.requestId code)

/-- How a handler of an open ends. -/
inductive OpenCase (s : ChannelManager env.channels) (k : ChannelKind) (d : DownstreamId)
    (msg : OpenMiningChannel) (allocated : Except String Bytes) (now : UInt64)
    (r : ChannelManager env.channels × Option PoolError) : Prop where
  /-- Nothing is written yet. -/
  | refusedEarly (code : OpenErrorCode) (h : r = (s.refusal d msg code, none))
  /-- The constructor refuses. -/
  | refusedLate {ds mode extranoncePrefix code} (hds : s.downstreams.lookup d = some ds)
      (hreaches : s.ReachesConstructor k ds msg allocated now mode extranoncePrefix)
      (hnew : env.channels.newChannel k ds.channelIdFactory msg extranoncePrefix =
        .error (.openChannel code))
      (h : r = ((s.setDownstream d (counted ds mode)).refusal d msg (.channel code), none))
  /-- Without a message. -/
  | failed (herror : ∃ e, r.2 = some e) (hhistory : r.1.history = s.history)
  /-- The last message is not a refusal. -/
  | opened (herror : r.2 = none)
      (hhistory : ∃ notes x, r.1.history = s.history ++ (notes ++ [x]) ∧ x.refuses = false)

/-- The notes of an opened channel end with a success. -/
theorem openingNotes_last (s : ChannelManager env.channels) (d : DownstreamId) (k : ChannelKind)
    (requestId : Nat) (c groupChannelId : ChannelId) (payout : Option ChannelPayout)
    (t : NewTemplate) (m : SetNewPrevHash) (outputs : List TxOut) (now : UInt64)
    (new : env.channels.Channel) (job : Job) :
    ∃ notes x, s.openingNotes d k requestId c groupChannelId payout t m outputs now new job =
      notes ++ [x] ∧ x.refuses = false := by
  unfold openingNotes
  refine ⟨_, _, (List.append_assoc _ [_, _] [_]).symm, ?_⟩
  rfl

theorem openCase_standard (s : ChannelManager env.channels) (d : DownstreamId)
    (msg : OpenMiningChannel) (allocated : Except String Bytes) (now : UInt64) :
    OpenCase s .standard d msg allocated now
      (s.handleOpenStandardMiningChannel d msg allocated now) := by
  unfold handleOpenStandardMiningChannel
  split
  · exact .failed ⟨_, rfl⟩ rfl
  · rename_i ds hds
    split
    · exact .refusedEarly _ rfl
    · rename_i hcustom
      split
      · exact .failed ⟨_, rfl⟩ rfl
      · exact .failed ⟨_, rfl⟩ rfl
      · rename_i t m ht hm
        split
        · exact .refusedEarly _ rfl
        · exact .refusedEarly _ rfl
        · rename_i payout mode hpayout hmode
          split
          · exact .failed ⟨_, rfl⟩ rfl
          · rename_i outputs houtputs
            dsimp only
            split
            · exact .failed ⟨_, rfl⟩ rfl
            · rename_i extranoncePrefix
              split
              · rename_i code hnew
                exact .refusedLate hds ⟨rfl, hmode, ⟨payout, hpayout, fun _ =>
                  ⟨t, m, outputs, ht, hm, houtputs⟩⟩, Bool.eq_false_iff.mpr hcustom⟩ hnew rfl
              · exact .failed ⟨_, rfl⟩ rfl
              · rename_i new hnew
                split
                · exact .failed ⟨_, rfl⟩ rfl
                · rename_i job ch hfirst
                  have hlast := openingNotes_last s d .standard msg.requestId ds.channelIdFactory
                    (env.channels.groupChannelId ds.group) payout t m outputs now new job
                  obtain ⟨notes, x, hnotes, hx⟩ := hlast
                  split
                  · exact .opened rfl ⟨notes, x, congrArg (s.history ++ ·) hnotes, hx⟩
                  · split
                    · exact .failed ⟨_, rfl⟩ rfl
                    · exact .opened rfl ⟨notes, x, congrArg (s.history ++ ·) hnotes, hx⟩

theorem openCase_extended (s : ChannelManager env.channels) (d : DownstreamId)
    (msg : OpenMiningChannel) (allocated : Except String Bytes) (now : UInt64) :
    OpenCase s .extended d msg allocated now
      (s.handleOpenExtendedMiningChannel d msg allocated now) := by
  unfold handleOpenExtendedMiningChannel
  split
  · exact .failed ⟨_, rfl⟩ rfl
  · rename_i ds hds
    split
    · exact .refusedEarly _ rfl
    · rename_i hstandard
      split
      · exact .refusedEarly _ rfl
      · rename_i extranoncePrefix
        split
        · exact .refusedEarly _ rfl
        · exact .refusedEarly _ rfl
        · rename_i payout mode hpayout hmode
          dsimp only
          split
          · rename_i code hnew
            exact .refusedLate hds ⟨rfl, hmode, ⟨payout, hpayout, nofun⟩,
              Bool.eq_false_iff.mpr hstandard⟩ hnew rfl
          · exact .failed ⟨_, rfl⟩ rfl
          · rename_i new hnew
            split
            · exact .failed ⟨_, rfl⟩ rfl
            · exact .failed ⟨_, rfl⟩ rfl
            · rename_i m t hm ht
              split
              · split
                · exact .failed ⟨_, rfl⟩ rfl
                · exact .opened rfl ⟨[], _, rfl, rfl⟩
              · split
                · exact .failed ⟨_, rfl⟩ rfl
                · rename_i outputs houtputs
                  split
                  · exact .failed ⟨_, rfl⟩ rfl
                  · rename_i job ch hfirst
                    split
                    · exact .failed ⟨_, rfl⟩ rfl
                    · have hlast := openingNotes_last s d .extended msg.requestId
                        ds.channelIdFactory (env.channels.groupChannelId ds.group) payout t m
                        outputs now new job
                      obtain ⟨notes, x, hnotes, hx⟩ := hlast
                      exact .opened rfl ⟨notes, x, congrArg (s.history ++ ·) hnotes, hx⟩

theorem openCase (s : ChannelManager env.channels) (k : ChannelKind) (d : DownstreamId)
    (msg : OpenMiningChannel) (allocated : Except String Bytes) (now : UInt64) :
    OpenCase s k d msg allocated now (s.handleOpen k d msg allocated now) := by
  cases k with
  | standard => exact openCase_standard s d msg allocated now
  | extended => exact openCase_extended s d msg allocated now

/-- An open that the constructor refuses is refused with the code of the constructor. -/
theorem handleOpen_of_refused {s : ChannelManager env.channels} {k : ChannelKind}
    {d : DownstreamId} {msg : OpenMiningChannel} {allocated : Except String Bytes} {now : UInt64}
    {ds : Downstream env.channels} {mode : PayoutMode} {extranoncePrefix : Bytes} {code : String}
    (hds : s.downstreams.lookup d = some ds)
    (hreaches : s.ReachesConstructor k ds msg allocated now mode extranoncePrefix)
    (hnew : env.channels.newChannel k ds.channelIdFactory msg extranoncePrefix =
      .error (.openChannel code)) :
    s.handleOpen k d msg allocated now =
      ((s.setDownstream d (counted ds mode)).refusal d msg (.channel code), none) := by
  obtain ⟨rfl, hmode, ⟨payout, hpayout, hstandard⟩, hsupported⟩ := hreaches
  cases k with
  | standard =>
      obtain ⟨t, m, outputs, ht, hm, houtputs⟩ := hstandard rfl
      simp only [ChannelsSv2.newChannel] at hnew hsupported
      simp only [handleOpen, handleOpenStandardMiningChannel, hds,
        if_neg (Bool.eq_false_iff.mp hsupported), ht, hm, hpayout, hmode, houtputs, hnew]
      rfl
  | extended =>
      simp only [ChannelsSv2.newChannel] at hnew hsupported
      simp only [handleOpen, handleOpenExtendedMiningChannel, hds,
        if_neg (Bool.eq_false_iff.mp hsupported), hpayout, hmode, hnew]
      rfl

end ChannelManager

/-! ### What a refused open leaves -/

namespace WithVardiff

open ChannelManager

/-- The open was answered with `OpenMiningChannelError`. -/
def Refused (s s' : WithVardiff env.channels V) (d : DownstreamId) (msg : OpenMiningChannel) :
    Prop :=
  ∃ code, s'.manager.history =
    s.manager.history ++ [.sent ⟨d, .openMiningChannelError msg.requestId code, []⟩]

/-- What the pool keeps of the connection `d` and of its channels is as before. -/
structure Unchanged (s s' : WithVardiff env.channels V) (d : DownstreamId) : Prop where
  payoutMode : (s'.manager.downstreams.lookup d).map (·.payoutMode) =
    (s.manager.downstreams.lookup d).map (·.payoutMode)
  channels : (s'.manager.downstreams.lookup d).map (·.channels) =
    (s.manager.downstreams.lookup d).map (·.channels)
  group : (s'.manager.downstreams.lookup d).map (·.group) =
    (s.manager.downstreams.lookup d).map (·.group)
  gridpoolChannels : s'.manager.gridpoolChannels = s.manager.gridpoolChannels
  vardiff : s'.vardiff = s.vardiff

/-- The constructor refuses the channel, and the identity names another mode than the one the
connection has. -/
def SwitchesMode (s : WithVardiff env.channels V) (k : ChannelKind) (d : DownstreamId)
    (msg : OpenMiningChannel) (allocated : Except String Bytes) (now : UInt64) : Prop :=
  ∃ ds mode extranoncePrefix code, s.manager.downstreams.lookup d = some ds ∧
    s.manager.ReachesConstructor k ds msg allocated now mode extranoncePrefix ∧
    env.channels.newChannel k ds.channelIdFactory msg extranoncePrefix =
      .error (.openChannel code) ∧
    ds.payoutMode ≠ some mode

section Ends

variable (newVardiff : Except String V) (s : WithVardiff env.channels V) (d : DownstreamId)
  {r : ChannelManager env.channels × Option PoolError}

/-- A refusal leaves `vardiff` as it was. -/
theorem insertVardiff_refusal (s' : ChannelManager env.channels) (msg : OpenMiningChannel)
    (code : OpenErrorCode) :
    s.insertVardiff newVardiff d (s'.refusal d msg code, none) =
      (⟨s'.refusal d msg code, s.vardiff⟩, none) := by
  have hlast : (s'.refusal d msg code).history.getLast?.any Note.refuses = true := by
    simp [refusal, reply, note, Note.refuses]
  unfold insertVardiff
  dsimp only
  split
  · rw [if_pos hlast]
  · rfl

/-- The messages after a handler that failed. -/
theorem insertVardiff_history_of_failed (herror : ∃ e, r.2 = some e) :
    (s.insertVardiff newVardiff d r).1.manager.history = r.1.history := by
  obtain ⟨e, he⟩ := herror
  unfold insertVardiff
  split
  · rename_i hnone _
    cases he.symm.trans hnone
  · rfl

/-- The messages after a handler that opened a channel: all of them, or none. -/
theorem insertVardiff_history_of_opened (hlast : r.1.history.getLast?.any Note.refuses = false) :
    (s.insertVardiff newVardiff d r).1.manager.history = r.1.history ∨
      (s.insertVardiff newVardiff d r).1.manager.history = s.manager.history := by
  unfold insertVardiff
  split
  · rw [if_neg (Bool.eq_false_iff.mp hlast)]
    split
    · exact .inl rfl
    · exact .inr rfl
  · exact .inl rfl

end Ends

/-- Without a message, an open is not refused. -/
theorem not_refused_of_silent {s s' : WithVardiff env.channels V}
    (h : s'.manager.history = s.manager.history) (d : DownstreamId) (msg : OpenMiningChannel) :
    ¬ Refused s s' d msg := by
  intro hrefused
  obtain ⟨code, hcode⟩ := hrefused
  have hlength := congrArg List.length (h.symm.trans hcode)
  rw [List.length_append, List.length_singleton] at hlength
  omega

/-- Nor is it with a last message that is none of the refusals. -/
theorem not_refused_of_last {s s' : WithVardiff env.channels V}
    (hlast : s'.manager.history.getLast?.any Note.refuses = false) (d : DownstreamId)
    (msg : OpenMiningChannel) : ¬ Refused s s' d msg := by
  intro hrefused
  obtain ⟨code, hcode⟩ := hrefused
  rw [hcode] at hlast
  simp [Note.refuses] at hlast

/-- For every state, kind of channel and request, whatever the extranonce allocator, the clock and
`VardiffState::new` answer: if the open is refused, the connection and the maps are as before,
exactly if the constructor does not refuse a channel whose identity names another payout mode. -/
theorem refusal_unchanged_iff (newVardiff : Except String V) (s : WithVardiff env.channels V)
    (k : ChannelKind) (d : DownstreamId) (msg : OpenMiningChannel)
    (allocated : Except String Bytes) (now : UInt64) :
    (Refused s (s.openChannel newVardiff k d msg allocated now).1 d msg →
        Unchanged s (s.openChannel newVardiff k d msg allocated now).1 d) ↔
      ¬ SwitchesMode s k d msg allocated now := by
  unfold openChannel
  constructor
  · intro hunchanged hswitches
    obtain ⟨ds, mode, extranoncePrefix, code, hds, hreaches, hnew, hother⟩ := hswitches
    rw [handleOpen_of_refused hds hreaches hnew, insertVardiff_refusal] at hunchanged
    have hmode := (hunchanged ⟨_, rfl⟩).payoutMode
    simp only [refusal, reply, note, setDownstream, AList.lookup_insert, Option.map_some, counted,
      hds] at hmode
    exact hother (Option.some.inj hmode).symm
  · intro hno hrefused
    have hcase := openCase s.manager k d msg allocated now
    generalize s.manager.handleOpen k d msg allocated now = r at hcase hrefused ⊢
    cases hcase with
    | refusedEarly code h =>
        rw [h, insertVardiff_refusal]
        exact ⟨rfl, rfl, rfl, rfl, rfl⟩
    | refusedLate hds hreaches hnew h =>
        rename_i ds mode extranoncePrefix code
        -- the mode is written before the constructor is called, and it is the one that was there
        have hsame : ds.payoutMode = some mode := by
          by_contra hother
          exact hno ⟨ds, mode, extranoncePrefix, code, hds, hreaches, hnew, hother⟩
        rw [h, insertVardiff_refusal]
        refine ⟨?_, ?_, ?_, rfl, rfl⟩
        · simp [refusal, reply, note, setDownstream, counted, hds, hsame]
        · simp [refusal, reply, note, setDownstream, counted, hds]
        · simp [refusal, reply, note, setDownstream, counted, hds]
    | failed herror hhistory =>
        have hsilent := (insertVardiff_history_of_failed newVardiff s d herror).trans hhistory
        exact absurd hrefused (not_refused_of_silent hsilent d msg)
    | opened herror hhistory =>
        obtain ⟨notes, x, hnotes, hx⟩ := hhistory
        -- without a vardiff state, the messages are lost with the channel
        have hlast : r.1.history.getLast?.any Note.refuses = false := by
          rw [hnotes, ← List.append_assoc]
          simp [hx]
        rcases insertVardiff_history_of_opened newVardiff s d hlast with hsent | hsilent
        · exact absurd hrefused (not_refused_of_last (hsent ▸ hlast) d msg)
        · exact absurd hrefused (not_refused_of_silent hsilent d msg)

/-! ### A refused open on a connection with a channel -/

/-- Channels that refuse a negative nominal hashrate, an `f32` with its sign bit. -/
def checkedChannels : ChannelsSv2 :=
  { Reference.channels with
    newStandard := fun c msg extranoncePrefix =>
      if 0x80000000 < msg.nominalHashRate then .error (.openChannel "invalid-nominal-hashrate")
      else Reference.channels.newStandard c msg extranoncePrefix
    newExtended := fun c msg extranoncePrefix =>
      if 0x80000000 < msg.nominalHashRate then .error (.openChannel "invalid-nominal-hashrate")
      else Reference.channels.newExtended c msg extranoncePrefix }

def checkedEnv : Env :=
  { Reference.env with channels := checkedChannels }

/-- A request for a solo channel of an address. -/
def soloRequest (address : Payout.Text) (nominalHashRate : UInt32) : OpenMiningChannel :=
  { Reference.openRequest with
    userIdentity := ['s', 'r', 'i', '/', 's', 'o', 'l', 'o', '/'] ++ address
    nominalHashRate := nominalHashRate }

/-- The manager of a pool without GridPool. -/
def checkedManager : ChannelManager checkedEnv.channels :=
  .initial (Reference.config none) [⟨0, Reference.operatorScript⟩]

/-- One connection with one solo channel. -/
def oneChannel : List Event :=
  [.newTemplate (Reference.template 1 true 5000000000) (fun _ => .error "unreachable")
      (fun _ _ => 0),
    .setNewPrevHash (Reference.prevHash 1 1), .connect false false,
    .openChannel .extended 1 (soloRequest Reference.fallbackAddress 0) (.ok [1, 2, 3, 4]) 0]

/-- The manager then, with the entry of the channel in `vardiff`. -/
def withOneChannel : WithVardiff checkedEnv.channels Unit where
  manager := Runs.exec ChannelManager.step checkedManager oneChannel
  vardiff := fun key => if key = (1, 2) then some () else none

/-- A second channel for another address and with the hashrate -1.0 is refused, and the connection
has its payout mode. -/
theorem refused_open_switches_mode :
    start checkedEnv (Reference.config none) 0 = .ok checkedManager ∧
      let request := soloRequest Reference.operatorAddress 0xbf800000
      let after := (withOneChannel.openChannel (.ok ()) .extended 1 request (.ok [1, 2, 3, 5]) 0).1
      Refused withOneChannel after 1 request ∧ ¬ Unchanged withOneChannel after 1 := by
  refine ⟨rfl, ⟨.channel "invalid-nominal-hashrate", by decide +kernel⟩, fun h => ?_⟩
  exact absurd h.payoutMode (by decide +kernel)

end WithVardiff

end GridPoolSv2.Pool
