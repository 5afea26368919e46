import GridPoolSv2.Pool.Identities
import GridPoolSv2.Translator.Tproxy

/-!
# Translator.UserIdentity: the identity the upstream is given

The configured `user_identity` is rewritten twice. The `Sv1Server` adds the number of the miner
(`minerIdentity`), and in aggregated mode the channel manager cuts the result at its first dot and
adds a suffix of its own (`translatorIdentity`). Identities that begin with `sri/` are left alone,
since their last field is part of what `PayoutMode::try_from` reads.

* `ParsesAlike` says that two identities name the same payout mode, or both none.
* `identity_kept_iff` says when the rewriting keeps that and gives a `Str0255` again.
-/

namespace GridPoolSv2.Translator

open Consensus (Bytes)
open Payout (Text PayoutMode PayoutModeError upTo)
open Pool (EndsField upTo_append eq_upTo_append splitOn_eq_cons_cons)
open ChannelManager (translatorIdentity)

/-! ### The configuration -/

/-- `MissingMinerPayoutMode`. -/
inductive MissingMinerPayoutMode where
  | fullDonation
  | noPayoutMode
  deriving Repr, DecidableEq

/-- The errors of `expected_payout_distribution`. -/
inductive PayoutSettingError where
  | missingMinerPayout (userIdentity : Text) (mode : MissingMinerPayoutMode)
  | payoutMode (e : PayoutModeError)
  deriving Repr, DecidableEq

/-- `TranslatorConfig::expected_payout_distribution`; the translator does not start when it
fails. -/
def expectedPayoutDistribution (scriptFromAddress : Text → Except String Bytes)
    (verifyPayout : Bool) (userIdentity : Text) : Except PayoutSettingError (Option PayoutMode) :=
  if !verifyPayout then .ok none
  else
    match PayoutMode.ofUserIdentity scriptFromAddress userIdentity with
    | .ok .fullDonation => .error (.missingMinerPayout userIdentity .fullDonation)
    | .ok mode => .ok (some mode)
    | .error (.noPayoutMode _) => .error (.missingMinerPayout userIdentity .noPayoutMode)
    | .error e => .error (.payoutMode e)

/-! ### Payout modes of rewritten identities -/

/-- The two identities name the same payout mode or have the same error, or neither names one. -/
def ParsesAlike (scriptFromAddress : Text → Except String Bytes) (a b : Text) : Prop :=
  PayoutMode.ofUserIdentity scriptFromAddress a = PayoutMode.ofUserIdentity scriptFromAddress b ∨
    ∃ x y, PayoutMode.ofUserIdentity scriptFromAddress a = .error (.noPayoutMode x) ∧
      PayoutMode.ofUserIdentity scriptFromAddress b = .error (.noPayoutMode y)

section Rewriting

variable {scriptFromAddress : Text → Except String Bytes} {identity : Text}

/-- `starts_with("sri/")`. -/
def StartsSri (identity : Text) : Prop :=
  "sri/".toList.isPrefixOf identity = true

instance (identity : Text) : Decidable (StartsSri identity) :=
  inferInstanceAs (Decidable (_ = true))

theorem startsSri_iff : StartsSri identity ↔ "sri/".toList <+: identity :=
  List.isPrefixOf_iff_prefix

variable (scriptFromAddress) in
/-- Outside the slash forms only the part before the first dot is read. -/
theorem ofUserIdentity_of_not_sri (h : ¬ StartsSri identity) :
    (∃ script, scriptFromAddress (upTo '.' identity) = .ok script ∧ identity ≠ [] ∧
        PayoutMode.ofUserIdentity scriptFromAddress identity =
          .ok (.legacySolo (String.ofList (upTo '.' identity)) script)) ∨
      (identity = [] ∨ ∀ script, scriptFromAddress (upTo '.' identity) ≠ .ok script) ∧
        PayoutMode.ofUserIdentity scriptFromAddress identity = .error (.noPayoutMode identity) := by
  unfold PayoutMode.ofUserIdentity
  by_cases hempty : identity = []
  · refine .inr ⟨.inl hempty, ?_⟩
    rw [hempty]
    rfl
  rw [if_neg (by simpa using hempty)]
  dsimp only
  cases hscript : scriptFromAddress (upTo '.' identity) with
  | ok script => exact .inl ⟨script, rfl, hempty, rfl⟩
  | error e =>
      refine .inr ⟨.inr fun _ => nofun, ?_⟩
      dsimp only
      split
      · rename_i first second rest hsplit
        refine if_pos ?_
        rintro rfl
        obtain ⟨tail, rfl, -⟩ := splitOn_eq_cons_cons hsplit
        exact h (startsSri_iff.mpr ⟨tail, by simp⟩)
      · rfl

/-- The same part before the first dot, and none of the two a slash form. -/
theorem parsesAlike_of_upTo {a b : Text} (hempty : ∀ script, scriptFromAddress [] ≠ .ok script)
    (ha : ¬ StartsSri a) (hb : ¬ StartsSri b) (hsame : upTo '.' a = upTo '.' b) :
    ParsesAlike scriptFromAddress a b := by
  have hnil : ∀ {t : Text} {script}, scriptFromAddress (upTo '.' t) = .ok script → t ≠ [] := by
    rintro t script hscript rfl
    exact hempty script hscript
  rcases ofUserIdentity_of_not_sri scriptFromAddress ha with ⟨script, hscript, -,
    hparse⟩ | ⟨hnone, hparse⟩
  · rcases ofUserIdentity_of_not_sri scriptFromAddress hb with ⟨script', hscript', -,
      hparse'⟩ | ⟨hnone', hparse'⟩
    · rw [hsame, hscript'] at hscript
      cases hscript
      exact .inl (by rw [hparse, hparse', hsame])
    · rw [hsame] at hscript
      rcases hnone' with hzero | hnone'
      · exact absurd hzero (hnil hscript)
      · exact absurd hscript (hnone' script)
  · rcases ofUserIdentity_of_not_sri scriptFromAddress hb with ⟨script', hscript', -, hparse'⟩ | ⟨-,
      hparse'⟩
    · rw [← hsame] at hscript'
      rcases hnone with hzero | hnone
      · exact absurd hzero (hnil hscript')
      · exact absurd hscript' (hnone script')
    · exact .inr ⟨a, b, hparse, hparse'⟩

/-- A part up to a dot with a suffix that begins with one. -/
theorem upTo_suffixed (identity more : Text) :
    upTo '.' (upTo '.' identity ++ '.' :: more) = upTo '.' identity := by
  refine upTo_append ?_ ?_
  · intro hmem
    have hne := List.mem_takeWhile_imp hmem
    simp at hne
  · intro c hc
    exact (Option.some.inj hc).symm

/-- A suffix behind the whole identity changes nothing before its first dot. -/
theorem upTo_extended (identity more : Text) :
    upTo '.' (identity ++ '.' :: more) = upTo '.' identity := by
  obtain ⟨rest, hrest, hends⟩ := eq_upTo_append '.' identity
  have hwhole : identity ++ '.' :: more = upTo '.' identity ++ (rest ++ '.' :: more) := by
    rw [← List.append_assoc, ← hrest]
  rw [hwhole]
  refine upTo_append ?_ ?_
  · intro hmem
    have hne := List.mem_takeWhile_imp hmem
    simp at hne
  · intro c hc
    cases rest with
    | nil => exact (Option.some.inj hc).symm
    | cons x rest => exact hends c hc

/-- `sri/` has no dot, so that it is not completed by a suffix. -/
theorem not_sri_extended (h : ¬ StartsSri identity) (more : Text) :
    ¬ StartsSri (identity ++ '.' :: more) := by
  rw [startsSri_iff] at h ⊢
  intro hpre
  rcases List.prefix_or_prefix_of_prefix hpre (List.prefix_append identity _) with hlong | hshort
  · exact h hlong
  · -- the identity ends inside `sri/`, and the dot comes next
    obtain ⟨tail, htail⟩ := hshort
    rw [← htail, List.prefix_append_right_inj] at hpre
    cases tail with
    | nil =>
        rw [List.append_nil] at htail
        exact h (by rw [htail])
    | cons c tail =>
        obtain ⟨rfl, -⟩ := List.cons_prefix_cons.mp hpre
        have hmem : '.' ∈ "sri/".toList := by
          rw [← htail]
          simp
        exact absurd hmem (by decide)

end Rewriting

/-! ### The identity on its way to the upstream -/

/-- The UTF-8 bytes of a text. -/
def utf8Length (text : Text) : Nat :=
  (text.map Char.utf8Size).sum

/-- The conversion to a `Str0255` succeeds. -/
def FitsStr0255 (text : Text) : Prop :=
  utf8Length text ≤ 255

instance (text : Text) : Decidable (FitsStr0255 text) :=
  inferInstanceAs (Decidable (_ ≤ _))

theorem utf8Length_append (a b : Text) : utf8Length (a ++ b) = utf8Length a + utf8Length b := by
  simp [utf8Length]

/-- A request for a channel reaches the channel manager: its identity can be converted again where
that is done, and every identity that is sent to the upstream parses like the configured one. -/
structure IdentityKept {api : ChannelsSv2} (scriptFromAddress : Text → Except String Bytes)
    (configured : Text) (manager : ChannelManager api) (m : OpenExtendedMiningChannel) : Prop where
  converts : manager.mode = .aggregated → manager.aggregatedChannelState = .noChannel →
    manager.handleOpenExtendedMiningChannel m ≠ .error .panic
  sent : ∀ h, manager.handleOpenExtendedMiningChannel m = .ok h → ∀ m',
    .openExtendedMiningChannel m' ∈ h.toUpstream →
      ParsesAlike scriptFromAddress m'.userIdentity configured

/-- Where the identity is cut and extended, the part before its first dot has at most 238 bytes; a
longer one is only harmless if the identity of the miner is too long already. -/
def StaysShort (mode : TproxyMode) (identity : Text) (minerId : UInt32) : Prop :=
  mode = .aggregated → ¬ StartsSri identity →
    FitsStr0255 (Tproxy.minerIdentity identity minerId) → utf8Length (upTo '.' identity) ≤ 238

section Identities

variable {identity : Text} {minerId : UInt32}

theorem minerIdentity_of_sri (h : StartsSri identity) :
    Tproxy.minerIdentity identity minerId = identity :=
  if_pos h

theorem minerIdentity_of_not_sri (h : ¬ StartsSri identity) :
    ∃ more, Tproxy.minerIdentity identity minerId = identity ++ '.' :: more :=
  ⟨"miner".toList ++ decimal minerId, (if_neg h).trans (List.append_assoc ..)⟩

/-- The identity in aggregated mode, for both kinds. -/
theorem translatorIdentity_minerIdentity :
    StartsSri identity ∧
        translatorIdentity (Tproxy.minerIdentity identity minerId) = identity ∨
      ¬ StartsSri identity ∧
        translatorIdentity (Tproxy.minerIdentity identity minerId) =
          upTo '.' identity ++ ".translator-proxy".toList := by
  by_cases hsri : StartsSri identity
  · rw [minerIdentity_of_sri hsri]
    exact .inl ⟨hsri, if_pos hsri⟩
  · obtain ⟨more, hmore⟩ := @minerIdentity_of_not_sri identity minerId hsri
    have hcut := upTo_extended identity more
    rw [hmore]
    refine .inr ⟨hsri, (if_neg (not_sri_extended hsri more)).trans ?_⟩
    rw [← hcut]
    rfl

theorem parsesAlike_minerIdentity {scriptFromAddress : Text → Except String Bytes}
    (hempty : ∀ script, scriptFromAddress [] ≠ .ok script) :
    ParsesAlike scriptFromAddress (Tproxy.minerIdentity identity minerId) identity := by
  by_cases hsri : StartsSri identity
  · rw [minerIdentity_of_sri hsri]
    exact .inl rfl
  · obtain ⟨more, hmore⟩ := @minerIdentity_of_not_sri identity minerId hsri
    rw [hmore]
    exact parsesAlike_of_upTo hempty (not_sri_extended hsri more) hsri (upTo_extended identity more)

theorem parsesAlike_translatorIdentity {scriptFromAddress : Text → Except String Bytes}
    (hempty : ∀ script, scriptFromAddress [] ≠ .ok script) :
    ParsesAlike scriptFromAddress (translatorIdentity (Tproxy.minerIdentity identity minerId))
      identity := by
  rcases @translatorIdentity_minerIdentity identity minerId with ⟨-, heq⟩ | ⟨hsri, heq⟩
  · rw [heq]
    exact .inl rfl
  · have hpart : ¬ StartsSri (upTo '.' identity) := by
      obtain ⟨rest, hrest, -⟩ := eq_upTo_append '.' identity
      rw [startsSri_iff] at hsri ⊢
      intro hpre
      exact hsri (hpre.trans ⟨rest, hrest.symm⟩)
    rw [heq]
    exact parsesAlike_of_upTo hempty (not_sri_extended hpart _) hsri (upTo_suffixed identity _)

/-- The suffix of the channel manager has 17 bytes. -/
theorem fits_translatorIdentity (h : FitsStr0255 (Tproxy.minerIdentity identity minerId)) :
    FitsStr0255 (translatorIdentity (Tproxy.minerIdentity identity minerId)) ↔
      StartsSri identity ∨ utf8Length (upTo '.' identity) ≤ 238 := by
  rcases @translatorIdentity_minerIdentity identity minerId with ⟨hsri, heq⟩ | ⟨hsri, heq⟩
  · rw [minerIdentity_of_sri hsri] at h
    rw [heq]
    exact iff_of_true h (.inl hsri)
  · have hsuffix : utf8Length ".translator-proxy".toList = 17 := by decide
    rw [heq, FitsStr0255, utf8Length_append, hsuffix]
    simp only [hsri, false_or]
    omega

end Identities

/-! ### The handler of the channel manager -/

section Handler

variable {api : ChannelsSv2} {s : ChannelManager api}

/-- A channel that is made here is not asked for upstream. -/
theorem join_toUpstream {requestId : RequestId} {size : Nat} {h : Handled api}
    (hh : s.handleDownstreamChannelRequestInAggregatedMode requestId size = .ok h) :
    h.toUpstream = [] := by
  unfold ChannelManager.handleDownstreamChannelRequestInAggregatedMode at hh
  dsimp only at hh
  split at hh
  · cases hh
  · split at hh
    · cases hh
      rfl
    · split at hh
      · cases hh
        rfl
      · split at hh
        · split at hh
          · cases hh
          · split at hh <;>
            · cases hh
              rfl
        · cases hh
          rfl

/-- What is sent to the upstream for a request: the request itself in non-aggregated mode, and in
aggregated mode only for the first one, with the identity of the translator. -/
theorem open_toUpstream {m m' : OpenExtendedMiningChannel} {h : Handled api}
    (hh : s.handleOpenExtendedMiningChannel m = .ok h)
    (hm' : .openExtendedMiningChannel m' ∈ h.toUpstream) :
    m'.userIdentity = m.userIdentity ∨ m'.userIdentity = translatorIdentity m.userIdentity := by
  unfold ChannelManager.handleOpenExtendedMiningChannel at hh
  dsimp only at hh
  split at hh
  · cases hh
    obtain rfl := ClientMessage.openExtendedMiningChannel.inj (List.mem_singleton.mp hm')
    exact .inl rfl
  · split at hh
    · rw [join_toUpstream hh] at hm'
      cases hm'
    · cases hh
      cases hm'
    · split at hh
      · cases hh
        obtain rfl := ClientMessage.openExtendedMiningChannel.inj (List.mem_singleton.mp hm')
        exact .inr rfl
      · cases hh

/-- The conversion fails for the first request in aggregated mode, if its new identity is too
long. -/
theorem open_panics_iff {m : OpenExtendedMiningChannel} (hmode : s.mode = .aggregated)
    (hstate : s.aggregatedChannelState = .noChannel) :
    s.handleOpenExtendedMiningChannel m = .error .panic ↔
      ¬ FitsStr0255 (translatorIdentity m.userIdentity) := by
  simp only [ChannelManager.handleOpenExtendedMiningChannel, hmode, hstate, FitsStr0255, utf8Length]
  split
  · simp [*]
  · simp [*]

end Handler

/-- For every configured identity and every number of a miner: in every state in which the request
of the miner is sent and handled, its identity is converted without a panic and parses like the
configured one, exactly if the part before the first dot stays short enough. -/
theorem identity_kept_iff {env : Env} {scriptFromAddress : Text → Except String Bytes}
    (hempty : ∀ script, scriptFromAddress [] ≠ .ok script)
    (hbuilds : ∀ identity, env.buildsOpen identity = true ↔ FitsStr0255 identity)
    (minerId : UInt32) :
    (∀ s : Tproxy env, s.minerCounter + 1 = minerId →
        env.buildsOpen s.openRequest.userIdentity = true →
        ∀ manager : ChannelManager env.channels, manager.mode = env.mode →
          IdentityKept scriptFromAddress env.userIdentity manager s.openRequest) ↔
      StaysShort env.mode env.userIdentity minerId := by
  have hidentity : ∀ s : Tproxy env, s.minerCounter + 1 = minerId →
      s.openRequest.userIdentity = Tproxy.minerIdentity env.userIdentity minerId := by
    rintro s rfl
    rfl
  constructor
  · intro h hmode hsri hfits
    -- the first request, at a manager that has no channel
    obtain ⟨s, hcounter⟩ : ∃ s : Tproxy env, s.minerCounter + 1 = minerId :=
      ⟨{ Tproxy.initial env with minerCounter := minerId - 1 }, UInt32.sub_add_cancel minerId 1⟩
    have hbuilt : env.buildsOpen s.openRequest.userIdentity = true := by
      rw [hidentity s hcounter]
      exact (hbuilds _).mpr hfits
    have hkept := h s hcounter hbuilt (ChannelManager.new env.mode none false) rfl
    have hconverts := hkept.converts hmode rfl
    rw [ne_eq, open_panics_iff hmode rfl, not_not, hidentity s hcounter,
      fits_translatorIdentity hfits] at hconverts
    exact hconverts.resolve_left hsri
  · intro h s hcounter hbuilt manager hmode
    rw [hidentity s hcounter, hbuilds] at hbuilt
    refine ⟨?_, ?_⟩
    · intro haggregated hstate
      rw [ne_eq, open_panics_iff haggregated hstate, not_not, hidentity s hcounter,
        fits_translatorIdentity hbuilt]
      by_cases hsri : StartsSri env.userIdentity
      · exact .inl hsri
      · exact .inr (h (hmode.symm.trans haggregated) hsri hbuilt)
    · intro handled hhandled m' hm'
      rcases open_toUpstream hhandled hm' with heq | heq
      · rw [heq, hidentity s hcounter]
        exact parsesAlike_minerIdentity hempty
      · rw [heq, hidentity s hcounter]
        exact parsesAlike_translatorIdentity hempty

/-- With payout verification on nothing is ever too long, as long as no address is: an accepted
identity is a slash form or begins with an address. -/
theorem staysShort_of_verified {scriptFromAddress : Text → Except String Bytes}
    (hshort : ∀ address script, scriptFromAddress address = .ok script → utf8Length address ≤ 238)
    {identity : Text} {expected : Option PayoutMode}
    (haccepted : expectedPayoutDistribution scriptFromAddress true identity = .ok expected)
    (mode : TproxyMode) (minerId : UInt32) : StaysShort mode identity minerId := by
  intro _ hsri _
  rcases ofUserIdentity_of_not_sri scriptFromAddress hsri with
    ⟨script, hscript, -, -⟩ | ⟨-, hparse⟩
  · exact hshort _ script hscript
  · simp [expectedPayoutDistribution, hparse] at haccepted

/-! ### A long identity -/

/-- A translator whose requests are built like `Str0255`s. -/
def identityEnv (mode : TproxyMode) (identity : Text) : Env :=
  { referenceEnv mode true 50 with
    userIdentity := identity
    buildsOpen := fun identity => decide (FitsStr0255 identity) }

/-- No text is an address. -/
def noAddress (_ : Text) : Except String Bytes :=
  .error "base58 error"

theorem identity_kept_iff_worker :
    IdentityKept noAddress "pool.worker".toList
      (ChannelManager.new .aggregated none false : ChannelManager referenceChannels)
      (Tproxy.initial (identityEnv .aggregated "pool.worker".toList)).openRequest := by
  have hkept := (@identity_kept_iff (identityEnv .aggregated "pool.worker".toList) noAddress
    (by simp [noAddress]) (fun _ => decide_eq_true_iff) 1).mpr (fun _ _ _ => by decide)
  exact hkept (Tproxy.initial _) rfl (by decide) (ChannelManager.new .aggregated none false) rfl

/-- 248 bytes without a dot: the request of the first miner has 255 bytes, and the one for the
upstream would have 265. -/
def longIdentity : Text :=
  List.replicate 248 'a'

theorem long_identity_panics :
    let env := identityEnv .aggregated longIdentity
    expectedPayoutDistribution noAddress false longIdentity = .ok none ∧
      env.buildsOpen (Tproxy.initial env).openRequest.userIdentity = true ∧
      (ChannelManager.new .aggregated none false :
        ChannelManager referenceChannels).handleOpenExtendedMiningChannel
          (Tproxy.initial env).openRequest = .error .panic := by
  refine ⟨rfl, by decide +kernel, ?_⟩
  rw [open_panics_iff rfl rfl]
  decide +kernel

end GridPoolSv2.Translator
