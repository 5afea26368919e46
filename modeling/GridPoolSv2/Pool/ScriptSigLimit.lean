import GridPoolSv2.Pool.ShareProof
import GridPoolSv2.Pool.TemplateLoop
import Mathlib.Data.Nat.Log
import Mathlib.Order.Bounds.Basic

/-!
# Pool.ScriptSigLimit: the consensus limit of a coinbase script signature

The script signature of a job is put together from parts that different functions add: the height
and the flags of the node and a commitment to the template id (`RpcTemplate::from_gbt`), a
commitment to a refresh (`commit_gridpool_job_refresh`), the tag of the pool and the extranonce.
Each function compares the part it has with the limit of 100 bytes for the whole.

* `ScriptSigFits` says that the whole keeps the limit.
* `scriptSig_fits_iff` gives the room there is for height, flags and tag: 69 bytes, and 60 after a
  refresh.
-/

namespace GridPoolSv2.Pool

open Consensus (Bytes leBytes leBytes_length)
open Payout (Text)

/-! ### The extranonce -/

/-- `bytes_needed` of `channels_sv2`: the least number of bytes with that many values. -/
def CountsBytes (bytesNeeded : Nat → Nat) : Prop :=
  ∀ n, 1 < n → IsLeast {k | n ≤ 256 ^ k} (bytesNeeded n)

/-- `FULL_EXTRANONCE_SIZE`: a byte for the server, the index of the channel and 16 bytes for the
client. -/
def fullExtranonceSize (bytesNeeded : Nat → Nat) : Nat :=
  1 + bytesNeeded 16777216 + 16

theorem fullExtranonceSize_eq {bytesNeeded : Nat → Nat} (h : CountsBytes bytesNeeded) :
    fullExtranonceSize bytesNeeded = 20 := by
  obtain ⟨henough, hleast⟩ := h 16777216 (by decide)
  have hle : bytesNeeded 16777216 ≤ 3 := hleast (by decide : 16777216 ≤ 256 ^ 3)
  have hge : 3 ≤ bytesNeeded 16777216 := by
    by_contra hsmall
    have hpow : 256 ^ bytesNeeded 16777216 ≤ 256 ^ 2 :=
      Nat.pow_le_pow_right (by decide) (by omega)
    exact absurd (Nat.le_trans henough hpow) (by decide)
  rw [fullExtranonceSize, Nat.le_antisymm hle hge]

/-- Whatever the extranonce, the script signature is within the limit. -/
def ScriptSigFits (bytesNeeded : Nat → Nat) (coinbasePrefix tag : Bytes) : Prop :=
  ∀ extranonce : Bytes, extranonce.length = fullExtranonceSize bytesNeeded →
    (standardScriptSig coinbasePrefix tag extranonce).length ≤ 100

theorem length_standardScriptSig (coinbasePrefix tag extranonce : Bytes) :
    (standardScriptSig coinbasePrefix tag extranonce).length =
      coinbasePrefix.length + tag.length + extranonce.length + 2 := by
  simp only [standardScriptSig, List.length_append, List.length_singleton]
  omega

theorem scriptSigFits_iff {bytesNeeded : Nat → Nat} (h : CountsBytes bytesNeeded)
    {coinbasePrefix tag : Bytes} :
    ScriptSigFits bytesNeeded coinbasePrefix tag ↔ coinbasePrefix.length + tag.length ≤ 78 := by
  unfold ScriptSigFits
  rw [fullExtranonceSize_eq h]
  constructor
  · intro hfits
    have hzeros := hfits (List.replicate 20 0) List.length_replicate
    rw [length_standardScriptSig, List.length_replicate] at hzeros
    omega
  · intro hle extranonce hlength
    rw [length_standardScriptSig, hlength]
    omega

/-! ### The prefix of a template -/

theorem length_hexPairs : ∀ {text : Text} {bytes : Bytes}, hexPairs text = some bytes →
    bytes.length = text.length / 2
  | [], bytes, h => by
      obtain rfl : [] = bytes := Option.some.inj h
      rfl
  | [_], bytes, h => by
      obtain rfl : [] = bytes := Option.some.inj h
      simp
  | hi :: lo :: rest, bytes, h => by
      rw [hexPairs] at h
      split at h
      · rename_i hrest
        obtain rfl := Option.some.inj h
        rw [List.length_cons, length_hexPairs hrest, List.length_cons, List.length_cons]
        omega
      · cases h

theorem length_hexDecode {text : Text} {bytes : Bytes} (h : hexDecode text = .ok bytes) :
    bytes.length = text.length / 2 := by
  unfold hexDecode at h
  split at h
  · cases h
  · split at h
    · rename_i hpairs
      cases h
      exact length_hexPairs hpairs
    · cases h

namespace GbtAnswer

/-- The bytes of the height and the flags of an answer. -/
def heightAndFlags (a : GbtAnswer) : Nat :=
  (pushInt a.height.toInt64.toInt).length + a.flags.length / 2

/-- The script of the answer has the height and the flags. -/
theorem length_coinbaseScript {a : GbtAnswer} {script : Bytes} (h : a.coinbaseScript = .ok script) :
    script.length = a.heightAndFlags := by
  unfold coinbaseScript at h
  unfold heightAndFlags
  split at h
  · rename_i hempty
    cases h
    rw [hempty]
    rfl
  · split at h
    · cases h
    · rename_i flags hflags
      cases h
      rw [List.length_append, length_hexDecode hflags]

theorem checked_coinbaseScript {a : GbtAnswer} {constraints : CoinbaseOutputConstraints}
    {g : GetBlockTemplate} (h : a.checked constraints = .ok g) :
    a.coinbaseScript = .ok g.coinbaseScript := by
  unfold checked at h
  split at h
  · cases h
  · split at h
    · cases h
    · split at h
      · cases h
      · split at h
        · cases h
        · rename_i script hscript
          cases h
          exact hscript

/-- The prefix of the template made of an answer. -/
theorem length_coinbasePrefix {a : GbtAnswer} {constraints : CoinbaseOutputConstraints}
    {id : TemplateId} {t : RpcTemplate}
    (h : RpcTemplate.fromGbt id (a.checked constraints) = .ok t) :
    t.coinbasePrefix.length = a.heightAndFlags + 9 := by
  cases hchecked : a.checked constraints with
  | error e =>
      rw [hchecked] at h
      cases h
  | ok g =>
      rw [hchecked] at h
      simp only [RpcTemplate.fromGbt] at h
      split at h
      · cases h
      · cases h
        simp only [List.length_append, List.length_singleton, leBytes_length,
          length_coinbaseScript (checked_coinbaseScript hchecked)]

end GbtAnswer

/-! ### The refresh -/

/-- `commit_gridpool_job_refresh`, with the template that the caller has afterwards. -/
def commitGridpoolJobRefreshMut (template : NewTemplate) (refreshId : UInt64) :
    NewTemplate × Except PoolErrorKind Unit :=
  let coinbasePrefix := template.coinbasePrefix ++ [8] ++ leBytes 8 refreshId.toNat
  if 100 < coinbasePrefix.length then
    (template,
      .error (.configuration "GridPool fee job coinbase prefix exceeds consensus limit"))
  else if 255 < coinbasePrefix.length then
    (template, .error (.configuration "GridPool fee job coinbase prefix exceeds B0255"))
  else ({ template with coinbasePrefix := coinbasePrefix }, .ok ())

/-- What the fee tick goes on with. The second error cannot happen. -/
theorem commitGridpoolJobRefresh_eq (template : NewTemplate) (refreshId : UInt64) :
    ChannelManager.commitGridpoolJobRefresh template refreshId =
      match commitGridpoolJobRefreshMut template refreshId with
      | (t, .ok ()) => .ok t
      | (_, .error e) => .error e := by
  unfold ChannelManager.commitGridpoolJobRefresh commitGridpoolJobRefreshMut
  dsimp only
  split
  · rfl
  · rw [if_neg (by omega)]

/-- A refresh that fails leaves the template as it was. -/
theorem refresh_error {template t : NewTemplate} {refreshId : UInt64} {e : PoolErrorKind}
    (h : commitGridpoolJobRefreshMut template refreshId = (t, .error e)) : t = template := by
  unfold commitGridpoolJobRefreshMut at h
  dsimp only at h
  split at h
  · cases h
    rfl
  · split at h
    · cases h
      rfl
    · cases h

theorem refresh_ok {template t : NewTemplate} {refreshId : UInt64}
    (h : commitGridpoolJobRefreshMut template refreshId = (t, .ok ())) :
    t.coinbasePrefix.length = template.coinbasePrefix.length + 9 := by
  unfold commitGridpoolJobRefreshMut at h
  dsimp only at h
  split at h
  · cases h
  · split at h
    · cases h
    · cases h
      simp only [List.length_append, List.length_singleton, leBytes_length]

/-- A short prefix has room for the refresh. -/
theorem exists_refresh {template : NewTemplate} (refreshId : UInt64)
    (h : template.coinbasePrefix.length ≤ 91) :
    ∃ t, commitGridpoolJobRefreshMut template refreshId = (t, .ok ()) := by
  have hlength : (template.coinbasePrefix ++ [8] ++ leBytes 8 refreshId.toNat).length ≤ 100 := by
    simp only [List.length_append, List.length_singleton, leBytes_length]
    omega
  have hshort : ¬ 255 < (template.coinbasePrefix ++ [8] ++ leBytes 8 refreshId.toNat).length := by
    omega
  unfold commitGridpoolJobRefreshMut
  simp only [if_neg (Nat.not_lt.mpr hlength), if_neg hshort]
  exact ⟨_, rfl⟩

/-! ### The room that is left -/

/-- The jobs of a template, and those of the template after a refresh, have script signatures within
the limit. -/
def JobsFit (bytesNeeded : Nat → Nat) (t : RpcTemplate) (tag : Bytes) : Prop :=
  ScriptSigFits bytesNeeded t.coinbasePrefix tag ∧
    ∀ futureTemplate refreshId refreshed,
      commitGridpoolJobRefreshMut (t.newTemplate futureTemplate) refreshId = (refreshed, .ok ()) →
        ScriptSigFits bytesNeeded refreshed.coinbasePrefix tag

theorem jobsFit_iff {bytesNeeded : Nat → Nat} (h : CountsBytes bytesNeeded) {t : RpcTemplate}
    {tag : Bytes} :
    JobsFit bytesNeeded t tag ↔ t.coinbasePrefix.length + tag.length ≤ 69 := by
  unfold JobsFit
  rw [scriptSigFits_iff h]
  constructor
  · intro hfits
    have hroom : (t.newTemplate false).coinbasePrefix.length ≤ 91 := by
      have hfresh : t.coinbasePrefix.length + tag.length ≤ 78 := hfits.1
      exact (by omega : t.coinbasePrefix.length ≤ 91)
    obtain ⟨refreshed, hrefresh⟩ := exists_refresh 0 hroom
    have hafter := (scriptSigFits_iff h).mp (hfits.2 false 0 refreshed hrefresh)
    have hlength : refreshed.coinbasePrefix.length = t.coinbasePrefix.length + 9 :=
      refresh_ok hrefresh
    omega
  · intro hle
    refine ⟨by omega, ?_⟩
    intro futureTemplate refreshId refreshed hrefresh
    have hlength : refreshed.coinbasePrefix.length = t.coinbasePrefix.length + 9 :=
      refresh_ok hrefresh
    rw [scriptSigFits_iff h]
    omega

/-- For every answer that becomes a template, and every tag: the script signatures of the jobs built
from the template are within the limit exactly if height, flags and tag have at most 69 bytes, and
those after a refresh exactly if they have at most 60. A refresh that fails leaves any template as
it was. -/
theorem scriptSig_fits_iff {bytesNeeded : Nat → Nat} (hbytes : CountsBytes bytesNeeded)
    {a : GbtAnswer} {constraints : CoinbaseOutputConstraints} {id : TemplateId} {t : RpcTemplate}
    (h : RpcTemplate.fromGbt id (a.checked constraints) = .ok t) (poolTag : Text) :
    (ScriptSigFits bytesNeeded t.coinbasePrefix (poolMinerTag poolTag []) ↔
        a.heightAndFlags + (poolMinerTag poolTag []).length ≤ 69) ∧
      (JobsFit bytesNeeded t (poolMinerTag poolTag []) ↔
        a.heightAndFlags + (poolMinerTag poolTag []).length ≤ 60) ∧
      ∀ template refreshId unchanged e,
        commitGridpoolJobRefreshMut template refreshId = (unchanged, .error e) →
          unchanged = template := by
  have hlength := GbtAnswer.length_coinbasePrefix h
  refine ⟨?_, ?_, fun _ _ _ _ herror => refresh_error herror⟩
  · rw [scriptSigFits_iff hbytes]
    omega
  · rw [jobsFit_iff hbytes]
    omega

/-! ### A tag that is too long -/

theorem clog_countsBytes : CountsBytes (Nat.clog 256) := by
  intro n _
  refine ⟨Nat.le_pow_clog (by decide) n, ?_⟩
  intro k hk
  exact Nat.clog_le_of_le_pow hk

/-- A signature that gives the longest tag which can be proved. -/
def longSignature : Text :=
  List.replicate 58 'g'

theorem heightAndFlags_sample : (sampleAnswer '7' [] "a").heightAndFlags = 4 := by
  decide

theorem length_longTag : (poolMinerTag longSignature []).length = 61 := by
  decide

/-- The template of an answer for height 200000 without flags. -/
theorem exists_sampleTemplate :
    ∃ t, RpcTemplate.fromGbt 1 ((sampleAnswer '7' [] "a").checked ⟨1024, 4⟩) = .ok t := by
  rw [GbtAnswer.exists_fromGbt_iff]
  decide

/-- An answer and a tag that fit, and leave no room for a refresh. -/
theorem scriptSig_fits_iff_sample :
    ∃ t, RpcTemplate.fromGbt 1 ((sampleAnswer '7' [] "a").checked ⟨1024, 4⟩) = .ok t ∧
      ScriptSigFits (Nat.clog 256) t.coinbasePrefix (poolMinerTag longSignature []) ∧
      ¬ JobsFit (Nat.clog 256) t (poolMinerTag longSignature []) := by
  obtain ⟨t, ht⟩ := exists_sampleTemplate
  obtain ⟨hfits, hjobs, -⟩ := scriptSig_fits_iff clog_countsBytes ht longSignature
  rw [heightAndFlags_sample, length_longTag] at hfits hjobs
  exact ⟨t, ht, hfits.mpr (by decide), fun h => absurd (hjobs.mp h) (by decide)⟩

/-- After a refresh that succeeds the script signature has 105 bytes. -/
theorem refreshed_scriptSig_too_long :
    ∃ t refreshed,
      RpcTemplate.fromGbt 1 ((sampleAnswer '7' [] "a").checked ⟨1024, 4⟩) = .ok t ∧
      commitGridpoolJobRefreshMut (t.newTemplate true) 1700000000 = (refreshed, .ok ()) ∧
      (poolMinerTag longSignature []).length ≤ 61 ∧
      fullExtranonceSize (Nat.clog 256) = 20 ∧
      (standardScriptSig refreshed.coinbasePrefix (poolMinerTag longSignature [])
        (List.replicate 20 0)).length = 105 := by
  obtain ⟨t, ht⟩ := exists_sampleTemplate
  have hlength := GbtAnswer.length_coinbasePrefix ht
  rw [heightAndFlags_sample] at hlength
  have hroom : (t.newTemplate true).coinbasePrefix.length ≤ 91 := hlength.trans_le (by decide)
  obtain ⟨refreshed, hrefresh⟩ := exists_refresh 1700000000 hroom
  have hafter : refreshed.coinbasePrefix.length = t.coinbasePrefix.length + 9 := refresh_ok hrefresh
  refine ⟨t, refreshed, ht, hrefresh, length_longTag.le, fullExtranonceSize_eq clog_countsBytes, ?_⟩
  rw [length_standardScriptSig, length_longTag, List.length_replicate, hafter, hlength]

end GridPoolSv2.Pool
