import GridPoolSv2.Lib.TxWeight
import GridPoolSv2.Payout.PayoutMode
import GridPoolSv2.Translator.Sv1Server

/-!
# Translator.PayoutVerification: what payout verification guarantees

With payout verification on, `handle_new_extended_mining_job` decodes an output vector
from the fifth byte of `coinbase_tx_suffix` and checks it against the miner's payout mode.
What the miner hashes is the whole coinbase, prefix, extranonce and suffix, whose field
boundaries the **prefix** decides: it declares how long the script signature is.

* `InputsEndInSuffix` is the condition under which the two parses read the same outputs:
  the input vector of the whole coinbase ends four bytes (the sequence) into the suffix.
* `accepted_coinbase_pays` derives from it that every decodable coinbase of an accepted job
  pays as configured.
* `inputsEndInSuffix_iff` says what the condition is for a prefix that starts a one-input
  transaction: the declared length of the script signature is the number of its bytes in
  the prefix plus the full extranonce size.
-/

namespace GridPoolSv2.Translator

open Consensus (TxOut Transaction inputsRest oneInputStart)
open GridPoolSv2.Payout

/-- The payout check of `handle_new_extended_mining_job`; without an expected payout mode every job
passes. -/
def verifyPayout (expected : Option PayoutMode) (m : NewExtendedMiningJob) :
    Except PayoutValidationError Unit :=
  match expected with
  | none => .ok ()
  | some mode => mode.validateCoinbaseTxSuffix m.coinbaseTxSuffix

/-- The coinbase a miner hashes for one extranonce. -/
def coinbaseBytes (m : NewExtendedMiningJob) (extranonce : Bytes) : Bytes :=
  m.coinbaseTxPrefix ++ extranonce ++ m.coinbaseTxSuffix

/-- Whatever the extranonce, the input vector of the coinbase ends four bytes into the suffix. -/
def InputsEndInSuffix (m : NewExtendedMiningJob) (fullExtranonceSize : Nat) : Prop :=
  ∀ extranonce : Bytes, extranonce.length = fullExtranonceSize →
    ∀ rest, inputsRest (coinbaseBytes m extranonce) = some rest → rest = m.coinbaseTxSuffix.drop 4

/-- A suffix that passes has an output vector after its sequence, and these outputs pass. -/
theorem validateCoinbaseTxSuffix_inv {mode : PayoutMode} {suf : Bytes}
    (h : mode.validateCoinbaseTxSuffix suf = .ok ()) :
    4 ≤ suf.length ∧ ∃ outputs rest,
      Consensus.decodeVec TxOut.decode (suf.drop 4) = some (outputs, rest) ∧
      mode.validateCoinbaseOutputs outputs = .ok () := by
  unfold PayoutMode.validateCoinbaseTxSuffix at h
  split at h
  · rename_i hlen
    split at h
    · cases h
    · rename_i outputs rest hdec
      have hwhole := TxOut.decodeVec_append hdec ((suf.drop 4).drop maxVecSize)
      rw [List.take_append_drop] at hwhole
      exact ⟨hlen, outputs, _, hwhole, h⟩
  · cases h

/-- For an accepted job whose input vector ends where the check assumes, every extranonce that gives
a transaction gives one whose outputs pass the check. -/
theorem accepted_coinbase_pays {mode : PayoutMode} {m : NewExtendedMiningJob}
    {fullExtranonceSize : Nat} (haccept : verifyPayout (some mode) m = .ok ())
    (hends : InputsEndInSuffix m fullExtranonceSize) :
    ∀ extranonce : Bytes, extranonce.length = fullExtranonceSize → ∀ tx rest,
      Transaction.decode (coinbaseBytes m extranonce) = some (tx, rest) →
      mode.validateCoinbaseOutputs tx.output = .ok () := by
  intro extranonce hlen tx rest hdec
  obtain ⟨_, outputs, _, hchecked, hok⟩ := validateCoinbaseTxSuffix_inv haccept
  obtain ⟨outs, _, hrest, hreal⟩ := Transaction.decode_outputs hdec
  -- both parses read the output vector at the same place, so they read the same outputs
  have hsame : outs = m.coinbaseTxSuffix.drop 4 := hends extranonce hlen outs hrest
  rw [hsame, hchecked] at hreal
  obtain ⟨rfl, _⟩ := Prod.mk.inj (Option.some.inj hreal)
  exact hok

/-- For a prefix that starts a one-input transaction, the condition is that the declared script
length counts the script bytes of the prefix and the extranonce, and nothing else. -/
theorem inputsEndInSuffix_iff {m : NewExtendedMiningJob} {version outpoint script : Bytes}
    {scriptLen fullExtranonceSize : Nat}
    (hpre : m.coinbaseTxPrefix = oneInputStart version outpoint scriptLen ++ script)
    (hv : version.length = 4) (ho : outpoint.length = 36) (hs : scriptLen < 2 ^ 64)
    (hsuffix : 4 ≤ m.coinbaseTxSuffix.length)
    (hfits : scriptLen + 4 ≤ script.length + fullExtranonceSize + m.coinbaseTxSuffix.length) :
    InputsEndInSuffix m fullExtranonceSize ↔ scriptLen = script.length + fullExtranonceSize := by
  have hrest : ∀ extranonce : Bytes, extranonce.length = fullExtranonceSize →
      inputsRest (coinbaseBytes m extranonce) =
        some ((script ++ extranonce ++ m.coinbaseTxSuffix).drop (scriptLen + 4)) := by
    intro extranonce hlen
    have happ : coinbaseBytes m extranonce =
        oneInputStart version outpoint scriptLen ++
          (script ++ extranonce ++ m.coinbaseTxSuffix) := by
      simp [coinbaseBytes, hpre]
    rw [happ]
    exact Consensus.inputsRest_oneInput hv ho hs (by simp [hlen]; omega)
  constructor
  · intro hends
    have hzero : (List.replicate fullExtranonceSize (0 : UInt8)).length = fullExtranonceSize :=
      List.length_replicate
    have hdrop := congrArg List.length (hends _ hzero _ (hrest _ hzero))
    simp only [List.length_drop, List.length_append, List.length_replicate] at hdrop
    omega
  · intro hlen extranonce hext rest h
    rw [hrest extranonce hext, Option.some.injEq] at h
    rw [← h, hlen, ← hext, ← List.length_append, List.drop_length_add_append]

/-! ### An honest job and a job that hides its outputs -/

/-- A pay-to-witness-public-key-hash script for the given key hash byte. -/
def sampleScript (b : UInt8) : Bytes :=
  0x00 :: 0x14 :: List.replicate 20 b

/-- One output of 50 coins, after a sequence. -/
def sampleOutputs (script : Bytes) : Bytes :=
  [0xff, 0xff, 0xff, 0xff, 1] ++ (TxOut.encode ⟨5000000000, script⟩)

/-- A coinbase input whose script signature starts with the block height and is declared to be
`scriptLen` bytes long. -/
def heightPrefix (scriptLen : Nat) : Bytes :=
  oneInputStart [1, 0, 0, 0] (List.replicate 32 0 ++ List.replicate 4 0xff) scriptLen ++
    [0x03, 0x40, 0x0d, 0x03]

def jobWith (pre suf : Bytes) : NewExtendedMiningJob where
  channelId := 1
  jobId := 1
  minNtime := none
  version := 0x20000000
  versionRollingAllowed := true
  merklePath := []
  coinbaseTxPrefix := pre
  coinbaseTxSuffix := suf

def miner : PayoutMode :=
  .solo "bc1qminer" (sampleScript 1)

/-- The height and eight bytes of extranonce make a script signature of twelve bytes. -/
def honestJob : NewExtendedMiningJob :=
  jobWith (heightPrefix 12) (sampleOutputs (sampleScript 1) ++ [0, 0, 0, 0])

/-- The declared length of 48 bytes swallows the sequence and the outputs that are checked. -/
def hidingJob : NewExtendedMiningJob :=
  jobWith (heightPrefix 48)
    (sampleOutputs (sampleScript 1) ++ sampleOutputs (sampleScript 2) ++ [0, 0, 0, 0])

theorem honest_coinbase_pays :
    verifyPayout (some miner) honestJob = .ok () ∧
      ∀ tx, Transaction.deserialize (coinbaseBytes honestJob (List.replicate 8 7)) = some tx →
        miner.validateCoinbaseOutputs tx.output = .ok () := by
  have haccept : verifyPayout (some miner) honestJob = .ok () := by decide +kernel
  have hpre : honestJob.coinbaseTxPrefix =
      oneInputStart [1, 0, 0, 0] (List.replicate 32 0 ++ List.replicate 4 0xff) 12 ++
        [0x03, 0x40, 0x0d, 0x03] := rfl
  have hends : InputsEndInSuffix honestJob 8 :=
    (inputsEndInSuffix_iff hpre rfl rfl (by decide) (by decide) (by decide)).mpr rfl
  refine ⟨haccept, ?_⟩
  intro tx htx
  exact accepted_coinbase_pays haccept hends (List.replicate 8 7) rfl tx []
    (Transaction.decode_of_deserialize htx)

theorem hidden_outputs_accepted :
    verifyPayout (some miner) hidingJob = .ok () ∧
      ∃ extranonce : Bytes, extranonce.length = 8 ∧ ∃ tx,
        Transaction.deserialize (coinbaseBytes hidingJob extranonce) = some tx ∧
        tx.output = [⟨5000000000, sampleScript 2⟩] ∧
        miner.validateCoinbaseOutputs tx.output ≠ .ok () := by
  refine ⟨by decide +kernel, List.replicate 8 7, rfl, ?_⟩
  have hdec : (Transaction.deserialize (coinbaseBytes hidingJob (List.replicate 8 7))).map
      (·.output) = some [⟨5000000000, sampleScript 2⟩] := by decide +kernel
  obtain ⟨tx, htx, hout⟩ := Option.map_eq_some_iff.mp hdec
  refine ⟨tx, htx, hout, ?_⟩
  rw [hout]
  decide +kernel

end GridPoolSv2.Translator
