import GridPoolSv2.JobDeclaratorClient.Shares
import GridPoolSv2.Lib.BestOf
import GridPoolSv2.Lib.ByteOrder

/-!
# JobDeclaratorClient.CachedShares: which shares the cache keeps

A share that has to wait for its custom job goes into a cache with room for a hundred, and
`add_share_to_cache` is meant to keep the lowest hashes. It compares two hashes as `Ord` of
`sha256d::Hash` does, by their 32 internal bytes from the first one. The number that is
compared with a target takes the same bytes as **little-endian** digits.

* `HashedShare` is a `SharesOrderedByDiff` with the bytes of its hash; `entry` is the share the
  manager holds, whose `shareHash` is the place of the hash in the order of `Ord`.
* `AddShareToCache` is `add_share_to_cache` for a `BinaryHeap` that may show any of its greatest
  entries. `addShareToCache` is one such heap (`addShareToCache_entry`).
* The cache keeps the first hundred hashes in the order of `Ord`
  (`AddSharesToCache.keepsFirst`), and these are the lowest ones only where both orders cut the
  offered hashes at the same place (`cache_keepsLowest_iff`).
-/

namespace GridPoolSv2.JobDeclaratorClient

open BestOf ByteOrder

/-- `SharesOrderedByDiff`, with the internal bytes of the `sha256d::Hash`. -/
structure HashedShare where
  share : SubmitSharesExtended
  shareHash : Word 32
  origin : Origin
  deriving Repr, DecidableEq

namespace HashedShare

/-- The share in the cache of the manager, where a hash is its big-endian number. -/
def entry (x : HashedShare) : SharesOrderedByDiff :=
  ⟨x.share, beNat x.shareHash.bytes, x.origin⟩

theorem entry_injective : Function.Injective entry := by
  intro x y h
  obtain ⟨hshare, hhash, horigin⟩ : x.share = y.share ∧
      beNat x.shareHash.bytes = beNat y.shareHash.bytes ∧ x.origin = y.origin := by
    simpa [entry] using h
  have hbytes := beNat_inj (x.shareHash.length_bytes.trans y.shareHash.length_bytes.symm) hhash
  cases x
  cases y
  simp_all [Word.ext_iff]

end HashedShare

/-- `add_share_to_cache`, where `peek` shows any of the greatest entries and `pop` takes that
one. -/
abbrev AddShareToCache :=
  Offer cachedSharesCapacity HashedShare.shareHash

/-- Shares are offered one after the other. -/
abbrev AddSharesToCache :=
  Offers cachedSharesCapacity HashedShare.shareHash

/-- The heap of the manager is one of these. -/
theorem addShareToCache_entry (heap : List HashedShare) (x : HashedShare) :
    ∃ heap' : List HashedShare,
      addShareToCache (heap.map HashedShare.entry) x.entry =
        heap'.map HashedShare.entry ∧ AddShareToCache ↑heap x ↑heap' := by
  have hpush (l : List HashedShare) : (↑(l ++ [x]) : Multiset HashedShare) = x ::ₘ ↑l :=
    Multiset.coe_eq_coe.mpr (List.perm_append_singleton _ _)
  unfold addShareToCache
  rw [List.length_map]
  split
  · rename_i hroom
    refine ⟨heap ++ [x], by rw [List.map_append]; rfl, ?_⟩
    rw [hpush]
    exact .push hroom
  · rename_i hfull
    have hcard : cachedSharesCapacity ≤ Multiset.card (heap : Multiset HashedShare) :=
      Nat.le_of_not_lt hfull
    split
    · -- a full heap has a greatest entry
      rename_i hnone
      obtain rfl : heap = [] := by simpa using hnone
      exact absurd hcard (by decide)
    · rename_i worst hworst
      obtain ⟨w, hw, rfl⟩ := List.mem_map.mp (List.argmax_mem hworst)
      have hmax : ∀ y ∈ heap, y.shareHash ≤ w.shareHash := by
        intro y hy
        have hle : y.entry.shareHash ≤ w.entry.shareHash :=
          List.le_of_mem_argmax (List.mem_map_of_mem hy) hworst
        exact Word.le_iff.mpr hle
      have hcons : (heap : Multiset HashedShare) = w ::ₘ ↑(heap.erase w) :=
        Multiset.coe_eq_coe.mpr (List.perm_cons_erase hw)
      split
      · rename_i hlt
        refine ⟨heap.erase w ++ [x], ?_, ?_⟩
        · rw [List.map_append, List.map_erase HashedShare.entry_injective]
          rfl
        · rw [hpush, hcons]
          refine .replace (hcons ▸ hcard) (fun y hy => hmax y ?_) (Word.lt_iff.mpr hlt)
          rwa [← hcons] at hy
      · rename_i hle
        exact ⟨heap, rfl, .discard hcard fun y hy =>
          (hmax y hy).trans (Word.le_iff.mpr (Nat.le_of_not_lt hle))⟩

/-- What the manager's cache holds after a sequence of shares. -/
theorem foldl_addShareToCache (offered heap : List HashedShare) :
    ∃ heap' : List HashedShare,
      (offered.map HashedShare.entry).foldl addShareToCache (heap.map HashedShare.entry) =
        heap'.map HashedShare.entry ∧ AddSharesToCache ↑heap offered ↑heap' := by
  induction offered generalizing heap with
  | nil => exact ⟨heap, rfl, .nil⟩
  | cons x offered ih =>
      obtain ⟨next, hnext, hhead⟩ := addShareToCache_entry heap x
      obtain ⟨heap', hheap', htail⟩ := ih next
      refine ⟨heap', ?_, .cons hhead htail⟩
      rw [List.map_cons, List.foldl_cons, hnext, hheap']

/-! ### The hashes that are kept -/

/-- A heap of as many of the offered shares as there is room for, such that none of the others has a
numerically lower hash. -/
structure KeepsLowest (offered : List HashedShare) (heap : Multiset HashedShare) : Prop where
  card : heap.card = min offered.length cachedSharesCapacity
  lowest : ∃ discarded : Multiset HashedShare, ↑offered = heap + discarded ∧
    ∀ x ∈ heap, ∀ y ∈ discarded, x.shareHash.number ≤ y.shareHash.number

/-- Sorted as `Ord` sorts them, no hash after the first hundred is numerically lower than one of the
first hundred. -/
def CutsLowest (offered : List HashedShare) : Prop :=
  let hashes := sortedKeys HashedShare.shareHash ↑offered
  ∀ a ∈ hashes.take cachedSharesCapacity, ∀ b ∈ hashes.drop cachedSharesCapacity,
    a.number ≤ b.number

/-- The cache keeps the first hundred hashes in the order of `Ord`. -/
theorem AddSharesToCache.keepsFirst {offered : List HashedShare} {heap : Multiset HashedShare}
    (h : AddSharesToCache 0 offered heap) :
    heap.map HashedShare.shareHash =
      ↑((sortedKeys HashedShare.shareHash ↑offered).take cachedSharesCapacity) := by
  obtain ⟨hcard, discarded, hsplit, hle⟩ := h.best
  rw [hsplit] at hcard ⊢
  exact (Best.map_key hcard hle).1

/-- The cache has the lowest hashes exactly if the two orders agree on which those are. -/
theorem AddSharesToCache.keepsLowest_iff {offered : List HashedShare} {heap : Multiset HashedShare}
    (h : AddSharesToCache 0 offered heap) : KeepsLowest offered heap ↔ CutsLowest offered := by
  have hbest := h.best
  constructor
  · intro hlow
    exact (hbest.respects_iff Word.number).mp hlow.lowest
  · intro hcut
    exact ⟨by simpa using hbest.card, (hbest.respects_iff Word.number).mpr hcut⟩

/-- **The cache keeps the lowest hashes** exactly when the order of `Ord` cuts the offered hashes
where the order of numbers does. -/
theorem cache_keepsLowest_iff (offered : List HashedShare) :
    (∀ heap, AddSharesToCache 0 offered heap → KeepsLowest offered heap) ↔ CutsLowest offered := by
  constructor
  · intro hall
    obtain ⟨heap, hheap⟩ := exists_offers cachedSharesCapacity HashedShare.shareHash 0 offered
    exact (AddSharesToCache.keepsLowest_iff hheap).mp (hall heap hheap)
  · intro hcut heap hheap
    exact (AddSharesToCache.keepsLowest_iff hheap).mpr hcut

/-! ### A block that is thrown away

A hundred hashes that begin with zeros fill the cache. The hash that comes last is smaller than
all of them as a number. -/

/-- A share whose hash has a one in byte `i`, and zeros elsewhere. -/
def shareWithByte (i : Fin 32) : HashedShare where
  share := ⟨1, 0, 1, 0, 0, 0, []⟩
  shareHash := ⟨(List.replicate 32 0).set i 1, by simp⟩
  origin := ⟨⟨1, ⟨1, true, 0, 0, []⟩, [], []⟩, []⟩

/-- Equal shares fill the cache. -/
theorem addSharesToCache_replicate (x : HashedShare) (n k : Nat)
    (h : k + n ≤ cachedSharesCapacity) :
    AddSharesToCache (Multiset.replicate k x) (List.replicate n x)
      (Multiset.replicate (k + n) x) := by
  induction n generalizing k with
  | zero => exact .nil
  | succ n ih =>
      have hroom : Multiset.card (Multiset.replicate k x) < cachedSharesCapacity := by
        rw [Multiset.card_replicate]
        omega
      refine .cons (.push hroom) ?_
      have hrest := ih (k + 1) (by omega)
      rwa [Multiset.replicate_succ, Nat.add_right_comm, Nat.add_assoc k n 1] at hrest

/-- A hundred shares with `2 ^ 200` as their hash, and one with the hash `1`. -/
def fullCacheThenBlock : List HashedShare :=
  List.replicate cachedSharesCapacity (shareWithByte 25) ++ [shareWithByte 0]

theorem fullCacheThenBlock_offers :
    AddSharesToCache 0 fullCacheThenBlock
      (Multiset.replicate cachedSharesCapacity (shareWithByte 25)) := by
  have hfill := addSharesToCache_replicate (shareWithByte 25) cachedSharesCapacity 0 (by decide)
  rw [Nat.zero_add] at hfill
  refine hfill.append (.cons (.discard ?_ fun y hy => ?_) .nil)
  · rw [Multiset.card_replicate]
  · obtain rfl := Multiset.eq_of_mem_replicate hy
    decide

/-- The hash of a block comes last in the order of `Ord`, and a full cache throws it away. -/
theorem block_discarded :
    ¬ ∀ heap, AddSharesToCache 0 fullCacheThenBlock heap → KeepsLowest fullCacheThenBlock heap := by
  intro hall
  obtain ⟨discarded, hsplit, hlow⟩ := (hall _ fullCacheThenBlock_offers).lowest
  have hoffered : (↑fullCacheThenBlock : Multiset HashedShare) =
      Multiset.replicate cachedSharesCapacity (shareWithByte 25) + {shareWithByte 0} := rfl
  rw [hoffered] at hsplit
  obtain rfl := Multiset.add_right_inj.mp hsplit
  have hlt : (shareWithByte 0).shareHash.number < (shareWithByte 25).shareHash.number := by decide
  refine absurd (hlow (shareWithByte 25) ?_ (shareWithByte 0) ?_) (Nat.not_le.mpr hlt)
  · exact Multiset.mem_replicate.mpr ⟨by decide, rfl⟩
  · exact Multiset.mem_singleton_self _

end GridPoolSv2.JobDeclaratorClient
