import GridPoolSv2.JobDeclaratorClient.ExtranonceAgreement
import Mathlib.Data.Nat.Pairing

/-!
# JobDeclaratorClient.PrefixReassignment: the pool sends a new prefix

`handle_set_extranonce_prefix` builds a new allocator over the new prefix and goes through the
open channels: each is given a prefix of the new allocator and told so. What goes wrong for a
channel is pushed as an error into the list of messages and dropped with the `flatten` of the
sending loop, so that nobody is disconnected. The group channels are not resized.

* `Moving` follows the nested loops: what is not left has moved, if it could.
* `Renumbered` is what the handler is for, and `renumbered_iff` says when it gets there.

A channel goes on rolling as many bytes as before, so behind a prefix of another length its
extranonces have another size than its group. A channel for which there is no room is left with the
old prefix, which the pool has withdrawn.

Proof shape: `moved` is what one channel is given, with `moved_iff` for when it is given anything.
`Moving` is the invariant of the three nested loops, over the downstreams, the two kinds and the
channels: `left` shrinks by one channel a turn, and what is no longer in it is renumbered and told
so. The result reads the loop invariant at the point where nothing is left. `slotted` is the
reference implementation with prefixes that depend on the slot, for the examples.
-/

namespace GridPoolSv2.JobDeclaratorClient

open Consensus (Bytes)
open Visit Handler

/-- `JDC_MAX_CHANNELS`. -/
def jdcMaxChannels : Nat := 65536

namespace ChannelsSv2

variable (api : ChannelsSv2)

/-- The prefix an allocator gives to a channel: `allocate_standard`, or `allocate_extended` with the
channel's own rollable size. -/
def allocateFor (a : ExtranonceAllocator) (slot : Nat) (k : ChannelKind) (ch : api.Channel) :
    Except String Bytes :=
  match k with
  | .standard => api.allocateStandard a slot
  | .extended => api.allocateExtended a slot (api.rollableExtranonceSize ch)

/-- A channel takes the prefix it is given. -/
def moved (a : ExtranonceAllocator) (slot : Nat) (k : ChannelKind) (ch : api.Channel) :
    Option (Bytes × api.Channel) :=
  match api.allocateFor a slot k ch with
  | .error _ => none
  | .ok p =>
      match api.setExtranoncePrefix ch p with
      | .error _ => none
      | .ok ch' => some (p, ch')

/-- The extranonce size of a channel: a standard channel has nothing to roll. -/
def extranonceSize (k : ChannelKind) (ch : api.Channel) : Nat :=
  match k with
  | .standard => (api.extranoncePrefix ch).length
  | .extended => api.fullExtranonceSize ch

/-- A new allocator has `JDC_MAX_CHANNELS` slots, and a slot that is given has a prefix of its own,
with `JDC_LOCAL_PREFIX_BYTES` behind the upstream prefix. A server channel takes a prefix that is
not too long and goes on rolling as many bytes. -/
structure AllocatorLaws : Prop where
  standard : ∀ {p n slot}, api.allocatorAccepts p n = true →
    ((∃ q, api.allocateStandard ⟨p, n⟩ slot = .ok q) ↔ slot < jdcMaxChannels)
  extended : ∀ {p n slot m}, api.allocatorAccepts p n = true →
    ((∃ q, api.allocateExtended ⟨p, n⟩ slot m = .ok q) ↔
      slot < jdcMaxChannels ∧ p.length + localPrefixBytes + m ≤ n)
  extended_length : ∀ {p n slot m q}, api.allocateExtended ⟨p, n⟩ slot m = .ok q →
    q.length = p.length + localPrefixBytes
  distinct : ∀ {a slot slot' k k' ch ch' q q'}, api.allocateFor a slot k ch = .ok q →
    api.allocateFor a slot' k' ch' = .ok q' → slot ≠ slot' → q ≠ q'
  setExtranoncePrefix : ∀ {ch q}, q.length ≤ maxExtranonceLen →
    ∃ ch', api.setExtranoncePrefix ch q = .ok ch' ∧
      api.rollableExtranonceSize ch' = api.rollableExtranonceSize ch

variable {api} {a : ExtranonceAllocator} {slot : Nat} {k : ChannelKind} {ch : api.Channel}

/-- A channel moves if the allocator has a prefix for it and it takes the prefix. -/
theorem moved_eq_some {r : Bytes × api.Channel} :
    api.moved a slot k ch = some r ↔
      api.allocateFor a slot k ch = .ok r.1 ∧ api.setExtranoncePrefix ch r.1 = .ok r.2 := by
  unfold moved
  cases api.allocateFor a slot k ch with
  | error e => simp
  | ok p =>
      dsimp only
      cases hset : api.setExtranoncePrefix ch p with
      | error e =>
          simp only [reduceCtorEq, Except.ok.injEq, false_iff, not_and]
          intro hp hr
          rw [← hp, hset] at hr
          cases hr
      | ok ch' =>
          simp only [Option.some.injEq, Except.ok.injEq]
          constructor
          · intro h
            subst h
            exact ⟨rfl, hset⟩
          · intro h
            obtain ⟨rfl, hr⟩ := h
            obtain rfl := Except.ok.inj (hset.symm.trans hr)
            rfl

/-- What an allocator gives begins with the upstream prefix and leaves room for what is rolled. -/
theorem allocateFor_fits (hlaw : api.Lawful) {q : Bytes} (h : api.allocateFor a slot k ch = .ok q) :
    a.upstreamPrefix <+: q ∧ q.length ≤ a.totalLen := by
  cases k with
  | standard => exact ⟨(hlaw.allocateStandard h).1, (hlaw.allocateStandard h).2.le⟩
  | extended =>
      obtain ⟨hpre, hlen⟩ := hlaw.allocateExtended h
      exact ⟨hpre, (Nat.le_add_right _ _).trans hlen⟩

/-- Whether a channel moves to a new prefix as long as it should: it needs a slot, and an extended
channel has to roll what the pool leaves behind the local index. -/
theorem moved_iff (hlaw : api.Lawful) (laws : api.AllocatorLaws) {p : Bytes} {n : Nat}
    (haccepts : api.allocatorAccepts p (p.length + n) = true)
    (hn : p.length + n ≤ maxExtranonceLen) :
    (∃ r, api.moved ⟨p, p.length + n⟩ slot k ch = some r ∧
        api.extranonceSize k r.2 = p.length + n) ↔
      slot < jdcMaxChannels ∧ (k = .extended →
        api.rollableExtranonceSize ch + localPrefixBytes = n) := by
  have hset : ∀ q, api.allocateFor ⟨p, p.length + n⟩ slot k ch = .ok q →
      ∃ ch', api.moved ⟨p, p.length + n⟩ slot k ch = some (q, ch') ∧
        api.extranoncePrefix ch' = q ∧
        api.rollableExtranonceSize ch' = api.rollableExtranonceSize ch := by
    intro q hq
    have hlen : q.length ≤ p.length + n := (allocateFor_fits hlaw hq).2
    obtain ⟨ch', hch', hroll⟩ := laws.setExtranoncePrefix (hlen.trans hn)
    exact ⟨ch', moved_eq_some.mpr ⟨hq, hch'⟩, (hlaw.setExtranoncePrefix hch').1, hroll⟩
  cases k with
  | standard =>
      simp only [reduceCtorEq, false_implies, and_true]
      rw [← laws.standard haccepts]
      constructor
      · intro h
        obtain ⟨r, hr, -⟩ := h
        exact ⟨r.1, (moved_eq_some.mp hr).1⟩
      · intro h
        obtain ⟨q, hq⟩ := h
        obtain ⟨ch', hmoved, hpre, -⟩ := hset q hq
        refine ⟨_, hmoved, ?_⟩
        change (api.extranoncePrefix ch').length = p.length + n
        rw [hpre, (hlaw.allocateStandard hq).2]
  | extended =>
      constructor
      · intro h
        obtain ⟨⟨q, ch₁⟩, hr, hsize⟩ := h
        have hq := (moved_eq_some.mp hr).1
        obtain ⟨ch', hmoved, hpre, hroll⟩ := hset q hq
        obtain ⟨-, rfl⟩ := Prod.mk.inj (Option.some.inj (hr.symm.trans hmoved))
        refine ⟨((laws.extended haccepts).mp ⟨_, hq⟩).1, fun _ => ?_⟩
        change (api.extranoncePrefix ch₁).length + api.rollableExtranonceSize ch₁ =
          p.length + n at hsize
        rw [hpre, laws.extended_length hq, hroll] at hsize
        omega
      · intro h
        obtain ⟨hslot, hn'⟩ := h
        have hn' := hn' rfl
        obtain ⟨q, hq⟩ := (laws.extended haccepts (m := api.rollableExtranonceSize ch)).mpr
          ⟨hslot, by omega⟩
        obtain ⟨ch', hmoved, hpre, hroll⟩ := hset q hq
        refine ⟨_, hmoved, ?_⟩
        change (api.extranoncePrefix ch').length + api.rollableExtranonceSize ch' = p.length + n
        rw [hpre, laws.extended_length hq, hroll]
        omega

end ChannelsSv2

namespace ChannelManager

variable {api : ChannelsSv2} {s s₀ : ChannelManager api}
  {slots : DownstreamId → ChannelKind → ChannelId → Nat}

/-! ### One channel -/

theorem channel?_setChannel_of_ne {d d' : DownstreamId} {k k' : ChannelKind} {c c' : ChannelId}
    {ch : api.Channel} (hne : ¬ (d' = d ∧ k' = k ∧ c' = c)) :
    (s.setChannel d k c ch).channel? d' k' c' = s.channel? d' k' c' := by
  simp only [channel?, setChannel, modifyDownstream]
  cases hds : s.downstream.lookup d with
  | none => rfl
  | some ds =>
      by_cases hd : d' = d
      · subst hd
        rw [AList.lookup_insert, hds]
        by_cases hk : k' = k
        · subst hk
          have hc : c' ≠ c := fun hc => hne ⟨rfl, rfl, hc⟩
          simp only [Function.update_self]
          exact AList.lookup_insert_ne hc
        · simp only [Function.update_of_ne hk]
      · rw [AList.lookup_insert_ne hd]

theorem group_setChannel {d d' : DownstreamId} {k : ChannelKind} {c : ChannelId}
    {ch : api.Channel} :
    ((s.setChannel d k c ch).downstream.lookup d').map Downstream.groupChannel =
      (s.downstream.lookup d').map Downstream.groupChannel := by
  simp only [setChannel, modifyDownstream]
  cases hds : s.downstream.lookup d with
  | none => rfl
  | some ds =>
      by_cases hd : d' = d
      · rw [hd, AList.lookup_insert, hds]
        rfl
      · rw [AList.lookup_insert_ne hd]

/-- The turn of a channel: it moves and is told so, or nothing happens. -/
theorem reassignPrefix_eq (d : DownstreamId) (k : ChannelKind) (c : ChannelId) :
    reassignPrefix slots d k c s =
      match (s.channel? d k c).bind (api.moved s.extranonceAllocator (slots d k c) k) with
      | none => .keep s
      | some r => say [.downstream d (.setExtranoncePrefix c r.1)] (s.setChannel d k c r.2) := by
  unfold reassignPrefix
  cases s.channel? d k c with
  | none => rfl
  | some ch =>
      rw [Option.bind_some]
      change (match api.allocateFor s.extranonceAllocator (slots d k c) k ch with
        | .error _ => Outcome.keep s
        | .ok p =>
            match api.setExtranoncePrefix ch p with
            | .error _ => .keep s
            | .ok ch' => say _ _) = _
      unfold ChannelsSv2.moved
      cases api.allocateFor s.extranonceAllocator (slots d k c) k ch with
      | error e => rfl
      | ok p =>
          dsimp only
          cases api.setExtranoncePrefix ch p <;> rfl

/-! ### The loops

The order of the channels is that of the maps. A channel that cannot move keeps its prefix, and its
miner is not told. -/

/-- In the loops of `handle_set_extranonce_prefix`, begun in `s₀`: the channels that are `left` are
as they were, and the others have moved if they could. The notes `ns` tell exactly those. -/
structure Moving (slots : DownstreamId → ChannelKind → ChannelId → Nat) (s₀ : ChannelManager api)
    (left : DownstreamId → ChannelKind → ChannelId → Prop) (s : ChannelManager api)
    (ns : List Note) : Prop where
  kept : ∀ d k c, left d k c → s.channel? d k c = s₀.channel? d k c
  settled : ∀ d k c, ¬ left d k c → ∀ ch, s₀.channel? d k c = some ch →
    s.channel? d k c = some
      (((api.moved s₀.extranonceAllocator (slots d k c) k ch).map Prod.snd).getD ch)
  closed : ∀ d k c, s₀.channel? d k c = none → s.channel? d k c = none
  said : ∀ d k c, ¬ left d k c → ∀ ch r, s₀.channel? d k c = some ch →
    api.moved s₀.extranonceAllocator (slots d k c) k ch = some r →
    .downstream d (.setExtranoncePrefix c r.1) ∈ ns
  telling : ∀ n ∈ ns, ∃ d k c ch r, s₀.channel? d k c = some ch ∧
    api.moved s₀.extranonceAllocator (slots d k c) k ch = some r ∧
    n = .downstream d (.setExtranoncePrefix c r.1)
  groups : ∀ d, (s.downstream.lookup d).map Downstream.groupChannel =
    (s₀.downstream.lookup d).map Downstream.groupChannel
  allocator : s.extranonceAllocator = s₀.extranonceAllocator
  upstreamChannel : s.upstreamChannel = s₀.upstreamChannel

variable {left left' : DownstreamId → ChannelKind → ChannelId → Prop} {ns : List Note}

/-- A channel that is not there is not left, either. -/
theorem Moving.mono (h : Moving slots s₀ left s ns) (hle : ∀ d k c, left' d k c → left d k c)
    (hgone : ∀ d k c, left d k c → ¬ left' d k c → s.channel? d k c = none) :
    Moving slots s₀ left' s ns := by
  have hnot : ∀ d k c, ¬ left' d k c → ∀ ch, s₀.channel? d k c = some ch → ¬ left d k c := by
    intro d k c hnot ch hch hleft
    have hnone := hgone d k c hleft hnot
    rw [h.kept d k c hleft, hch] at hnone
    cases hnone
  exact ⟨fun d k c hl => h.kept d k c (hle d k c hl),
    fun d k c hl ch hch => h.settled d k c (hnot d k c hl ch hch) ch hch, h.closed,
    fun d k c hl ch r hch => h.said d k c (hnot d k c hl ch hch) ch r hch, h.telling, h.groups,
    h.allocator, h.upstreamChannel⟩

/-- The turn of a channel that is left. -/
theorem reassignPrefix_moving {d : DownstreamId} {k : ChannelKind} {c : ChannelId}
    (h : Moving slots s₀ left s ns) (hleft : left d k c) :
    Continues (Moving slots s₀ fun d' k' c' => left d' k' c' ∧ ¬ (d' = d ∧ k' = k ∧ c' = c)) ns
      (reassignPrefix slots d k c s) := by
  rw [reassignPrefix_eq, h.kept d k c hleft, h.allocator]
  cases hr : (s₀.channel? d k c).bind (api.moved s₀.extranonceAllocator (slots d k c) k) with
  | none =>
      -- a channel that cannot move is settled as it is
      refine .keep ⟨fun d' k' c' hl => h.kept d' k' c' hl.1, fun d' k' c' hl ch hch => ?_, h.closed,
        fun d' k' c' hl ch r hch hmoved => ?_, h.telling, h.groups, h.allocator, h.upstreamChannel⟩
      · by_cases hleft' : left d' k' c'
        · obtain ⟨rfl, rfl, rfl⟩ := not_not.mp fun hne => hl ⟨hleft', hne⟩
          rw [hch, Option.bind_some] at hr
          rw [hr, h.kept _ _ _ hleft', hch]
          rfl
        · exact h.settled d' k' c' hleft' ch hch
      · by_cases hleft' : left d' k' c'
        · obtain ⟨rfl, rfl, rfl⟩ := not_not.mp fun hne => hl ⟨hleft', hne⟩
          rw [hch, Option.bind_some, hmoved] at hr
          cases hr
        · exact h.said d' k' c' hleft' ch r hch hmoved
  | some r =>
      obtain ⟨ch, hch, hmoved⟩ := Option.bind_eq_some_iff.mp hr
      have hold : s.channel? d k c = some ch := (h.kept d k c hleft).trans hch
      refine ⟨rfl, ⟨fun d' k' c' hl => ?_, fun d' k' c' hl ch' hch' => ?_, fun d' k' c' hnone => ?_,
        fun d' k' c' hl ch' r' hch' hmoved' => ?_, fun n hn => ?_, fun d' => ?_, h.allocator,
        h.upstreamChannel⟩⟩
      · exact (channel?_setChannel_of_ne hl.2).trans (h.kept d' k' c' hl.1)
      · by_cases hsame : d' = d ∧ k' = k ∧ c' = c
        · obtain ⟨rfl, rfl, rfl⟩ := hsame
          obtain rfl := Option.some.inj (hch.symm.trans hch')
          rw [hmoved]
          exact channel?_setChannel_self hold
        · have hnot : ¬ left d' k' c' := fun hleft' => hl ⟨hleft', hsame⟩
          exact (channel?_setChannel_of_ne hsame).trans (h.settled d' k' c' hnot ch' hch')
      · have hne : ¬ (d' = d ∧ k' = k ∧ c' = c) := by
          intro hsame
          obtain ⟨rfl, rfl, rfl⟩ := hsame
          rw [hch] at hnone
          cases hnone
        exact (channel?_setChannel_of_ne hne).trans (h.closed d' k' c' hnone)
      · by_cases hsame : d' = d ∧ k' = k ∧ c' = c
        · obtain ⟨rfl, rfl, rfl⟩ := hsame
          obtain rfl := Option.some.inj (hch.symm.trans hch')
          obtain rfl := Option.some.inj (hmoved.symm.trans hmoved')
          exact List.mem_append_right _ List.mem_cons_self
        · have hnot : ¬ left d' k' c' := fun hleft' => hl ⟨hleft', hsame⟩
          exact List.mem_append_left _ (h.said d' k' c' hnot ch' r' hch' hmoved')
      · rcases List.mem_append.mp hn with hn | hn
        · exact h.telling n hn
        · exact ⟨d, k, c, ch, r, hch, hmoved, List.mem_singleton.mp hn⟩
      · exact group_setChannel.trans (h.groups d')

/-- The channels of one kind of a downstream move. -/
theorem reassignKind_moving {r : DownstreamId → ChannelKind → ChannelId → Prop}
    {d : DownstreamId} {k : ChannelKind} (hr : ∀ c, ¬ r d k c)
    (h : Moving slots s₀ (fun d' k' c' => r d' k' c' ∨ d' = d ∧ k' = k) s ns) :
    Continues (Moving slots s₀ r) ns
      (forEach (reassignPrefix slots d k) (s.channelIds d k) s) := by
  have hnodup : (s.channelIds d k).Nodup := by
    unfold channelIds
    cases s.downstream.lookup d with
    | none => exact List.nodup_nil
    | some ds => exact AList.keys_nodup _
  refine (Continues.forEach (I := fun cs s ns => cs.Nodup ∧
    Moving slots s₀ (fun d' k' c' => r d' k' c' ∨ d' = d ∧ k' = k ∧ c' ∈ cs) s ns)
    (fun c cs s ns hI => ?_) ⟨hnodup, ?_⟩).mono fun s ns hI => ?_
  · obtain ⟨hc, hcs⟩ := List.nodup_cons.mp hI.1
    refine (reassignPrefix_moving hI.2 (.inr ⟨rfl, rfl, List.mem_cons_self⟩)).mono fun s ns h' =>
      ⟨hcs, h'.mono (fun d' k' c' hl => ?_) fun d' k' c' hl hnot => ?_⟩
    · rcases hl with hl | ⟨rfl, rfl, hmem⟩
      · refine ⟨.inl hl, fun hsame => ?_⟩
        obtain ⟨rfl, rfl, rfl⟩ := hsame
        exact hr _ hl
      · refine ⟨.inr ⟨rfl, rfl, List.mem_cons_of_mem _ hmem⟩, fun hsame => ?_⟩
        obtain ⟨-, -, rfl⟩ := hsame
        exact hc hmem
    · obtain ⟨hl | ⟨rfl, rfl, hmem⟩, hne⟩ := hl
      · exact absurd (.inl hl) hnot
      · rcases List.mem_cons.mp hmem with rfl | hmem
        · exact absurd ⟨rfl, rfl, rfl⟩ hne
        · exact absurd (.inr ⟨rfl, rfl, hmem⟩) hnot
  · refine h.mono (fun d' k' c' hl => hl.imp_right fun hmem => ⟨hmem.1, hmem.2.1⟩)
      fun d' k' c' hl hnot => ?_
    rcases hl with hl | ⟨rfl, rfl⟩
    · exact absurd (.inl hl) hnot
    · cases hch : s.channel? d' k' c' with
      | none => rfl
      | some ch => exact absurd (.inr ⟨rfl, rfl, (mem_channelIds hch).2⟩) hnot
  · refine hI.2.mono (fun d' k' c' hl => .inl hl) fun d' k' c' hl hnot => ?_
    rcases hl with hl | ⟨-, -, hmem⟩
    · exact absurd hl hnot
    · cases hmem

/-- The loops of `handle_set_extranonce_prefix`. -/
theorem reassignAll_moving (s₀ : ChannelManager api) :
    Continues (Moving slots s₀ fun _ _ _ => False) []
      (forEach (fun d s =>
          (forEach (reassignPrefix slots d .standard) (s.channelIds d .standard) s).andThen
            fun s => forEach (reassignPrefix slots d .extended) (s.channelIds d .extended) s)
        s₀.downstream.keys s₀) := by
  refine (Continues.forEach (I := fun ds s ns => ds.Nodup ∧
    Moving slots s₀ (fun d _ _ => d ∈ ds) s ns) (fun d ds s ns hI => ?_)
    ⟨AList.keys_nodup _, ?_⟩).mono fun s ns hI => ?_
  · obtain ⟨hd, hds⟩ := List.nodup_cons.mp hI.1
    -- first the standard channels, with the extended ones left
    refine (reassignKind_moving (r := fun d' k' _ => d' ∈ ds ∨ d' = d ∧ k' = .extended) ?_
      (hI.2.mono ?_ ?_)).andThen fun ns' h' =>
        (reassignKind_moving (r := fun d' _ _ => d' ∈ ds) (fun _ => hd) h').mono
          fun s ns h'' => ⟨hds, h''⟩
    · intro c hl
      rcases hl with hl | ⟨-, hk⟩
      · exact hd hl
      · cases hk
    · intro d' k' c' hl
      rcases hl with (hl | ⟨rfl, -⟩) | ⟨rfl, -⟩
      · exact List.mem_cons_of_mem _ hl
      · exact List.mem_cons_self
      · exact List.mem_cons_self
    · intro d' k' c' hl hnot
      refine absurd ?_ hnot
      rcases List.mem_cons.mp hl with rfl | hl
      · cases k' with
        | standard => exact .inr ⟨rfl, rfl⟩
        | extended => exact .inl (.inr ⟨rfl, rfl⟩)
      · exact .inl (.inl hl)
  · refine ⟨fun d k c _ => rfl, fun d k c hnot ch hch => absurd (mem_channelIds hch).1 hnot,
      fun d k c h => h, fun d k c hnot ch r hch _ => absurd (mem_channelIds hch).1 hnot, by simp,
      fun d => rfl, rfl, rfl⟩
  · exact hI.2.mono (fun _ _ _ h => h.elim) fun _ _ _ hl _ => by cases hl

/-! ### The handler -/

/-- The handler without a fallback: the upstream channel has the new prefix, the new allocator is in
place, and the loops run. -/
theorem handleSetExtranoncePrefix_loops (hlaw : api.Lawful) {p : Bytes} {u : api.Upstream}
    (hu : s.upstreamChannel = some u)
    (hhandled : ∀ kind, (s.handleSetExtranoncePrefix p slots).error ≠ some (.fallback kind)) :
    ∃ u' s₀, api.upstreamFullSize u' = p.length + api.upstreamRollable u ∧
      p.length + api.upstreamRollable u ≤ maxExtranonceLen ∧
      api.allocatorAccepts p (p.length + api.upstreamRollable u) = true ∧
      s₀ = { s with
        upstreamChannel := some u'
        extranonceAllocator := ⟨p, p.length + api.upstreamRollable u⟩ } ∧
      Continues (Moving slots s₀ fun _ _ _ => False) [] (s.handleSetExtranoncePrefix p slots) := by
  unfold handleSetExtranoncePrefix at hhandled ⊢
  simp only [hu] at hhandled ⊢
  split at hhandled
  · exact absurd rfl (hhandled _)
  · rename_i hlen
    split at hhandled
    · exact absurd rfl (hhandled _)
    · rename_i u' hu'
      obtain ⟨hpre, hroll, -⟩ := hlaw.setUpstreamPrefix hu'
      split at hhandled
      · exact absurd rfl (hhandled _)
      · rename_i hfull
        split at hhandled
        · exact absurd rfl (hhandled _)
        · rename_i allocator hallocator
          obtain ⟨haccepts, rfl⟩ := fromUpstreamPrefix_ok hallocator
          rw [hroll] at hfull haccepts hallocator
          refine ⟨u', _, ?_, not_lt.mp hfull, haccepts, rfl, ?_⟩
          · rw [ChannelsSv2.upstreamFullSize, hpre, hroll]
          · simp only [if_neg hlen, hroll, if_neg hfull]
            exact reassignAll_moving _

/-- Every channel has been told a prefix of its own under the new upstream prefix, of the right
size, or its downstream is disconnected; and every group has the new size. -/
structure Renumbered (groupSize : api.Group → Nat) (s : ChannelManager api) (p : Bytes)
    (full : Nat) (o : Handled api) : Prop where
  channels : ∀ d k c ch, s.channel? d k c = some ch →
    (∃ ch', o.value.channel? d k c = some ch' ∧
      .downstream d (.setExtranoncePrefix c (api.extranoncePrefix ch')) ∈ o.notes ∧
      p <+: api.extranoncePrefix ch' ∧ api.extranonceSize k ch' = full ∧
      ∀ d' k' c' ch'', ¬ (d' = d ∧ k' = k ∧ c' = c) → o.value.channel? d' k' c' = some ch'' →
        api.extranoncePrefix ch'' ≠ api.extranoncePrefix ch') ∨
    ∃ kind, o.error = some (.disconnect kind d)
  groups : ∀ d ds, o.value.downstream.lookup d = some ds → groupSize ds.groupChannel = full

/-- The allocator gives no slot twice. -/
def OwnSlots (slots : DownstreamId → ChannelKind → ChannelId → Nat) (s : ChannelManager api) :
    Prop :=
  ∀ d k c d' k' c', (s.channel? d k c).isSome → (s.channel? d' k' c').isSome →
    slots d k c = slots d' k' c' → slots d k c < jdcMaxChannels → d' = d ∧ k' = k ∧ c' = c

end ChannelManager

/-! ### With the reference channels -/

/-- The reference channels, with `JDC_MAX_CHANNELS` slots and with groups that know their size: it
is kept where a channel keeps what it rolls. -/
def slotted : ChannelsSv2 :=
  { reference with
    newGroup := fun i n => .ok (⟨i, .empty [] n, []⟩ : RefGroup)
    setFullExtranonceSize := fun (g : RefGroup) n =>
      { g with jobs := { g.jobs with rollable := n } }
    allocateStandard := fun a slot =>
      if slot < jdcMaxChannels then reference.allocateStandard a slot else .error "no free slot"
    allocateExtended := fun a slot n =>
      if slot < jdcMaxChannels then reference.allocateExtended a slot n else .error "no free slot" }

/-- The size of their groups. -/
def slottedGroupSize (g : RefGroup) : Nat := g.jobs.rollable

/-- The variant has the channels of the plain implementation. -/
theorem slotted_sameShape {ch ch' : RefChannel} (h : reference.SameShape ch ch') :
    slotted.SameShape ch ch' :=
  ⟨h.extranoncePrefix, h.rollable, h.chainTip⟩

theorem slotted_sameUpstream {u u' : RefUpstream} (h : reference.SameUpstream u u') :
    slotted.SameUpstream u u' :=
  ⟨h.upstreamPrefix, h.rollable, h.chainTip⟩

theorem slotted_lawful : slotted.Lawful :=
  { reference_lawful with
    onNewTemplate := fun h => (reference_lawful.onNewTemplate h).imp slotted_sameShape id
    onSetNewPrevHash := fun h => (reference_lawful.onSetNewPrevHash h).imp slotted_sameShape id
    onGroupChannelJob := fun h => (reference_lawful.onGroupChannelJob h).imp slotted_sameShape id
    validateStandard := fun {ch m} =>
      (@ChannelsSv2.Lawful.validateStandard _ reference_lawful ch m).imp slotted_sameShape id
    validateExtended := fun {ch m} =>
      (@ChannelsSv2.Lawful.validateExtended _ reference_lawful ch m).imp slotted_sameShape id
    onChainTipUpdate := fun {u tip} =>
      (@ChannelsSv2.Lawful.onChainTipUpdate _ reference_lawful u tip).imp slotted_sameUpstream id
    onSetCustomMiningJobSuccess := fun {u m i} =>
      slotted_sameUpstream (@ChannelsSv2.Lawful.onSetCustomMiningJobSuccess _
        reference_lawful u m i)
    validateUpstream := fun {u m} =>
      slotted_sameUpstream (@ChannelsSv2.Lawful.validateUpstream _ reference_lawful u m)
    allocateStandard := fun {a slot p} h => by
      simp only [slotted] at h
      split at h
      · exact reference_lawful.allocateStandard h
      · cases h
    allocateExtended := fun {a slot n p} h => by
      simp only [slotted] at h
      split at h
      · exact reference_lawful.allocateExtended h
      · cases h }

/-- An allocated prefix has the local bytes behind the upstream ones. -/
theorem length_withIndex (a : ExtranonceAllocator) (slot : Nat) :
    (a.withIndex slot).length = a.upstreamPrefix.length + localPrefixBytes := by
  simp [ExtranonceAllocator.withIndex, localPrefixBytes]

/-- What the reference allocators give begins with the index of the slot. -/
theorem slotted_allocateFor {a : ExtranonceAllocator} {slot : Nat} {k : ChannelKind}
    {ch : slotted.Channel} {q : Bytes} (h : slotted.allocateFor a slot k ch = .ok q) :
    slot < jdcMaxChannels ∧ a.withIndex slot <+: q := by
  cases k with
  | standard =>
      simp only [ChannelsSv2.allocateFor, slotted, reference] at h
      split at h
      · rename_i hslot
        split at h
        · obtain rfl := Except.ok.inj h
          exact ⟨hslot, List.prefix_append _ _⟩
        · cases h
      · cases h
  | extended =>
      simp only [ChannelsSv2.allocateFor, slotted, reference] at h
      split at h
      · rename_i hslot
        split at h
        · obtain rfl := Except.ok.inj h
          exact ⟨hslot, List.prefix_rfl⟩
        · cases h
      · cases h

theorem slotted_allocator : slotted.AllocatorLaws where
  standard {p n slot} h := by
    simp only [slotted, reference, Bool.and_eq_true, decide_eq_true_eq] at h ⊢
    by_cases hslot : slot < jdcMaxChannels
    · simp [hslot, h.1]
    · simp [hslot]
  extended {p n slot m} h := by
    simp only [slotted, reference, length_withIndex]
    by_cases hslot : slot < jdcMaxChannels
    · by_cases hroom : p.length + localPrefixBytes + m ≤ n <;> simp [hslot, hroom]
    · simp [hslot]
  extended_length {p n slot m q} h := by
    simp only [slotted, reference] at h
    split at h
    · split at h
      · obtain rfl := Except.ok.inj h
        exact length_withIndex _ slot
      · cases h
    · cases h
  distinct {a slot slot' k k' ch ch' q q'} h h' hne := by
    obtain ⟨hslot, hq⟩ := slotted_allocateFor h
    obtain ⟨hslot', hq'⟩ := slotted_allocateFor h'
    intro heq
    subst heq
    have hindex : a.withIndex slot = a.withIndex slot' :=
      (List.prefix_of_prefix_length_le hq hq' (by simp [length_withIndex])).eq_of_length
        (by simp [length_withIndex])
    have hread := congrArg Consensus.leNat (List.append_cancel_left hindex)
    rw [Consensus.leNat_leBytes (by simpa [jdcMaxChannels] using hslot),
      Consensus.leNat_leBytes (by simpa [jdcMaxChannels] using hslot')] at hread
    exact hne hread
  setExtranoncePrefix _ := ⟨_, rfl, rfl⟩

/-- A slot for each channel. -/
def ownSlot (d : DownstreamId) (k : ChannelKind) (c : ChannelId) : Nat :=
  Nat.pair d (Nat.pair (match k with | .standard => 0 | .extended => 1) c)

theorem ownSlots_ownSlot {api : ChannelsSv2} (s : ChannelManager api) : s.OwnSlots ownSlot := by
  intro d k c d' k' c' _ _ h _
  obtain ⟨rfl, hrest⟩ := Nat.pair_eq_pair.mp h
  obtain ⟨hk, rfl⟩ := Nat.pair_eq_pair.mp hrest
  cases k <;> cases k' <;> simp_all

/-! ### The result -/

namespace ChannelManager

variable {api : ChannelsSv2}

/-- **When every channel moves to the new prefix.** It does exactly when every channel gets a slot
of the new allocator, every extended channel rolls what the pool leaves behind the local index, and
every group has the new size already. -/
theorem renumbered_iff (hlaw : api.Lawful) (laws : api.AllocatorLaws)
    (groupSize : api.Group → Nat) (s : ChannelManager api) (p : Bytes)
    (slots : DownstreamId → ChannelKind → ChannelId → Nat) (u : api.Upstream)
    (hu : s.upstreamChannel = some u) (hslots : OwnSlots slots s)
    (hhandled : ∀ kind, (s.handleSetExtranoncePrefix p slots).error ≠ some (.fallback kind)) :
    (∃ u', (s.handleSetExtranoncePrefix p slots).value.upstreamChannel = some u' ∧
        Renumbered groupSize s p (api.upstreamFullSize u') (s.handleSetExtranoncePrefix p slots)) ↔
      (∀ d k c ch, s.channel? d k c = some ch → slots d k c < jdcMaxChannels ∧ (k = .extended →
          api.rollableExtranonceSize ch + localPrefixBytes = api.upstreamRollable u)) ∧
        ∀ d ds, s.downstream.lookup d = some ds →
          groupSize ds.groupChannel = p.length + api.upstreamRollable u := by
  obtain ⟨u', s₀, hsize, hfits, haccepts, rfl, hok, hmoving⟩ :=
    handleSetExtranoncePrefix_loops hlaw hu hhandled
  generalize s.handleSetExtranoncePrefix p slots = o at hok hmoving ⊢
  rw [List.nil_append] at hmoving
  have hupstream : o.value.upstreamChannel = some u' := hmoving.upstreamChannel
  have hgroups : ∀ d, (o.value.downstream.lookup d).map Downstream.groupChannel =
      (s.downstream.lookup d).map Downstream.groupChannel := hmoving.groups
  -- what a channel of the start becomes when it moves
  have hmoves : ∀ d k c ch, s.channel? d k c = some ch → ∀ r,
      api.moved ⟨p, p.length + api.upstreamRollable u⟩ (slots d k c) k ch = some r →
        o.value.channel? d k c = some r.2 ∧ api.extranoncePrefix r.2 = r.1 ∧ p <+: r.1 ∧
          .downstream d (.setExtranoncePrefix c r.1) ∈ o.notes := by
    intro d k c ch hch r hr
    obtain ⟨hallocated, hset⟩ := ChannelsSv2.moved_eq_some.mp hr
    refine ⟨?_, (hlaw.setExtranoncePrefix hset).1,
      (ChannelsSv2.allocateFor_fits hlaw hallocated).1, hmoving.said d k c id ch r hch hr⟩
    rw [hmoving.settled d k c id ch hch]
    change some (((api.moved ⟨p, p.length + api.upstreamRollable u⟩ (slots d k c) k ch).map
      Prod.snd).getD ch) = _
    rw [hr]
    rfl
  constructor
  · intro h
    obtain ⟨v, hv, hrenumbered⟩ := h
    obtain rfl := Option.some.inj (hupstream.symm.trans hv)
    rw [hsize] at hrenumbered
    refine ⟨fun d k c ch hch => ?_, fun d ds hds => ?_⟩
    · rcases hrenumbered.channels d k c ch hch with hchannel | ⟨kind, herror⟩
      · obtain ⟨ch', hch', hnote, -, hfull, hown⟩ := hchannel
        obtain ⟨d₁, k₁, c₁, ch₁, r, hch₁, hr, heq⟩ := hmoving.telling _ hnote
        obtain ⟨rfl, hmessage⟩ := Note.downstream.inj heq
        obtain ⟨rfl, hpre⟩ := Mining.setExtranoncePrefix.inj hmessage
        obtain ⟨hvalue, hr₁, -, -⟩ := hmoves _ _ _ _ hch₁ r hr
        by_cases hk : k₁ = k
        · subst hk
          obtain rfl := Option.some.inj (hch.symm.trans hch₁)
          obtain rfl := Option.some.inj (hch'.symm.trans hvalue)
          exact (ChannelsSv2.moved_iff hlaw laws haccepts hfits).mp ⟨r, hr, hfull⟩
        · -- the message was for the other kind, whose channel has this prefix
          exact absurd (hr₁.trans hpre.symm) (hown d k₁ c r.2 (fun hsame => hk hsame.2.1) hvalue)
      · rw [hok] at herror
        cases herror
    · have hsame := hgroups d
      rw [hds] at hsame
      obtain ⟨ds', hds', hgroup⟩ := Option.map_eq_some_iff.mp hsame
      rw [← hgroup]
      exact hrenumbered.groups d ds' hds'
  · intro h
    obtain ⟨hchannels, hsizes⟩ := h
    have hall : ∀ d k c ch, s.channel? d k c = some ch → ∃ r,
        api.moved ⟨p, p.length + api.upstreamRollable u⟩ (slots d k c) k ch = some r ∧
          api.extranonceSize k r.2 = p.length + api.upstreamRollable u := fun d k c ch hch =>
      (ChannelsSv2.moved_iff hlaw laws haccepts hfits).mpr (hchannels d k c ch hch)
    refine ⟨u', hupstream, fun d k c ch hch => .inl ?_, fun d ds hds => ?_⟩
    · obtain ⟨r, hr, hfull⟩ := hall d k c ch hch
      obtain ⟨hvalue, hpre, hp, hnote⟩ := hmoves d k c ch hch r hr
      refine ⟨r.2, hvalue, by rwa [hpre], by rwa [hpre], hfull.trans hsize.symm, ?_⟩
      intro d' k' c' ch'' hne hch''
      cases hold : s.channel? d' k' c' with
      | none =>
          rw [hmoving.closed d' k' c' hold] at hch''
          cases hch''
      | some old =>
          obtain ⟨r', hr', -⟩ := hall d' k' c' old hold
          obtain ⟨hvalue', hpre', -, -⟩ := hmoves d' k' c' old hold r' hr'
          obtain rfl := Option.some.inj (hch''.symm.trans hvalue')
          rw [hpre, hpre']
          refine laws.distinct (ChannelsSv2.moved_eq_some.mp hr').1
            (ChannelsSv2.moved_eq_some.mp hr).1 fun hslot => hne ?_
          exact hslots d k c d' k' c' (by rw [hch]; rfl) (by rw [hold]; rfl) hslot.symm
            (hchannels d k c ch hch).1
    · have hsame := hgroups d
      rw [hds] at hsame
      obtain ⟨ds', hds', hgroup⟩ := Option.map_eq_some_iff.mp hsame.symm
      rw [hsize, ← hsizes d ds' hds', hgroup]

end ChannelManager

namespace Client

/-- A coinbase-only client with an upstream channel and a channel of its own. -/
def openClient : Client slotted :=
  Runs.exec step (start sampleOutputs 4) acceptedRun

/-- A prefix of the same length. -/
theorem renumbered_iff_openClient :
    (∃ u', (openClient.manager.handleSetExtranoncePrefix [3, 4] ownSlot).value.upstreamChannel =
          some u' ∧
        ChannelManager.Renumbered slottedGroupSize openClient.manager [3, 4]
          (slotted.upstreamFullSize u')
          (openClient.manager.handleSetExtranoncePrefix [3, 4] ownSlot)) ↔
      (∀ d k c ch, openClient.manager.channel? d k c = some ch → ownSlot d k c < jdcMaxChannels ∧
          (k = .extended → slotted.rollableExtranonceSize ch + localPrefixBytes = 8)) ∧
        ∀ d ds, openClient.manager.downstream.lookup d = some ds →
          slottedGroupSize ds.groupChannel = [3, 4].length + 8 :=
  ChannelManager.renumbered_iff slotted_lawful slotted_allocator slottedGroupSize
    openClient.manager [3, 4] ownSlot _ rfl (ownSlots_ownSlot _) (fun kind h => by
      have hok : (openClient.manager.handleSetExtranoncePrefix [3, 4] ownSlot).error = none := by
        decide +kernel
      rw [hok] at h
      cases h)

/-- A longer prefix, of which every channel gets one: the group keeps the size it had. -/
theorem longer_prefix_leaves_group :
    (∀ kind, (openClient.manager.handleSetExtranoncePrefix [3, 4, 5] ownSlot).error ≠
        some (.fallback kind)) ∧
      ∃ u', (openClient.manager.handleSetExtranoncePrefix [3, 4, 5] ownSlot).value.upstreamChannel =
          some u' ∧
        ¬ ChannelManager.Renumbered slottedGroupSize openClient.manager [3, 4, 5]
          (slotted.upstreamFullSize u')
          (openClient.manager.handleSetExtranoncePrefix [3, 4, 5] ownSlot) := by
  have hok : (openClient.manager.handleSetExtranoncePrefix [3, 4, 5] ownSlot).error = none := by
    decide +kernel
  refine ⟨fun kind h => ?_, _, rfl, fun h => ?_⟩
  · rw [hok] at h
    cases h
  · have hgroup : ((openClient.manager.handleSetExtranoncePrefix [3, 4, 5]
        ownSlot).value.downstream.lookup 0).map (fun ds => slottedGroupSize ds.groupChannel) =
          some 10 := by decide +kernel
    obtain ⟨ds, hds, hten⟩ := Option.map_eq_some_iff.mp hgroup
    have heleven : slottedGroupSize ds.groupChannel = 11 := h.groups 0 ds hds
    omega

end Client

end GridPoolSv2.JobDeclaratorClient
