import GridPoolSv2.Lib.Retention
import GridPoolSv2.Translator.ChannelManager

/-!
# Translator.GroupChannels: the upstream regroups its channels

`handle_set_group_channel` takes the named channels out of every group, removes the groups that
are left empty, and fills the named group, or a new one. It is meant to leave a group that was
there in place, with the jobs the group stored.

It does so unless one of two things happens (`regroups_iff`):

* The names are ids of the upstream, but they are looked up among the keys of the channel map. In
  aggregated mode those are the sentinel and the ids of the downstreams.
* The group that is named has no member that is not: it is empty after the first loop and removed,
  and its jobs with it.
-/

namespace GridPoolSv2.Translator

/-- What a group stores of the jobs it is given, and the size its members have. -/
structure GroupStore (api : ChannelsSv2) where
  Job : Type
  storedJobs : api.Group → List Job
  fullExtranonceSize : api.Group → Option Nat

/-- A group is a set of channels of one size; an empty one takes a channel of any size. Its jobs
have nothing to do with its members. -/
structure GroupStore.Lawful {api : ChannelsSv2} (store : GroupStore api) : Prop where
  newGroup : ∀ {g}, api.members (api.newGroup g) = [] ∧ store.storedJobs (api.newGroup g) = []
  removeChannelId : ∀ {group c},
    (∀ x, x ∈ api.members (api.removeChannelId group c) ↔ x ∈ api.members group ∧ x ≠ c) ∧
      store.storedJobs (api.removeChannelId group c) = store.storedJobs group
  addChannelId : ∀ {group c n},
    api.members group = [] ∨ store.fullExtranonceSize group = some n →
      ∃ group', api.addChannelId group c n = some group' ∧
        (∀ x, x ∈ api.members group' ↔ x = c ∨ x ∈ api.members group) ∧
        store.storedJobs group' = store.storedJobs group ∧
        store.fullExtranonceSize group' = some n

namespace ChannelsSv2

variable (api : ChannelsSv2)

/-- `get_full_extranonce_size`. -/
def fullExtranonceSize (ch : api.Channel) : Nat :=
  (api.extranoncePrefix ch).bytes.length + (api.rollableExtranonceSize ch).toNat

end ChannelsSv2

variable {api : ChannelsSv2} {store : GroupStore api}

section Members

variable (laws : store.Lawful)
include laws

/-- A member is left if it is not named. -/
theorem mem_members_foldl_removeChannelId (cs : List ChannelId) (group : api.Group)
    (x : ChannelId) :
    x ∈ api.members (cs.foldl api.removeChannelId group) ↔
      x ∈ api.members group ∧ x ∉ cs := by
  induction cs generalizing group with
  | nil => simp
  | cons c cs ih =>
      rw [List.foldl_cons, ih, laws.removeChannelId.1, List.mem_cons, not_or, and_assoc]

theorem storedJobs_foldl_removeChannelId (cs : List ChannelId) (group : api.Group) :
    store.storedJobs (cs.foldl api.removeChannelId group) = store.storedJobs group := by
  induction cs generalizing group with
  | nil => rfl
  | cons c cs ih => rw [List.foldl_cons, ih, laws.removeChannelId.2]

/-- A group is named as a whole when no member is left without its channels. -/
theorem members_foldl_removeChannelId_eq_nil (cs : List ChannelId) (group : api.Group) :
    api.members (cs.foldl api.removeChannelId group) = [] ↔ ∀ c ∈ api.members group, c ∈ cs := by
  rw [List.eq_nil_iff_forall_not_mem]
  refine forall_congr' fun c => ?_
  rw [mem_members_foldl_removeChannelId laws, not_and, not_not]

end Members

namespace ChannelManager

variable (s : ChannelManager api)

/-- The channel the upstream has under this id. In aggregated mode there is one; the map keeps it
under the sentinel. -/
def openUpstream (c : ChannelId) : Option api.Channel :=
  match s.mode with
  | .aggregated =>
      (s.extendedChannels.lookup aggregatedChannelId).filter fun ch => api.channelId ch = c
  | .nonAggregated => s.extendedChannels.lookup c

/-- The channel `c` is a member of the group `g`. -/
def IsMember (g c : ChannelId) : Prop :=
  ∃ group, s.groupChannels.lookup g = some group ∧ c ∈ api.members group

/-- The groups after `SetGroupChannel`, as the message asks for them. -/
structure Regrouped (store : GroupStore api) (s s' : ChannelManager api) (m : SetGroupChannel) :
    Prop where
  named : ∀ c, s'.IsMember m.groupChannelId c ↔ c ∈ m.channelIds
  moved : ∀ c ∈ m.channelIds, ∀ g, g ≠ m.groupChannelId → ¬ s'.IsMember g c
  others : ∀ c, c ∉ m.channelIds → ∀ g, g ≠ m.groupChannelId → (s'.IsMember g c ↔ s.IsMember g c)
  jobs : ∀ group, s.groupChannels.lookup m.groupChannelId = some group →
    ∃ group', s'.groupChannels.lookup m.groupChannelId = some group' ∧
      ∀ j ∈ store.storedJobs group, j ∈ store.storedJobs group'

variable {s}

/-! ### The groups without the named channels -/

/-- What is left of a group: nothing, when every member of it is named. -/
theorem lookup_groupsWithout (groups : AList fun _ : ChannelId => api.Group)
    (cs : List ChannelId) (g : ChannelId) :
    (groupsWithout groups cs).lookup g =
      ((groups.lookup g).map (cs.foldl api.removeChannelId)).filter
        fun group => ¬ api.members group = [] := by
  have hvisit := Visit.visit_keep_lookup (N := Unit) (E := Unit)
    (fun _ group => cs.foldl api.removeChannelId group) groups g
  simp only [groupsWithout]
  generalize (Visit.visit (N := Unit) (E := Unit)
    (fun _ group => .keep (cs.foldl api.removeChannelId group)) groups).value = rest at hvisit ⊢
  rw [← hvisit, ← List.foldl_map (f := Sigma.fst) (g := fun gs k => AList.erase k gs)]
  have hmem : g ∈ (rest.entries.filter fun x => (api.members x.2).isEmpty).map Sigma.fst ↔
      ∃ group, rest.lookup g = some group ∧ api.members group = [] := by
    simp only [List.mem_map, List.mem_filter, List.isEmpty_iff]
    constructor
    · intro h
      obtain ⟨⟨k, group⟩, ⟨hentry, hempty⟩, rfl⟩ := h
      exact ⟨group, AList.mem_lookup_iff.mpr hentry, hempty⟩
    · intro h
      obtain ⟨group, hgroup, hempty⟩ := h
      exact ⟨⟨g, group⟩, ⟨AList.mem_lookup_iff.mp hgroup, hempty⟩, rfl⟩
  by_cases hg : g ∈ (rest.entries.filter fun x => (api.members x.2).isEmpty).map Sigma.fst
  · obtain ⟨group, hgroup, hempty⟩ := hmem.mp hg
    rw [hgroup, Option.filter_some, if_neg (by simpa using hempty)]
    exact AList.lookup_eq_none.mpr fun h => ((Retention.mem_foldl_erase _ _).mp h).2 hg
  · rw [Retention.lookup_foldl_erase _ _ hg]
    cases hgroup : rest.lookup g with
    | none => rfl
    | some group =>
        rw [Option.filter_some, if_pos]
        simpa using fun hempty => hg (hmem.mpr ⟨group, hgroup, hempty⟩)

/-! ### The named channels -/

/-- Adding stops at a name that is not a key of the channel map. -/
theorem isKey_of_addMembers {cs : List ChannelId} {group group' : api.Group}
    (h : s.addMembers group cs = .ok group') : ∀ c ∈ cs, c ∈ s.extendedChannels := by
  induction cs generalizing group with
  | nil => simp
  | cons c cs ih =>
      simp only [addMembers] at h
      split at h
      · cases h
      · rename_i ch hch
        split at h
        · cases h
        · intro x hx
          rcases List.mem_cons.mp hx with rfl | hx
          · exact AList.lookup_isSome.mp (by rw [hch]; rfl)
          · exact ih h x hx

/-- Channels of one size join a group that is empty or has this size. -/
theorem addMembers_ok (laws : store.Lawful) {cs : List ChannelId} {n : Nat}
    (hsize : ∀ c ∈ cs, ∃ ch, s.extendedChannels.lookup c = some ch ∧
      api.fullExtranonceSize ch = n) {group : api.Group}
    (hgroup : api.members group = [] ∨ store.fullExtranonceSize group = some n) :
    ∃ group', s.addMembers group cs = .ok group' ∧
      (∀ x, x ∈ api.members group' ↔ x ∈ cs ∨ x ∈ api.members group) ∧
      store.storedJobs group' = store.storedJobs group := by
  induction cs generalizing group with
  | nil => exact ⟨group, rfl, by simp, rfl⟩
  | cons c cs ih =>
      obtain ⟨ch, hch, hn⟩ := hsize c List.mem_cons_self
      obtain ⟨group₁, hadd, hmembers₁, hjobs₁, hsize₁⟩ := laws.addChannelId (c := c) hgroup
      obtain ⟨group', hrest, hmembers, hjobs⟩ :=
        ih (fun c hc => hsize c (List.mem_cons_of_mem _ hc)) (.inr hsize₁)
      refine ⟨group', ?_, fun x => ?_, hjobs.trans hjobs₁⟩
      · rw [← hn] at hadd
        simp only [addMembers, hch]
        change api.addChannelId group c ((api.extranoncePrefix ch).bytes.length +
          (api.rollableExtranonceSize ch).toNat) = some group₁ at hadd
        simp only [hadd]
        exact hrest
      · rw [hmembers, hmembers₁, List.mem_cons]
        tauto

/-! ### The handler -/

/-- The group that is filled, once it has lost its members. -/
def targetGroup (s : ChannelManager api) (m : SetGroupChannel) : api.Group :=
  match (groupsWithout s.groupChannels m.channelIds).lookup m.groupChannelId with
  | some group => ((api.members group).filter (· ∉ m.channelIds)).foldl api.removeChannelId group
  | none => api.newGroup m.groupChannelId

theorem handleSetGroupChannel_eq (m : SetGroupChannel) :
    s.handleSetGroupChannel m =
      (s.addMembers (s.targetGroup m) m.channelIds).map fun group =>
        { manager :=
            { s with
              groupChannels := (groupsWithout s.groupChannels m.channelIds).insert
                m.groupChannelId group } } := by
  have hadd : ∀ (group : api.Group) (cs : List ChannelId),
      addMembers { s with groupChannels := groupsWithout s.groupChannels m.channelIds } group cs =
        s.addMembers group cs := by
    intro group cs
    induction cs generalizing group with
    | nil => rfl
    | cons c cs ih => simp only [addMembers, ih]
  simp only [handleSetGroupChannel, hadd]
  split
  · rename_i e he
    have hfilled : s.addMembers (s.targetGroup m) m.channelIds = .error e := he
    rw [hfilled]
    rfl
  · rename_i group hgroup
    have hfilled : s.addMembers (s.targetGroup m) m.channelIds = .ok group := hgroup
    rw [hfilled]
    rfl

/-- No member that is left in the group that is filled was named, and the others are removed. -/
theorem members_targetGroup (laws : store.Lawful) (m : SetGroupChannel) :
    api.members (s.targetGroup m) = [] := by
  unfold targetGroup
  split
  · rename_i group hgroup
    rw [members_foldl_removeChannelId_eq_nil laws]
    intro c hc
    rw [lookup_groupsWithout] at hgroup
    obtain ⟨hgroup, -⟩ := Option.filter_eq_some_iff.mp hgroup
    obtain ⟨group, -, rfl⟩ := Option.map_eq_some_iff.mp hgroup
    have hnot := ((mem_members_foldl_removeChannelId laws _ _ _).mp hc).2
    exact List.mem_filter.mpr ⟨hc, by simpa using hnot⟩
  · exact laws.newGroup.1

/-- **A group keeps its jobs when it keeps a member**; otherwise it is made anew. -/
theorem storedJobs_targetGroup (laws : store.Lawful) {m : SetGroupChannel} {group : api.Group}
    [Decidable (∀ c ∈ api.members group, c ∈ m.channelIds)]
    (hgroup : s.groupChannels.lookup m.groupChannelId = some group) :
    store.storedJobs (s.targetGroup m) =
      if ∀ c ∈ api.members group, c ∈ m.channelIds then [] else store.storedJobs group := by
  unfold targetGroup
  rw [lookup_groupsWithout, hgroup, Option.map_some, Option.filter_some]
  by_cases hall : ∀ c ∈ api.members group, c ∈ m.channelIds
  · have hempty := (members_foldl_removeChannelId_eq_nil laws m.channelIds group).mpr hall
    rw [if_pos hall, if_neg (by simpa using hempty)]
    exact laws.newGroup.2
  · have hleft := mt (members_foldl_removeChannelId_eq_nil laws m.channelIds group).mp hall
    rw [if_neg hall, if_pos (by simpa using hleft)]
    exact (storedJobs_foldl_removeChannelId laws _ _).trans
      (storedJobs_foldl_removeChannelId laws _ _)

/-- What the groups are once the target group is filled. -/
theorem regrouped_of_filled (laws : store.Lawful) {m : SetGroupChannel} {group' : api.Group}
    (hmembers : ∀ c, c ∈ api.members group' ↔ c ∈ m.channelIds)
    (hjobs : ∀ group, s.groupChannels.lookup m.groupChannelId = some group →
      ∀ j ∈ store.storedJobs group, j ∈ store.storedJobs group') :
    Regrouped store s
      { s with
        groupChannels := (groupsWithout s.groupChannels m.channelIds).insert
          m.groupChannelId group' } m := by
  have htarget : ((groupsWithout s.groupChannels m.channelIds).insert m.groupChannelId
      group').lookup m.groupChannelId = some group' := AList.lookup_insert _
  have hother : ∀ g, g ≠ m.groupChannelId →
      ((groupsWithout s.groupChannels m.channelIds).insert m.groupChannelId group').lookup g =
        (groupsWithout s.groupChannels m.channelIds).lookup g := fun g hg =>
    AList.lookup_insert_ne hg
  -- in the other groups exactly the named channels are missing
  have hiff : ∀ g, g ≠ m.groupChannelId → ∀ c,
      IsMember { s with
        groupChannels := (groupsWithout s.groupChannels m.channelIds).insert
          m.groupChannelId group' } g c ↔ s.IsMember g c ∧ c ∉ m.channelIds := by
    intro g hg c
    simp only [IsMember]
    rw [hother g hg, lookup_groupsWithout]
    constructor
    · intro h
      obtain ⟨group, hgroup, hc⟩ := h
      obtain ⟨hgroup, -⟩ := Option.filter_eq_some_iff.mp hgroup
      obtain ⟨old, hold, rfl⟩ := Option.map_eq_some_iff.mp hgroup
      obtain ⟨hc, hnot⟩ := (mem_members_foldl_removeChannelId laws _ _ _).mp hc
      exact ⟨⟨old, hold, hc⟩, hnot⟩
    · intro h
      obtain ⟨⟨old, hold, hc⟩, hnot⟩ := h
      have hc := (mem_members_foldl_removeChannelId laws m.channelIds old c).mpr ⟨hc, hnot⟩
      refine ⟨m.channelIds.foldl api.removeChannelId old, ?_, hc⟩
      rw [hold, Option.map_some, Option.filter_some, if_pos]
      simpa using List.ne_nil_of_mem hc
  refine ⟨fun c => ?_, fun c hc g hg h => ?_, fun c hc g hg => ?_, fun group hgroup => ?_⟩
  · rw [← hmembers]
    constructor
    · intro h
      obtain ⟨group, hgroup, hc⟩ := h
      obtain rfl := Option.some.inj (htarget.symm.trans hgroup)
      exact hc
    · exact fun hc => ⟨group', htarget, hc⟩
  · exact ((hiff g hg c).mp h).2 hc
  · rw [hiff g hg, and_iff_left hc]
  · exact ⟨group', htarget, hjobs group hgroup⟩

/-- The channels of the upstream that are looked up have one size: in aggregated mode there is
only one name. -/
theorem one_size {cs : List ChannelId} {n : Nat}
    (hopen : ∀ c ∈ cs, ∃ ch, s.openUpstream c = some ch ∧ api.fullExtranonceSize ch = n)
    (hkeys : ∀ c ∈ cs, c ∈ s.extendedChannels) :
    ∃ k, ∀ c ∈ cs, ∃ ch, s.extendedChannels.lookup c = some ch ∧ api.fullExtranonceSize ch = k := by
  cases hmode : s.mode with
  | nonAggregated =>
      refine ⟨n, fun c hc => ?_⟩
      obtain ⟨ch, hch, hn⟩ := hopen c hc
      simp only [openUpstream, hmode] at hch
      exact ⟨ch, hch, hn⟩
  | aggregated =>
      cases cs with
      | nil => exact ⟨0, by simp⟩
      | cons c₀ cs =>
          obtain ⟨ch₀, hch₀⟩ := Option.isSome_iff_exists.mp
            (AList.lookup_isSome.mpr (hkeys c₀ List.mem_cons_self))
          refine ⟨api.fullExtranonceSize ch₀, fun c hc => ⟨ch₀, ?_, rfl⟩⟩
          obtain ⟨a, ha, -⟩ := hopen c₀ List.mem_cons_self
          obtain ⟨b, hb, -⟩ := hopen c hc
          simp only [openUpstream, hmode] at ha hb
          obtain ⟨ha, hid₀⟩ := Option.filter_eq_some_iff.mp ha
          obtain ⟨hb, hid⟩ := Option.filter_eq_some_iff.mp hb
          obtain rfl := Option.some.inj (ha.symm.trans hb)
          have hsame : c = c₀ := (of_decide_eq_true hid).symm.trans (of_decide_eq_true hid₀)
          rw [hsame, hch₀]

/-- **When the handler regroups the channels as it is asked to**: every name is a key of the
channel map, and a group that is there has no jobs or keeps a member through the first loop. -/
theorem regroups_iff (laws : store.Lawful) (s : ChannelManager api) (m : SetGroupChannel) (n : Nat)
    (hopen : ∀ c ∈ m.channelIds, ∃ ch, s.openUpstream c = some ch ∧
      api.fullExtranonceSize ch = n) :
    (∃ r, s.handleSetGroupChannel m = .ok r ∧ Regrouped store s r.manager m) ↔
      (∀ c ∈ m.channelIds, c ∈ s.extendedChannels) ∧
        ∀ group, s.groupChannels.lookup m.groupChannelId = some group →
          store.storedJobs group = [] ∨ ∃ c ∈ api.members group, c ∉ m.channelIds := by
  rw [handleSetGroupChannel_eq]
  constructor
  · intro h
    obtain ⟨r, hr, hregrouped⟩ := h
    cases hadd : s.addMembers (s.targetGroup m) m.channelIds with
    | error e =>
        rw [hadd] at hr
        cases hr
    | ok group' =>
        have hkeys := isKey_of_addMembers hadd
        obtain ⟨k, hsize⟩ := one_size hopen hkeys
        obtain ⟨group₁, hadd₁, -, hjobs⟩ :=
          addMembers_ok laws hsize (.inl (members_targetGroup laws m))
        obtain rfl := Except.ok.inj (hadd.symm.trans hadd₁)
        rw [hadd] at hr
        obtain rfl := Except.ok.inj hr
        refine ⟨hkeys, fun group hgroup => ?_⟩
        by_cases hall : ∀ c ∈ api.members group, c ∈ m.channelIds
        · refine .inl (List.eq_nil_iff_forall_not_mem.mpr fun j hj => ?_)
          obtain ⟨group₂, hlookup, hkept⟩ := hregrouped.jobs group hgroup
          obtain rfl := Option.some.inj ((AList.lookup_insert _).symm.trans hlookup)
          have hj := hkept j hj
          rw [hjobs, storedJobs_targetGroup laws hgroup, if_pos hall] at hj
          cases hj
        · push Not at hall
          exact .inr hall
  · intro h
    obtain ⟨hkeys, hkept⟩ := h
    obtain ⟨k, hsize⟩ := one_size hopen hkeys
    obtain ⟨group', hadd, hmembers, hjobs⟩ :=
      addMembers_ok laws hsize (.inl (members_targetGroup laws m))
    rw [hadd]
    refine ⟨_, rfl, regrouped_of_filled laws (fun c => ?_) fun group hgroup j hj => ?_⟩
    · rw [hmembers, members_targetGroup laws]
      simp
    · rw [hjobs, storedJobs_targetGroup laws hgroup, if_neg]
      · exact hj
      · rcases hkept group hgroup with hnone | ⟨c, hc, hnot⟩
        · rw [hnone] at hj
          cases hj
        · exact fun hall => hnot (hall c hc)

/-! ### With the reference channels -/

/-- The reference channels, with groups that remove a channel wherever it stands. -/
def setChannels : ChannelsSv2 :=
  { referenceChannels with
    removeChannelId := fun (group : RefGroup) c =>
      { group with members := group.members.filter (· ≠ c) } }

/-- Their groups store the ids of the future jobs. -/
def futureJobIdStore : GroupStore setChannels where
  Job := UInt32
  storedJobs := RefGroup.futureJobIds
  fullExtranonceSize := RefGroup.fullExtranonceSize

theorem futureJobIdStore_lawful : futureJobIdStore.Lawful where
  newGroup := ⟨rfl, rfl⟩
  removeChannelId := by
    intro group c
    refine ⟨fun x => ?_, rfl⟩
    change x ∈ (RefGroup.members group).filter (· ≠ c) ↔ x ∈ RefGroup.members group ∧ x ≠ c
    simp
  addChannelId := by
    intro group c n h
    exact ⟨{ group with
      members := (RefGroup.members group).insert c, fullExtranonceSize := some n },
      if_pos h, fun x => List.mem_insert_iff, rfl, rfl⟩

/-- Channels 7 and 8 of 12 bytes in a group that has a future job. -/
def twoMembers : ChannelManager setChannels :=
  { ChannelManager.new .nonAggregated none false with
    extendedChannels := (AList.insert 7
      { channelId := 7, extranoncePrefix := ⟨[1, 2, 3, 4], none⟩, rollable := 8, target := 1000 }
      (AList.insert 8
        { channelId := 8, extranoncePrefix := ⟨[1, 2, 3, 5], none⟩, rollable := 8, target := 1000 }
        ∅) : AList fun _ : ChannelId => RefChannel)
    groupChannels := (AList.insert 3
      { groupChannelId := 3
        members := [7, 8]
        fullExtranonceSize := some 12
        futureJobIds := [5] } ∅ : AList fun _ : ChannelId => RefGroup) }

/-- Channel 7 stays in the group, and the group keeps its job. -/
theorem regroups_iff_twoMembers :
    ∃ r, twoMembers.handleSetGroupChannel ⟨3, [7]⟩ = .ok r ∧
      Regrouped futureJobIdStore twoMembers r.manager ⟨3, [7]⟩ := by
  refine (regroups_iff futureJobIdStore_lawful twoMembers ⟨3, [7]⟩ 12 ?_).mpr ⟨?_, ?_⟩
  · intro c hc
    obtain rfl := List.mem_singleton.mp hc
    exact ⟨_, rfl, rfl⟩
  · intro c hc
    obtain rfl := List.mem_singleton.mp hc
    exact AList.lookup_isSome.mp rfl
  · intro group hgroup
    obtain rfl := Option.some.inj hgroup
    exact .inr ⟨8, by decide, by decide⟩

/-- The upstream opens the channel 7 in the group 3 and announces a future job to the group. -/
def openedChannel (mode : TproxyMode) : Except Fatal (ChannelManager setChannels) := do
  let requested ← (ChannelManager.new mode none false).handleDownstreamMessage
    (.openExtendedMiningChannel
      { requestId := 0, userIdentity := "a".toList, maxTarget := 1000, minExtranonceSize := 4 })
  let granted ← requested.manager.handleUpstreamFrame UInt32.toNat
    (.openExtendedMiningChannelSuccess
      { requestId := 0
        channelId := 7
        target := 1000
        extranonceSize := 8
        extranoncePrefix := [1, 2, 3, 4]
        groupChannelId := 3
        prefix_le := by decide })
  let announced ← granted.manager.handleUpstreamFrame UInt32.toNat
    (.newExtendedMiningJob
      { channelId := 3
        jobId := 5
        minNtime := none
        version := 0x20000000
        versionRollingAllowed := true
        merklePath := []
        coinbaseTxPrefix := []
        coinbaseTxSuffix := [] })
  return announced.manager

/-- The upstream then names that channel as the one of the same group. -/
def LosesGroup (mode : TproxyMode) : Prop :=
  ∃ s, openedChannel mode = .ok s ∧
    (∃ ch, s.openUpstream 7 = some ch ∧ setChannels.fullExtranonceSize ch = 12) ∧
    ¬ ∃ r, s.handleSetGroupChannel ⟨3, [7]⟩ = .ok r ∧
      Regrouped futureJobIdStore s r.manager ⟨3, [7]⟩

/-- In aggregated mode the task falls back; in non-aggregated mode the group is made anew and has
no jobs. -/
theorem same_group_lost : LosesGroup .aggregated ∧ LosesGroup .nonAggregated := by
  refine ⟨⟨_, rfl, ⟨_, rfl, rfl⟩, fun h => ?_⟩, ⟨_, rfl, ⟨_, rfl, rfl⟩, fun h => ?_⟩⟩
  · obtain ⟨r, hr, -⟩ := h
    cases hr
  · obtain ⟨r, hr, hregrouped⟩ := h
    obtain rfl := Except.ok.inj hr
    obtain ⟨group', hgroup', hkept⟩ := hregrouped.jobs _ rfl
    obtain rfl := Option.some.inj hgroup'
    cases hkept (5 : UInt32) List.mem_cons_self

end ChannelManager

end GridPoolSv2.Translator
