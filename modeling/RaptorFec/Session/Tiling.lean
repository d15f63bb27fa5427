import RaptorFec.Library.Runs
import RaptorFec.Library.Tiles
import RaptorFec.Session.Honest

/-!
# What an assembly makes of any shards

The shards that are pushed into an assembly come from the network: nothing is known of them but
that their headers pass the checks of the codec.

**Which shards count.**  `SameEpoch` and `SameGroup` are the fields the two assemblies compare.
`acceptedShards` are the shards of a group that agree with the first of them, and `firstFragment`
is the first of those for one fragment.

**What a group is made of.**  `Collects` says that an assembly of a group holds these fragments.
`Collects.push` is the step; a group that it completes is tiled by them (`CompletedFrom`).

**What an epoch is made of.**  `Assembles` says the same of all groups of an epoch, and
`EpochAssembly.tiled_of_decoded` is the theorem about every run.
-/

namespace RaptorFec

/-! ## Which shards count -/

namespace MultichannelAudioShardHeader

/-- The headers agree in what the assembly of an epoch compares. -/
def SameEpoch (a b : MultichannelAudioShardHeader) : Prop :=
  a.sessionId = b.sessionId ∧ a.configGeneration = b.configGeneration ∧ a.epochId = b.epochId ∧
    a.ptsSamples = b.ptsSamples ∧ a.sampleRate = b.sampleRate ∧ a.frameCount = b.frameCount ∧
    a.groupCount = b.groupCount ∧ a.sourceCount = b.sourceCount

instance (a b : MultichannelAudioShardHeader) : Decidable (a.SameEpoch b) :=
  inferInstanceAs (Decidable (_ ∧ _))

/-- The headers agree in what the assembly of a group compares. -/
def SameGroup (a b : MultichannelAudioShardHeader) : Prop :=
  a.groupId = b.groupId ∧ a.groupIndex = b.groupIndex ∧ a.channelStart = b.channelStart ∧
    a.channelCount = b.channelCount ∧ a.payloadKind = b.payloadKind ∧
    a.sampleFormat = b.sampleFormat ∧ a.flags = b.flags ∧ a.fragmentCount = b.fragmentCount ∧
    a.groupPayloadLen = b.groupPayloadLen

instance (a b : MultichannelAudioShardHeader) : Decidable (a.SameGroup b) :=
  inferInstanceAs (Decidable (_ ∧ _))

end MultichannelAudioShardHeader

/-- The bytes of a shard with their place in the group. -/
def DecodedMultichannelAudioShard.fragment (shard : DecodedMultichannelAudioShard) : Fragment :=
  ⟨shard.header.payloadOffset, shard.payload⟩

/-- The shards of a group of the epoch that the first header belongs to. -/
def groupShards (first : MultichannelAudioShardHeader) (groupIndex : UInt16)
    (shards : List DecodedMultichannelAudioShard) : List DecodedMultichannelAudioShard :=
  shards.filter fun shard => first.SameEpoch shard.header ∧ shard.header.groupIndex = groupIndex

/-- Those of them that agree with the first one. -/
def acceptedShards (first : MultichannelAudioShardHeader) (groupIndex : UInt16)
    (shards : List DecodedMultichannelAudioShard) : List DecodedMultichannelAudioShard :=
  (groupShards first groupIndex shards).filter fun shard =>
    (groupShards first groupIndex shards).head?.all fun head => head.header.SameGroup shard.header

/-- The first shard of a fragment. -/
def firstFragment (shards : List DecodedMultichannelAudioShard) (f : ℕ) :
    Option DecodedMultichannelAudioShard :=
  shards.find? fun shard => shard.header.fragmentIndex.toNat = f

/-- The group is made of the first accepted shards of its fragments. -/
structure CompletedFrom (accepted : List DecodedMultichannelAudioShard)
    (group : DecodedMultichannelAudioGroup) : Prop where
  nonempty : accepted ≠ []
  announced : ∀ shard ∈ accepted, shard.header.groupIndex = group.groupIndex ∧
    shard.header.groupPayloadLen.toNat = group.payload.length
  tiled : ∃ fragments : List DecodedMultichannelAudioShard,
    (∀ shard ∈ accepted, shard.header.fragmentCount.toNat = fragments.length) ∧
    (∀ f < fragments.length, firstFragment accepted f = fragments[f]?) ∧
    Tiles (fun shard => shard.header.payloadOffset.toNat)
      DecodedMultichannelAudioShard.payload group.payload fragments

variable {accepted : List DecodedMultichannelAudioShard} {shard : DecodedMultichannelAudioShard}

/-- A later shard changes nothing for the fragments that are there. -/
lemma firstFragment_snoc (f : ℕ) : firstFragment (accepted ++ [shard]) f
    = (firstFragment accepted f).or
      (if shard.header.fragmentIndex.toNat = f then some shard else none) := by
  rw [firstFragment, List.find?_append, firstFragment]
  by_cases hf : shard.header.fragmentIndex.toNat = f <;> simp [hf]

/-! ## Groups -/

lemma requireEqual_eq_ok_iff {α : Type} [DecidableEq α] {error : MultichannelAudioSessionError}
    {expected actual : α} : requireEqual error expected actual = .ok () ↔ expected = actual := by
  rw [requireEqual]
  split_ifs with h
  · simp [h]
  · simp [not_not.mp h]

/-- A chain of comparisons. -/
lemma requireEqual_bind_eq_ok_iff {α : Type} [DecidableEq α]
    {error : MultichannelAudioSessionError} {expected actual : α}
    {next : Unit → Except MultichannelAudioSessionError Unit} :
    (requireEqual error expected actual >>= next) = .ok ()
      ↔ expected = actual ∧ next () = .ok () := by
  rw [bind_eq_ok_iff]
  constructor
  · rintro ⟨⟨⟩, heq, hnext⟩
    exact ⟨requireEqual_eq_ok_iff.mp heq, hnext⟩
  · rintro ⟨heq, hnext⟩
    exact ⟨(), requireEqual_eq_ok_iff.mpr heq, hnext⟩

lemma GroupAssembly.validateHeader_eq_ok_iff {self : GroupAssembly}
    {header : MultichannelAudioShardHeader} :
    self.validateHeader header = .ok () ↔ self.header.SameGroup header := by
  simp only [GroupAssembly.validateHeader, requireEqual_bind_eq_ok_iff, requireEqual_eq_ok_iff,
    MultichannelAudioShardHeader.SameGroup]

/-- The assembly of a group with the first of some shards for each fragment. -/
structure Collects (head : MultichannelAudioShardHeader)
    (accepted : List DecodedMultichannelAudioShard) (assembly : GroupAssembly) : Prop where
  header : assembly.header = head
  same : ∀ shard ∈ accepted, head.SameGroup shard.header
  fragments : assembly.fragments = (List.range head.fragmentCount.toNat).map fun f =>
    (firstFragment accepted f).map DecodedMultichannelAudioShard.fragment

lemma collects_new (blockId : UInt32) (head : MultichannelAudioShardHeader) :
    Collects head [] (GroupAssembly.new blockId head) where
  header := rfl
  same := List.forall_mem_nil _
  fragments := by
    rw [GroupAssembly.new]
    exact List.ext_getElem (by simp) fun f _ _ => by simp [firstFragment]

variable {head : MultichannelAudioShardHeader} {assembly : GroupAssembly}

/-- A shard of a fragment that is there is not stored. -/
lemma Collects.skip (h : Collects head accepted assembly) (hsame : head.SameGroup shard.header)
    {stored : DecodedMultichannelAudioShard}
    (hstored : firstFragment accepted shard.header.fragmentIndex.toNat = some stored) :
    Collects head (accepted ++ [shard]) assembly where
  header := h.header
  same := List.forall_mem_append.mpr ⟨h.same, by simpa using hsame⟩
  fragments := by
    rw [h.fragments]
    refine List.map_congr_left fun f _ => congrArg _ ?_
    rw [firstFragment_snoc]
    split_ifs with hf
    · rw [← hf, hstored, Option.some_or]
    · rw [Option.or_none]

/-- The first shard of a fragment is stored. -/
lemma Collects.store (h : Collects head accepted assembly) (hsame : head.SameGroup shard.header)
    (hfree : firstFragment accepted shard.header.fragmentIndex.toNat = none) :
    Collects head (accepted ++ [shard]) (assembly.store shard) where
  header := h.header
  same := List.forall_mem_append.mpr ⟨h.same, by simpa using hsame⟩
  fragments := by
    rw [GroupAssembly.store, h.fragments]
    refine List.ext_getElem (by simp) fun f hf _ => ?_
    simp only [List.getElem_set, List.getElem_map, List.getElem_range, firstFragment_snoc]
    split_ifs with hindex
    · rw [← hindex, hfree]
      rfl
    · rw [Option.or_none]

/-- Fragments without gap follow each other. -/
lemma Contiguous.follow {start : ℕ} {fragments : List Fragment} (h : Contiguous start fragments) :
    Follow (fun fragment => fragment.offset.toNat) Fragment.payload start fragments := by
  induction fragments generalizing start with
  | nil => trivial
  | cons fragment fragments ih => exact ⟨h.1, ih h.2⟩

/-- The fragments that are joined tile the payload, in whatever order they are stored. -/
lemma tiles_of_joinFragments {fragments : List Fragment} {payload : Bytes}
    (h : GroupAssembly.joinFragments
      (sortByKey (fun fragment => fragment.offset.toNat) fragments) [] = some payload) :
    Tiles (fun fragment => fragment.offset.toNat) Fragment.payload payload fragments := by
  obtain ⟨hcontiguous, hpayload⟩ := GroupAssembly.joinFragments_eq_some_iff.mp h
  rw [List.nil_append] at hpayload
  rw [hpayload]
  exact hcontiguous.follow.tiles.perm (List.perm_insertionSort _ _)

/-- The group that is joined from the fragments is tiled by them. -/
lemma Collects.completedFrom (h : Collects head accepted assembly)
    (hne : accepted ≠ []) (hall : none ∉ assembly.fragments) {payload : Bytes}
    (hjoined : assembly.joined = some payload) :
    CompletedFrom accepted (assembly.toGroup payload) := by
  have hfirst : ∀ first ∈ (List.range head.fragmentCount.toNat).map (firstFragment accepted),
      first.isSome = true := by
    intro first hmem
    obtain ⟨f, hf, rfl⟩ := List.mem_map.mp hmem
    rw [Option.isSome_iff_ne_none]
    intro hnone
    refine hall (h.fragments ▸ List.mem_map.mpr ⟨f, hf, ?_⟩)
    rw [hnone, Option.map_none]
  obtain ⟨fragments, hfragments⟩ := exists_map_some hfirst
  have hlength : head.fragmentCount.toNat = fragments.length := by
    simpa using congrArg List.length hfragments
  have hstored : assembly.fragments.reduceOption
      = fragments.map DecodedMultichannelAudioShard.fragment := by
    have hmap := congrArg (List.map (Option.map DecodedMultichannelAudioShard.fragment)) hfragments
    rw [List.map_map, List.map_map] at hmap
    rw [h.fragments]
    refine (congrArg List.reduceOption hmap).trans ?_
    rw [List.reduceOption, List.filterMap_map]
    exact congrFun List.filterMap_eq_map' fragments
  obtain ⟨joined, hjoin, hlen⟩ := Option.bind_eq_some_iff.mp hjoined
  split_ifs at hlen with htotal
  obtain rfl := Option.some.inj hlen
  rw [hstored] at hjoin
  refine ⟨hne, ?_, ?_⟩
  · intro shard hshard
    obtain ⟨-, hindex, -, -, -, -, -, -, hpayloadLen⟩ := h.same shard hshard
    refine ⟨?_, ?_⟩
    · rw [← hindex, ← h.header]
      rfl
    · rw [← hpayloadLen, ← h.header]
      exact (not_not.mp htotal).symm
  · refine ⟨fragments, ?_, ?_, tiles_map.mp (tiles_of_joinFragments hjoin)⟩
    · intro shard hshard
      obtain ⟨-, -, -, -, -, -, -, hcount, -⟩ := h.same shard hshard
      rw [← hcount, hlength]
    · intro f hf
      have hget := congrArg (·[f]?) hfragments
      simpa [hlength, hf] using hget

/-- **A shard pushed into the assembly of a group.**  It is stored, or skipped, or refused; no index
is out of range, and a group that it completes is tiled. -/
theorem Collects.push (h : Collects head accepted assembly) {symbolLen : ℕ}
    (hvalid : shard.header.Valid symbolLen) :
    (assembly.push shard).1 ≠ none ∧
      Collects head (accepted ++ if head.SameGroup shard.header then [shard] else [])
        (assembly.push shard).2 ∧
      ∀ group, (assembly.push shard).1 = some (.ok (some group)) →
        head.SameGroup shard.header ∧ CompletedFrom (accepted ++ [shard]) group := by
  rw [GroupAssembly.push]
  by_cases hsame : head.SameGroup shard.header
  · have hheader : assembly.validateHeader shard.header = .ok () := by
      rw [GroupAssembly.validateHeader_eq_ok_iff, h.header]
      exact hsame
    have hindex : shard.header.fragmentIndex.toNat < head.fragmentCount.toNat := by
      obtain ⟨-, -, -, -, -, -, -, hcount, -⟩ := hsame
      rw [hcount]
      exact hvalid.fragmentIndex_lt
    have hslot : assembly.fragments[shard.header.fragmentIndex.toNat]?
        = some ((firstFragment accepted shard.header.fragmentIndex.toNat).map
          DecodedMultichannelAudioShard.fragment) := by
      simp [h.fragments, hindex]
    rw [if_pos hsame, hheader]
    simp only [hslot]
    cases hfirst : firstFragment accepted shard.header.fragmentIndex.toNat with
    | some stored =>
        refine ⟨Option.some_ne_none _, h.skip hsame hfirst, fun group hgroup => ?_⟩
        cases hgroup
    | none =>
        have hstore := h.store hsame hfirst
        simp only [Option.map_none]
        split_ifs with hnone
        · refine ⟨Option.some_ne_none _, hstore, fun group hgroup => ?_⟩
          cases hgroup
        · cases hjoined : (assembly.store shard).joined with
          | none =>
              refine ⟨Option.some_ne_none _, hstore, fun group hgroup => ?_⟩
              cases hgroup
          | some payload =>
              refine ⟨Option.some_ne_none _, hstore, fun group hgroup => ?_⟩
              obtain rfl := Option.some.inj (Except.ok.inj (Option.some.inj hgroup))
              exact ⟨hsame, hstore.completedFrom (by simp) hnone hjoined⟩
  · cases hheader : assembly.validateHeader shard.header with
    | ok _ => exact absurd (h.header ▸ GroupAssembly.validateHeader_eq_ok_iff.mp hheader) hsame
    | error error =>
        rw [if_neg hsame, List.append_nil]
        refine ⟨Option.some_ne_none _, h, fun group hgroup => ?_⟩
        cases hgroup

/-! ## Epochs -/

section Shards

variable {first : MultichannelAudioShardHeader} {groupIndex : UInt16}
  {past : List DecodedMultichannelAudioShard}

/-- The header that a shard of a group is compared with. -/
def leader (first : MultichannelAudioShardHeader) (past : List DecodedMultichannelAudioShard)
    (shard : DecodedMultichannelAudioShard) : MultichannelAudioShardHeader :=
  ((groupShards first shard.header.groupIndex past).head?.getD shard).header

/-- A shard of another group or another epoch does not count. -/
lemma groupShards_other
    (h : ¬ (first.SameEpoch shard.header ∧ shard.header.groupIndex = groupIndex)) :
    groupShards first groupIndex (past ++ [shard]) = groupShards first groupIndex past := by
  simp only [groupShards, List.filter_append, List.filter_singleton, decide_eq_false h]
  simp

lemma groupShards_own (h : first.SameEpoch shard.header) :
    groupShards first shard.header.groupIndex (past ++ [shard])
      = groupShards first shard.header.groupIndex past ++ [shard] := by
  simp [groupShards, h]

/-- A shard of the group counts when it agrees with the first one. -/
lemma acceptedShards_own (h : first.SameEpoch shard.header) :
    acceptedShards first shard.header.groupIndex (past ++ [shard])
      = acceptedShards first shard.header.groupIndex past
        ++ if (leader first past shard).SameGroup shard.header then [shard] else [] := by
  rw [acceptedShards, groupShards_own h, acceptedShards, leader]
  cases groupShards first shard.header.groupIndex past with
  | nil => simp [MultichannelAudioShardHeader.SameGroup]
  | cons head rest =>
      have happend : (head :: rest ++ [shard]).head? = some head := rfl
      rw [List.filter_append, happend]
      by_cases hgroup : head.header.SameGroup shard.header <;> simp [hgroup]

end Shards

/-- The group that a push completed, when it completed one. -/
def completedGroup :
    Option (Except MultichannelAudioSessionError (Option DecodedMultichannelAudioGroup)) →
      Option DecodedMultichannelAudioGroup
  | some (.ok group) => group
  | _ => none

/-- The assembly of an epoch after some shards, with the groups that they completed. -/
structure Assembles (first : MultichannelAudioShardHeader)
    (past : List DecodedMultichannelAudioShard) (completed : List DecodedMultichannelAudioGroup)
    (assembly : EpochAssembly) : Prop where
  checks : ∀ header, assembly.validateHeader header = .ok () ↔ first.SameEpoch header
  length : assembly.groups.length = first.groupCount.toNat
  pending : ∀ shard : DecodedMultichannelAudioShard,
    assembly.groups[shard.header.groupIndex.toNat]? = some none →
      Collects (leader first past shard) (acceptedShards first shard.header.groupIndex past)
        (assembly.groupAssembly shard.header)
  completed_iff : ∀ (g : ℕ) group, assembly.groups[g]? = some (some group)
    ↔ group ∈ completed ∧ group.groupIndex.toNat = g
  nodup : (completed.map (·.groupIndex)).Nodup

lemma assembles_new (blockId : UInt32) (first : MultichannelAudioShardHeader) :
    Assembles first [] [] (EpochAssembly.new blockId first) where
  checks header := by
    simp only [EpochAssembly.validateHeader, requireEqual_bind_eq_ok_iff, requireEqual_eq_ok_iff,
      EpochAssembly.new, MultichannelAudioShardHeader.SameEpoch]
  length := List.length_replicate ..
  pending shard _ := collects_new _ _
  completed_iff g group := by
    rw [EpochAssembly.new, List.getElem?_replicate]
    split_ifs <;> simp
  nodup := List.nodup_nil

section Epoch

variable {first : MultichannelAudioShardHeader} {past : List DecodedMultichannelAudioShard}
  {completed : List DecodedMultichannelAudioGroup} {assembly : EpochAssembly}

/-- A shard of a group that is complete, or of another epoch, changes nothing. -/
lemma Assembles.skip (h : Assembles first past completed assembly)
    (hskip : first.SameEpoch shard.header →
      assembly.groups[shard.header.groupIndex.toNat]? ≠ some none) :
    Assembles first (past ++ [shard]) completed assembly where
  checks := h.checks
  length := h.length
  pending other hopen := by
    have hother : ¬ (first.SameEpoch shard.header ∧
        shard.header.groupIndex = other.header.groupIndex) := by
      rintro ⟨hsame, hindex⟩
      exact hskip hsame (hindex ▸ hopen)
    rw [leader, acceptedShards, groupShards_other hother]
    exact h.pending other hopen
  completed_iff := h.completed_iff
  nodup := h.nodup

/-- The assembly of the shard's own group, after the shard. -/
lemma Assembles.own (h : Assembles first past completed assembly)
    (hsame : first.SameEpoch shard.header) {symbolLen : ℕ} (hvalid : shard.header.Valid symbolLen)
    (hopen : assembly.groups[shard.header.groupIndex.toNat]? = some none)
    {other : DecodedMultichannelAudioShard}
    (hindex : other.header.groupIndex = shard.header.groupIndex) :
    Collects (leader first (past ++ [shard]) other)
      (acceptedShards first other.header.groupIndex (past ++ [shard]))
      ((assembly.groupAssembly shard.header).push shard).2 := by
  have hleader : leader first (past ++ [shard]) other = leader first past shard := by
    rw [leader, hindex, groupShards_own hsame, List.head?_append, leader]
    cases (groupShards first shard.header.groupIndex past).head? <;> rfl
  rw [hleader, hindex, acceptedShards_own hsame]
  exact ((h.pending shard hopen).push hvalid).2.1

/-- The assembly of a group that is not complete is kept. -/
lemma Assembles.keep (h : Assembles first past completed assembly)
    (hsame : first.SameEpoch shard.header) {symbolLen : ℕ} (hvalid : shard.header.Valid symbolLen)
    (hopen : assembly.groups[shard.header.groupIndex.toNat]? = some none) :
    Assembles first (past ++ [shard]) completed { assembly with
      partialGroups := assembly.partialGroups.insert shard.header.groupIndex
        ((assembly.groupAssembly shard.header).push shard).2 } where
  checks := h.checks
  length := h.length
  pending other hother := by
    rw [EpochAssembly.groupAssembly, HashMap.lookup_insert_eq]
    split_ifs with hindex
    · exact h.own hsame hvalid hopen hindex
    · have hnot : ¬ (first.SameEpoch shard.header ∧
          shard.header.groupIndex = other.header.groupIndex) := fun hc => hindex hc.2.symm
      rw [leader, acceptedShards, groupShards_other hnot]
      exact h.pending other hother
  completed_iff := h.completed_iff
  nodup := h.nodup

/-- A group that is completed is stored in its place. -/
lemma Assembles.complete (h : Assembles first past completed assembly)
    (hopen : assembly.groups[shard.header.groupIndex.toNat]? = some none)
    {group : DecodedMultichannelAudioGroup} (hindex : group.groupIndex = shard.header.groupIndex) :
    Assembles first (past ++ [shard]) (completed ++ [group]) { assembly with
      partialGroups := assembly.partialGroups.erase shard.header.groupIndex
      groups := assembly.groups.set shard.header.groupIndex.toNat (some group) } where
  checks := h.checks
  length := by
    rw [List.length_set]
    exact h.length
  pending other hother := by
    have hne : other.header.groupIndex ≠ shard.header.groupIndex := by
      intro heq
      have hlt := (List.getElem?_eq_some_iff.mp hopen).1
      simp only [heq, List.getElem?_set_self hlt] at hother
      cases hother
    have hnot : ¬ (first.SameEpoch shard.header ∧
        shard.header.groupIndex = other.header.groupIndex) := fun hc => hne hc.2.symm
    have hslot : assembly.groups[other.header.groupIndex.toNat]? = some none := by
      rwa [List.getElem?_set_ne] at hother
      exact fun heq => hne (UInt16.toNat_inj.mp heq.symm)
    rw [EpochAssembly.groupAssembly, HashMap.lookup_erase_eq, if_neg hne, leader, acceptedShards,
      groupShards_other hnot]
    exact h.pending other hslot
  completed_iff g other := by
    have hlt := (List.getElem?_eq_some_iff.mp hopen).1
    rw [List.mem_append, List.mem_singleton, or_and_right, ← h.completed_iff, List.getElem?_set]
    split_ifs with hg
    · subst hg
      rw [hopen]
      simp only [Option.some.injEq, reduceCtorEq, false_or]
      constructor
      · rintro rfl
        exact ⟨rfl, congrArg UInt16.toNat hindex⟩
      · rintro ⟨rfl, -⟩
        rfl
    · refine (or_iff_left ?_).symm
      rintro ⟨rfl, hother⟩
      exact hg ((congrArg UInt16.toNat hindex).symm.trans hother)
  nodup := by
    rw [List.map_append, List.map_singleton, List.nodup_append]
    refine ⟨h.nodup, List.nodup_singleton _, ?_⟩
    rintro index hmem _ hlast rfl
    obtain ⟨other, hother, hother_index⟩ := List.mem_map.mp hmem
    have heq : other.groupIndex.toNat = shard.header.groupIndex.toNat := by
      rw [hother_index, List.mem_singleton.mp hlast, hindex]
    have hslot := (h.completed_iff _ _).mpr ⟨hother, heq⟩
    rw [hopen] at hslot
    cases hslot

/-- **A shard pushed into the assembly of an epoch.** -/
theorem Assembles.push (h : Assembles first past completed assembly) {symbolLen : ℕ}
    (hvalid : shard.header.Valid symbolLen) :
    (assembly.push shard).1 ≠ none ∧
      Assembles first (past ++ [shard])
        (completed ++ (completedGroup (assembly.push shard).1).toList) (assembly.push shard).2 ∧
      ∀ group, (assembly.push shard).1 = some (.ok (some group)) →
        CompletedFrom (acceptedShards first shard.header.groupIndex (past ++ [shard])) group ∧
          group.groupIndex = shard.header.groupIndex := by
  rw [EpochAssembly.push]
  cases hheader : assembly.validateHeader shard.header with
  | error error =>
      have hskip : Assembles first (past ++ [shard]) completed assembly := h.skip fun hsame => by
        rw [(h.checks _).mpr hsame] at hheader
        cases hheader
      refine ⟨Option.some_ne_none _, ?_, fun group hgroup => ?_⟩
      · simpa [completedGroup] using hskip
      · cases hgroup
  | ok _ =>
  have hsame := (h.checks _).mp hheader
  have hindex : shard.header.groupIndex.toNat < assembly.groups.length := by
    obtain ⟨-, -, -, -, -, -, hcount, -⟩ := hsame
    rw [h.length, hcount]
    exact hvalid.groupIndex_lt
  simp only [List.getElem?_eq_getElem hindex]
  cases hslot : assembly.groups[shard.header.groupIndex.toNat] with
  | some stored =>
      have hskip : Assembles first (past ++ [shard]) completed assembly := h.skip fun _ => by
        rw [List.getElem?_eq_getElem hindex, hslot]
        simp
      refine ⟨Option.some_ne_none _, ?_, fun group hgroup => ?_⟩
      · simpa [completedGroup] using hskip
      · cases hgroup
  | none =>
  have hopen : assembly.groups[shard.header.groupIndex.toNat]? = some none := by
    rw [List.getElem?_eq_getElem hindex, hslot]
  obtain ⟨hrange, -, hgroup⟩ := (h.pending shard hopen).push hvalid
  have hkeep := h.keep hsame hvalid hopen
  simp only
  generalize (assembly.groupAssembly shard.header).push shard = pushed at hrange hgroup hkeep ⊢
  obtain ⟨result, kept⟩ := pushed
  rcases result with - | (error | (- | group))
  · exact absurd rfl hrange
  · refine ⟨Option.some_ne_none _, ?_, fun group hgroup => ?_⟩
    · simpa [completedGroup] using hkeep
    · cases hgroup
  · refine ⟨Option.some_ne_none _, ?_, fun group hgroup => ?_⟩
    · simpa [completedGroup] using hkeep
    · cases hgroup
  · obtain ⟨hagrees, hcompleted⟩ := hgroup group rfl
    have haccepted : acceptedShards first shard.header.groupIndex (past ++ [shard]) = _ :=
      acceptedShards_own hsame
    rw [if_pos hagrees] at haccepted
    rw [← haccepted] at hcompleted
    have hmem : shard ∈ acceptedShards first shard.header.groupIndex (past ++ [shard]) := by
      simp [haccepted]
    have hgroupIndex := (hcompleted.announced shard hmem).1.symm
    refine ⟨Option.some_ne_none _, h.complete hopen hgroupIndex, fun other hother => ?_⟩
    obtain rfl := Option.some.inj (Except.ok.inj (Option.some.inj hother))
    exact ⟨hcompleted, hgroupIndex⟩

/-- The assembly of an epoch over a run of shards whose headers pass the checks of the codec. -/
lemma assembles_run (blockId : UInt32) (first : MultichannelAudioShardHeader)
    {shards : List DecodedMultichannelAudioShard}
    (hvalid : ∀ shard ∈ shards, ∃ symbolLen, shard.header.Valid symbolLen) :
    Assembles first shards
      ((runOutputs EpochAssembly.push (.new blockId first) shards).filterMap completedGroup)
      (runState EpochAssembly.push (.new blockId first) shards) := by
  induction shards using List.reverseRecOn with
  | nil => exact assembles_new blockId first
  | append_singleton past shard ih =>
      obtain ⟨symbolLen, hshard⟩ := hvalid shard (by simp)
      have hpast := ih fun earlier hearlier => hvalid earlier (List.mem_append_left _ hearlier)
      have hstep := (hpast.push hshard).2.1
      rw [runOutputs_snoc, runState_snoc, List.filterMap_append]
      cases hgroup : completedGroup ((runState EpochAssembly.push (.new blockId first) past).push
        shard).1 <;> simpa [hgroup] using hstep

/-- What `collect` of options returns. -/
lemma eq_map_some_of_mapM {α : Type} {xs : List (Option α)} {ys : List α}
    (h : xs.mapM id = some ys) : xs = ys.map some := by
  induction xs generalizing ys with
  | nil =>
      obtain rfl : [] = ys := by simpa using h
      rfl
  | cons x xs ih =>
      rw [List.mapM_cons] at h
      obtain ⟨y, hy, hrest⟩ := Option.bind_eq_some_iff.mp h
      obtain ⟨zs, hzs, hcons⟩ := Option.bind_eq_some_iff.mp hrest
      obtain rfl := Option.some.inj hcons
      rw [List.map_cons, ← ih hzs]
      exact congrArg (· :: xs) hy

/-- An epoch is finished when all its groups are there, and has them in their order. -/
lemma Assembles.finish (h : Assembles first past completed assembly) :
    (assembly.isComplete = true ↔ ∃ epoch, assembly.finish = .ok epoch) ∧
      ∀ epoch, assembly.finish = .ok epoch →
        epoch.groups.length = first.groupCount.toNat ∧
          ∀ (g : ℕ) group, epoch.groups[g]? = some group →
            group.groupIndex.toNat = g ∧ group ∈ completed := by
  have hgroups : ∀ epoch, assembly.finish = .ok epoch → assembly.groups = epoch.groups.map some := by
    intro epoch hfinish
    rw [EpochAssembly.finish] at hfinish
    cases hcollect : assembly.groups.mapM id with
    | none =>
        rw [hcollect] at hfinish
        cases hfinish
    | some groups =>
        rw [hcollect] at hfinish
        obtain rfl := Except.ok.inj hfinish
        exact eq_map_some_of_mapM hcollect
  constructor
  · constructor
    · intro hall
      obtain ⟨groups, heq⟩ := exists_map_some (List.all_eq_true.mp hall)
      rw [EpochAssembly.finish, heq, mapM_map_some]
      exact ⟨_, rfl⟩
    · rintro ⟨epoch, hfinish⟩
      rw [EpochAssembly.isComplete, hgroups epoch hfinish]
      simp
  · intro epoch hfinish
    have heq := hgroups epoch hfinish
    constructor
    · rw [← h.length, heq, List.length_map]
    · intro g group hgroup
      refine ((h.completed_iff g group).mp ?_).symm
      rw [heq, List.getElem?_map, hgroup]
      rfl

end Epoch

/-- **Any shards, in any order.**  No index is out of range; no group completes twice; a group that
completes is tiled by the first accepted shards of its fragments; and the epoch is finished when all
its groups have completed, with the groups in order. -/
theorem EpochAssembly.tiled_of_decoded (blockId : UInt32) (first : MultichannelAudioShardHeader)
    (shards : List DecodedMultichannelAudioShard)
    (hdecoded : ∀ shard ∈ shards,
      ∃ symbol, MultichannelAudioShardHeader.decode symbol = .ok shard.header) :
    let outputs := runOutputs push (new blockId first) shards
    let last := runState push (new blockId first) shards
    none ∉ outputs ∧
    ((outputs.filterMap completedGroup).map (·.groupIndex)).Nodup ∧
    (∀ past shard rest group, shards = past ++ shard :: rest →
      outputs[past.length]? = some (some (.ok (some group))) →
      CompletedFrom (acceptedShards first shard.header.groupIndex (past ++ [shard])) group ∧
        group.groupIndex = shard.header.groupIndex) ∧
    (last.isComplete = true ↔ ∃ epoch, last.finish = .ok epoch) ∧
    ∀ epoch, last.finish = .ok epoch → epoch.groups.length = first.groupCount.toNat ∧
      ∀ (g : ℕ) group, epoch.groups[g]? = some group →
        group.groupIndex.toNat = g ∧ group ∈ outputs.filterMap completedGroup := by
  have hvalid : ∀ shard ∈ shards, ∃ symbolLen, shard.header.Valid symbolLen := by
    intro shard hshard
    obtain ⟨symbol, hsymbol⟩ := hdecoded shard hshard
    exact ⟨symbol.length, MultichannelAudioShardHeader.valid_of_decode hsymbol⟩
  have hrun := assembles_run blockId first hvalid
  have hstep : ∀ past shard, past ++ [shard] <+: shards →
      ∃ symbolLen, shard.header.Valid symbolLen ∧
        Assembles first past ((runOutputs push (new blockId first) past).filterMap completedGroup)
          (runState push (new blockId first) past) := by
    intro past shard hpre
    obtain ⟨symbolLen, hshard⟩ := hvalid shard (hpre.subset (by simp))
    exact ⟨symbolLen, hshard, assembles_run blockId first fun earlier hearlier =>
      hvalid earlier (hpre.subset (List.mem_append_left _ hearlier))⟩
  refine ⟨?_, hrun.nodup, ?_, hrun.finish.1, hrun.finish.2⟩
  · intro hnone
    obtain ⟨past, shard, hpre, hout⟩ := exists_step_of_mem_runOutputs push hnone
    obtain ⟨symbolLen, hshard, hpast⟩ := hstep past shard hpre
    exact (hpast.push hshard).1 hout
  · intro past shard rest group hshards hout
    obtain ⟨symbolLen, hshard, hpast⟩ := hstep past shard ⟨rest, by simp [hshards]⟩
    refine (hpast.push hshard).2.2 group ?_
    have hget : (runOutputs push (new blockId first) shards)[past.length]?
        = some ((runState push (new blockId first) past).push shard).1 := by
      rw [hshards, runOutputs_append, runOutputs_cons, List.getElem?_append_right (by simp)]
      simp
    exact Option.some.inj (hget.symm.trans hout)

/-! ### Two fragments that arrive in the wrong order -/

/-- A fragment of a group of three bytes in two fragments. -/
def sampleShard (fragmentIndex : UInt16) (payloadOffset : UInt32) (payload : Bytes) :
    DecodedMultichannelAudioShard where
  blockId := 7
  header :=
    { payloadKind := .opus, sampleFormat := .unspecified, flags := 0, sessionId := 7
      configGeneration := 1, sampleRate := 48000, frameCount := 480, epochId := 5
      ptsSamples := 480, groupId := 9, groupIndex := 0, groupCount := 1, channelStart := 0
      channelCount := 2, fragmentIndex := fragmentIndex, fragmentCount := 2
      sourceIndex := fragmentIndex, sourceCount := 2, payloadLen := UInt16.ofNat payload.length
      payloadOffset := payloadOffset, groupPayloadLen := 3 }
  recovery := .systematic
  payload := payload

/-- The second one completes the group. -/
theorem EpochAssembly.tiled_of_decoded_reversed :
    ∃ group, CompletedFrom (acceptedShards (sampleShard 1 2 [3]).header 0
      ([sampleShard 1 2 [3]] ++ [sampleShard 0 0 [1, 2]])) group ∧ group.groupIndex = 0 := by
  have hdecoded : ∀ shard ∈ [sampleShard 1 2 [3], sampleShard 0 0 [1, 2]],
      MultichannelAudioShardHeader.decode (shard.header.headerBytes ++ shard.payload)
        = .ok shard.header := by
    decide +kernel
  have hsecond : (runOutputs push (new 7 (sampleShard 1 2 [3]).header)
      [sampleShard 1 2 [3], sampleShard 0 0 [1, 2]])[1]? = some (some (.ok (some _))) := rfl
  exact ⟨_, (tiled_of_decoded 7 _ _ fun shard hshard => ⟨_, hdecoded shard hshard⟩).2.2.1
    [sampleShard 1 2 [3]] _ [] _ rfl hsecond⟩

end RaptorFec
