import RaptorFec.Audio.Fragments
import RaptorFec.Audio.Honest
import RaptorFec.Session.Assembly

/-!
# Putting an honest epoch together

What the assembly of an epoch makes of the shards an encoder wrote.

* `MultichannelAudioEpoch.exact` — an epoch as it should come out, except for the numbers of
  recovered fragments, which `plain` leaves out;
* `Contiguous`, `joinFragments_eq_some_iff` — fragments without gap and overlap;
* `GroupAssembles`, `GroupAssembles.push` — the assembly of a group holds fragments of that group,
  and completes to the group;
* `EpochAssembles`, `EpochAssembles.push`, `EpochAssembles.finish` — the same for an epoch.
-/

namespace RaptorFec

/-! ## What should come out -/

/-- The group, with the number of recovered fragments left out. -/
def DecodedMultichannelAudioGroup.plain (group : DecodedMultichannelAudioGroup) :
    DecodedMultichannelAudioGroup :=
  { group with raptorqRecoveredFragments := 0 }

/-- The epoch, with the numbers of recovered fragments left out. -/
def DecodedMultichannelAudioEpoch.plain (epoch : DecodedMultichannelAudioEpoch) :
    DecodedMultichannelAudioEpoch :=
  { epoch with groups := epoch.groups.map DecodedMultichannelAudioGroup.plain }

namespace MultichannelAudioEpoch

variable (epoch : MultichannelAudioEpoch)

/-- A group of the epoch, by its index, as it should come out. -/
def exactGroup (group : MultichannelAudioGroup × ℕ) : DecodedMultichannelAudioGroup where
  sessionId := epoch.sessionId
  configGeneration := epoch.configGeneration
  epochId := epoch.epochId
  ptsSamples := epoch.ptsSamples
  sampleRate := epoch.sampleRate
  frameCount := epoch.frameCount
  groupCount := UInt16.ofNat epoch.groups.length
  groupId := group.1.groupId
  groupIndex := UInt16.ofNat group.2
  channelStart := group.1.channelStart
  channelCount := group.1.channelCount
  payloadKind := group.1.payloadKind
  sampleFormat := group.1.sampleFormat
  flags := group.1.flags
  payload := group.1.payload
  raptorqRecoveredFragments := 0

/-- The epoch as it should come out. -/
def exact : DecodedMultichannelAudioEpoch where
  sessionId := epoch.sessionId
  configGeneration := epoch.configGeneration
  epochId := epoch.epochId
  ptsSamples := epoch.ptsSamples
  sampleRate := epoch.sampleRate
  frameCount := epoch.frameCount
  groups := epoch.groups.zipIdx.map epoch.exactGroup

variable {epoch}

lemma mem_exact_groups {group : MultichannelAudioGroup} {j : ℕ} (h : epoch.groups[j]? = some group) :
    epoch.exactGroup (group, j) ∈ epoch.exact.groups := by
  refine List.mem_map.mpr ⟨(group, j), ?_, rfl⟩
  rw [List.mem_zipIdx_iff_getElem?]
  exact h

end MultichannelAudioEpoch

/-! ## Lists without gaps -/

/-- A list of which no entry is missing. -/
lemma exists_map_some {α : Type} {xs : List (Option α)} (h : ∀ x ∈ xs, x.isSome = true) :
    ∃ ys : List α, xs = ys.map some := by
  induction xs with
  | nil => exact ⟨[], rfl⟩
  | cons x xs ih =>
      obtain ⟨y, rfl⟩ := Option.isSome_iff_exists.mp (h x List.mem_cons_self)
      obtain ⟨ys, rfl⟩ := ih fun x hx => h x (List.mem_cons_of_mem _ hx)
      exact ⟨y :: ys, rfl⟩

lemma mapM_map_some {α : Type} (ys : List α) : (ys.map some).mapM id = some ys := by
  induction ys with
  | nil => rfl
  | cons y ys ih => simp [ih]

/-! ## Groups -/

/-- Each fragment starts where the one before it ends. -/
def Contiguous : ℕ → List Fragment → Prop
  | _, [] => True
  | start, fragment :: fragments =>
      fragment.offset.toNat = start ∧ Contiguous (start + fragment.payload.length) fragments

/-- **What the loop over the fragments makes of them.** -/
theorem GroupAssembly.joinFragments_eq_some_iff {fragments : List Fragment} {before payload : Bytes} :
    joinFragments fragments before = some payload ↔
      Contiguous before.length fragments ∧
        payload = before ++ (fragments.map (·.payload)).flatten := by
  induction fragments generalizing before with
  | nil => simp [joinFragments, Contiguous, eq_comm]
  | cons fragment fragments ih =>
      rw [joinFragments, Contiguous, List.map_cons, List.flatten_cons, ← List.append_assoc]
      by_cases hstart : fragment.offset.toNat = before.length
      · rw [if_neg (not_not.mpr hstart), ih, List.length_append]
        simp [hstart]
      · rw [if_pos hstart]
        simp [hstart]

namespace EpochCut

variable (cut : EpochCut)

/-- A fragment of a group, as the assembly stores it. -/
def fragmentAt (group : MultichannelAudioGroup) (f : ℕ) : Fragment :=
  ⟨UInt32.ofNat (f * cut.geometry.fragmentPayload),
    group.fragment cut.geometry.fragmentPayload f⟩

variable {cut} {config : MultichannelAudioFecConfig} {group : MultichannelAudioGroup}
  (fits : cut.geometry.Fits config cut.epoch.groups) (hgroup : group ∈ cut.epoch.groups)

include fits

include hgroup

lemma toNat_offset {f : ℕ} (hf : f < group.fragmentCount cut.geometry.fragmentPayload) :
    (cut.fragmentAt group f).offset.toNat = f * cut.geometry.fragmentPayload :=
  toNat_payloadOffset fits hgroup hf

/-- The fragments of a group from one of them on. -/
lemma contiguous_fragments {m a : ℕ}
    (hend : a + m = group.fragmentCount cut.geometry.fragmentPayload) :
    Contiguous (a * cut.geometry.fragmentPayload)
      ((List.range' a m).map (cut.fragmentAt group)) := by
  induction m generalizing a with
  | zero => trivial
  | succ m ih =>
      rw [List.range'_succ, List.map_cons]
      refine ⟨toNat_offset fits hgroup (by omega), ?_⟩
      have hrest := ih (a := a + 1) (by omega)
      cases m with
      | zero => trivial
      | succ m =>
          have hfull : (cut.fragmentAt group a).payload.length = cut.geometry.fragmentPayload :=
            length_fragment fits (by omega)
          rw [Nat.add_mul, Nat.one_mul] at hrest
          rw [hfull]
          exact hrest

/-- **All fragments of a group are joined to its payload.** -/
lemma joinFragments_fragments :
    GroupAssembly.joinFragments (sortByKey (fun fragment => fragment.offset.toNat)
      ((List.range (group.fragmentCount cut.geometry.fragmentPayload)).map
        (cut.fragmentAt group))) [] = some group.payload := by
  have hsorted : sortByKey (fun fragment => fragment.offset.toNat)
      ((List.range (group.fragmentCount cut.geometry.fragmentPayload)).map
        (cut.fragmentAt group))
      = (List.range (group.fragmentCount cut.geometry.fragmentPayload)).map
        (cut.fragmentAt group) := by
    refine List.Pairwise.insertionSort_eq (List.pairwise_map.mpr ?_)
    refine List.pairwise_lt_range.imp_of_mem fun {a b} ha hb hlt => ?_
    change (cut.fragmentAt group a).offset.toNat ≤ (cut.fragmentAt group b).offset.toNat
    rw [toNat_offset fits hgroup (List.mem_range.mp ha),
      toNat_offset fits hgroup (List.mem_range.mp hb)]
    exact Nat.mul_le_mul_right _ (Nat.le_of_lt hlt)
  have hcontiguous := contiguous_fragments fits hgroup (Nat.zero_add _)
  rw [Nat.zero_mul, ← List.range_eq_range'] at hcontiguous
  rw [hsorted, GroupAssembly.joinFragments_eq_some_iff, List.nil_append]
  refine ⟨hcontiguous, ?_⟩
  have hpayloads : ((List.range (group.fragmentCount cut.geometry.fragmentPayload)).map
      (cut.fragmentAt group)).map (·.payload)
      = (List.range (group.fragmentCount cut.geometry.fragmentPayload)).map
        (piece group.payload cut.geometry.fragmentPayload) := by
    rw [List.map_map]
    exact List.map_congr_left fun f _ => fragment_eq_piece group _ f
  rw [hpayloads, flatten_pieces (fragments_cover fits group).1]

end EpochCut

/-- The assembly holds fragments of one group of the epoch. -/
structure GroupAssembles (cut : EpochCut) (group : MultichannelAudioGroup × ℕ)
    (assembly : GroupAssembly) : Prop where
  header : ∃ f i, assembly.header = cut.header (group, f) i
  length : assembly.fragments.length = group.1.fragmentCount cut.geometry.fragmentPayload
  fragments : ∀ f fragment, assembly.fragments[f]? = some (some fragment) →
    fragment = cut.fragmentAt group.1 f

section Group

variable {cut : EpochCut} {config : MultichannelAudioFecConfig}
  {group : MultichannelAudioGroup × ℕ} {assembly : GroupAssembly}
  {shard : DecodedMultichannelAudioShard} {f i : ℕ}

lemma groupAssembles_new (fits : cut.geometry.Fits config cut.epoch.groups)
    (hgroup : group.1 ∈ cut.epoch.groups) (blockId : UInt32) :
    GroupAssembles cut group (GroupAssembly.new blockId (cut.header (group, f) i)) where
  header := ⟨f, i, rfl⟩
  length := by
    have hcount : (cut.header (group, f) i).fragmentCount.toNat
        = group.1.fragmentCount cut.geometry.fragmentPayload :=
      UInt16.toNat_ofNat_of_lt' (EpochCut.fragmentCount_lt fits hgroup)
    rw [GroupAssembly.new, List.length_replicate, hcount]
  fragments f' fragment h := by
    rw [GroupAssembly.new, List.getElem?_replicate] at h
    split_ifs at h
    cases h

/-- The headers of a group agree in what the assembly compares. -/
lemma GroupAssembles.validateHeader (h : GroupAssembles cut group assembly) :
    assembly.validateHeader (cut.header (group, f) i) = .ok () := by
  obtain ⟨f', i', hheader⟩ := h.header
  rw [GroupAssembly.validateHeader, hheader]
  simp [EpochCut.header, requireEqual]

/-- A fragment of the group is stored. -/
lemma GroupAssembles.store (h : GroupAssembles cut group assembly)
    (hindex : shard.header.fragmentIndex.toNat = f)
    (hfragment : (⟨shard.header.payloadOffset, shard.payload⟩ : Fragment)
      = cut.fragmentAt group.1 f) : GroupAssembles cut group (assembly.store shard) where
  header := h.header
  length := by
    rw [GroupAssembly.store, List.length_set]
    exact h.length
  fragments f' fragment hget := by
    rw [GroupAssembly.store, hindex, hfragment, List.getElem?_set] at hget
    split_ifs at hget with heq hlt
    · rw [← heq]
      exact (Option.some.inj (Option.some.inj hget)).symm
    · exact h.fragments f' fragment hget

/-- With all its fragments the assembly has the payload of the group. -/
lemma GroupAssembles.joined (fits : cut.geometry.Fits config cut.epoch.groups)
    (hgroup : group.1 ∈ cut.epoch.groups) (h : GroupAssembles cut group assembly)
    (hall : none ∉ assembly.fragments) : assembly.joined = some group.1.payload := by
  have hfragments : assembly.fragments.reduceOption
      = (List.range (group.1.fragmentCount cut.geometry.fragmentPayload)).map
        (cut.fragmentAt group.1) := by
    have hsome : assembly.fragments
        = ((List.range (group.1.fragmentCount cut.geometry.fragmentPayload)).map
          (cut.fragmentAt group.1)).map some := by
      refine List.ext_getElem (by simp [h.length]) fun f h₁ h₂ => ?_
      rw [List.getElem_map, List.getElem_map, List.getElem_range]
      cases hget : assembly.fragments[f] with
      | none => exact absurd (hget ▸ List.getElem_mem h₁) hall
      | some fragment =>
          rw [h.fragments f fragment ((List.getElem?_eq_getElem h₁).trans (congrArg some hget))]
    rw [hsome, List.reduceOption, List.filterMap_map]
    exact List.filterMap_some
  have hlength : group.1.payload.length = assembly.header.groupPayloadLen.toNat := by
    obtain ⟨f, i, hheader⟩ := h.header
    rw [hheader]
    exact (UInt32.toNat_ofNat_of_lt' (EpochCut.length_payload_lt fits hgroup)).symm
  rw [GroupAssembly.joined, hfragments, EpochCut.joinFragments_fragments fits hgroup]
  exact if_neg (not_not.mpr hlength)

/-- **A shard of the group** is accepted, and the group that it completes is exact. -/
theorem GroupAssembles.push (fits : cut.geometry.Fits config cut.epoch.groups)
    (hgroup : group.1 ∈ cut.epoch.groups) (h : GroupAssembles cut group assembly)
    (hf : f < group.1.fragmentCount cut.geometry.fragmentPayload)
    (hheader : shard.header = cut.header (group, f) i)
    (hpayload : shard.payload = group.1.fragment cut.geometry.fragmentPayload f) :
    GroupAssembles cut group (assembly.push shard).2 ∧
      ∃ completed, (assembly.push shard).1 = some (.ok completed) ∧
        ∀ decoded ∈ completed, decoded.plain = cut.epoch.exactGroup group := by
  have hindex : shard.header.fragmentIndex.toNat = f := by
    rw [hheader]
    exact UInt16.toNat_ofNat_of_lt' (Nat.lt_trans hf (EpochCut.fragmentCount_lt fits hgroup))
  have hfragment : (⟨shard.header.payloadOffset, shard.payload⟩ : Fragment)
      = cut.fragmentAt group.1 f := by
    rw [hheader, hpayload]
    rfl
  have hvalid : assembly.validateHeader shard.header = .ok () := by
    rw [hheader]
    exact h.validateHeader
  rw [GroupAssembly.push, hvalid]
  simp only [hindex]
  cases hget : assembly.fragments[f]? with
  | none =>
      rw [List.getElem?_eq_none_iff, h.length] at hget
      omega
  | some stored =>
      cases stored with
      | some fragment =>
          refine ⟨h, none, rfl, fun decoded hdecoded => ?_⟩
          cases hdecoded
      | none =>
          have hstore := h.store hindex hfragment
          simp only
          by_cases hall : none ∈ (assembly.store shard).fragments
          · rw [if_pos hall]
            refine ⟨hstore, none, rfl, fun decoded hdecoded => ?_⟩
            cases hdecoded
          · rw [if_neg hall, hstore.joined fits hgroup hall]
            refine ⟨hstore, _, rfl, fun decoded hdecoded => ?_⟩
            obtain rfl := Option.some.inj hdecoded
            obtain ⟨f', i', hheader'⟩ := hstore.header
            rw [GroupAssembly.toGroup, hheader']
            rfl

end Group

/-! ## Epochs -/

/-- The assembly holds groups, and fragments of groups, of one epoch. -/
structure EpochAssembles (cut : EpochCut) (assembly : EpochAssembly) : Prop where
  sessionId : assembly.sessionId = cut.epoch.sessionId
  configGeneration : assembly.configGeneration = cut.epoch.configGeneration
  epochId : assembly.epochId = cut.epoch.epochId
  ptsSamples : assembly.ptsSamples = cut.epoch.ptsSamples
  sampleRate : assembly.sampleRate = cut.epoch.sampleRate
  frameCount : assembly.frameCount = cut.epoch.frameCount
  groupCount : assembly.groupCount = cut.groupCount
  sourceCount : assembly.sourceCount = cut.geometry.sourceSymbols
  length : assembly.groups.length = cut.epoch.groups.length
  groups : ∀ j decoded, assembly.groups[j]? = some (some decoded) →
    ∃ group, cut.epoch.groups[j]? = some group ∧ decoded.plain = cut.epoch.exactGroup (group, j)
  partials : ∀ groupIndex group, assembly.partialGroups.lookup groupIndex = some group →
    ∃ source, cut.epoch.groups[groupIndex.toNat]? = some source ∧
      GroupAssembles cut (source, groupIndex.toNat) group

section Epoch

variable {cut : EpochCut} {config : MultichannelAudioFecConfig} {assembly : EpochAssembly}
  {shard : DecodedMultichannelAudioShard} {i : ℕ}

lemma epochAssembles_new (fits : cut.geometry.Fits config cut.epoch.groups) (blockId : UInt32)
    (place : FragmentPlace) (i : ℕ) :
    EpochAssembles cut (EpochAssembly.new blockId (cut.header place i)) where
  sessionId := rfl
  configGeneration := rfl
  epochId := rfl
  ptsSamples := rfl
  sampleRate := rfl
  frameCount := rfl
  groupCount := rfl
  sourceCount := rfl
  length := by
    have hcount : cut.groupCount.toNat = cut.epoch.groups.length :=
      UInt16.toNat_ofNat_of_lt' (EpochCut.length_groups_lt fits)
    rw [EpochAssembly.new, List.length_replicate]
    exact hcount
  groups j decoded h := by
    rw [EpochAssembly.new, List.getElem?_replicate] at h
    split_ifs at h
    cases h
  partials groupIndex group h := by
    rw [EpochAssembly.new, Finmap.lookup_empty] at h
    cases h

/-- The headers of an epoch agree in what the assembly compares. -/
lemma EpochAssembles.validateHeader (h : EpochAssembles cut assembly) (place : FragmentPlace)
    (i : ℕ) : assembly.validateHeader (cut.header place i) = .ok () := by
  rw [EpochAssembly.validateHeader, h.sessionId, h.configGeneration, h.epochId, h.ptsSamples,
    h.sampleRate, h.frameCount, h.groupCount, h.sourceCount]
  simp [EpochCut.header, requireEqual]

/-- The assembly that a shard is pushed into. -/
lemma EpochAssembles.groupAssembly (fits : cut.geometry.Fits config cut.epoch.groups)
    (h : EpochAssembles cut assembly) {group : MultichannelAudioGroup × ℕ} {f : ℕ}
    (hgroup : cut.epoch.groups[group.2]? = some group.1) (hindex : group.2 < 2 ^ 16) :
    GroupAssembles cut group (assembly.groupAssembly (cut.header (group, f) i)) := by
  have hmem : group.1 ∈ cut.epoch.groups := List.mem_of_getElem? hgroup
  have hnat : (UInt16.ofNat group.2).toNat = group.2 := UInt16.toNat_ofNat_of_lt' hindex
  rw [EpochAssembly.groupAssembly]
  cases hlookup : assembly.partialGroups.lookup (cut.header (group, f) i).groupIndex with
  | none => exact groupAssembles_new fits hmem assembly.blockId
  | some stored =>
      obtain ⟨source, hsource, hstored⟩ := h.partials _ stored hlookup
      change cut.epoch.groups[(UInt16.ofNat group.2).toNat]? = some source at hsource
      change GroupAssembles cut (source, (UInt16.ofNat group.2).toNat) stored at hstored
      rw [hnat, hgroup] at hsource
      rw [hnat, ← Option.some.inj hsource] at hstored
      exact hstored

/-- A group that is not complete is kept. -/
lemma EpochAssembles.keep (h : EpochAssembles cut assembly) {groupIndex : UInt16}
    {group : MultichannelAudioGroup × ℕ} {stored : GroupAssembly}
    (hindex : groupIndex.toNat = group.2) (hgroup : cut.epoch.groups[group.2]? = some group.1)
    (hstored : GroupAssembles cut group stored) :
    EpochAssembles cut { assembly with
      partialGroups := assembly.partialGroups.insert groupIndex stored } where
  __ := h
  partials other kept hlookup := by
    rw [HashMap.lookup_insert_eq] at hlookup
    split_ifs at hlookup with heq
    · obtain rfl := Option.some.inj hlookup
      rw [heq, hindex]
      exact ⟨group.1, hgroup, hstored⟩
    · exact h.partials other kept hlookup

/-- A group that is complete is put into its place. -/
lemma EpochAssembles.complete (h : EpochAssembles cut assembly) (groupIndex : UInt16) {j : ℕ}
    {group : MultichannelAudioGroup} {decoded : DecodedMultichannelAudioGroup}
    (hgroup : cut.epoch.groups[j]? = some group)
    (hexact : decoded.plain = cut.epoch.exactGroup (group, j)) :
    EpochAssembles cut { assembly with
      partialGroups := assembly.partialGroups.erase groupIndex
      groups := assembly.groups.set j (some decoded) } where
  __ := h
  length := by
    rw [List.length_set]
    exact h.length
  groups k other hother := by
    rw [List.getElem?_set] at hother
    split_ifs at hother with heq hlen
    · obtain rfl := Option.some.inj (Option.some.inj hother)
      rw [← heq]
      exact ⟨group, hgroup, hexact⟩
    · exact h.groups k other hother
  partials other stored hlookup := by
    rw [HashMap.lookup_erase_eq] at hlookup
    split_ifs at hlookup
    exact h.partials other stored hlookup

/-- **A shard of the epoch** is accepted, and the group that it completes is exact. -/
theorem EpochAssembles.push (fits : cut.geometry.Fits config cut.epoch.groups)
    (h : EpochAssembles cut assembly) (hi : i < cut.count)
    (hheader : shard.header = cut.headerAt i) (hpayload : shard.payload = cut.payloadAt i) :
    EpochAssembles cut (assembly.push shard).2 ∧
      ∃ completed, (assembly.push shard).1 = some (.ok completed) ∧
        ∀ decoded ∈ completed, decoded.plain = cut.epoch.exactGroup (cut.place i).1 := by
  obtain ⟨hgroup, hf⟩ := EpochCut.place_spec hi
  rw [EpochCut.headerAt] at hheader
  rw [EpochCut.payloadAt] at hpayload
  obtain ⟨⟨group, f⟩, hplace⟩ : ∃ place, cut.place i = place := ⟨_, rfl⟩
  rw [hplace] at hgroup hf hheader hpayload ⊢
  simp only at hgroup hf hpayload ⊢
  have hmem : group.1 ∈ cut.epoch.groups := List.mem_of_getElem? hgroup
  have hlt : group.2 < cut.epoch.groups.length := (List.getElem?_eq_some_iff.mp hgroup).1
  have hsmall : group.2 < 2 ^ 16 := Nat.lt_trans hlt (EpochCut.length_groups_lt fits)
  have hindex : shard.header.groupIndex.toNat = group.2 := by
    rw [hheader]
    exact UInt16.toNat_ofNat_of_lt' hsmall
  have hvalid : assembly.validateHeader shard.header = .ok () := by
    rw [hheader]
    exact h.validateHeader _ _
  have hstored := h.groupAssembly (f := f) (i := i) fits hgroup hsmall
  rw [← hheader] at hstored
  obtain ⟨hnext, completed, hresult, hexact⟩ := hstored.push fits hmem hf hheader hpayload
  have hkeep : EpochAssembles cut { assembly with
      partialGroups := assembly.partialGroups.insert shard.header.groupIndex
        ((assembly.groupAssembly shard.header).push shard).2 } := h.keep hindex hgroup hnext
  rw [EpochAssembly.push, hvalid]
  simp only [hindex]
  have hslot : group.2 < assembly.groups.length := by
    rw [h.length]
    exact hlt
  rw [List.getElem?_eq_getElem hslot]
  cases assembly.groups[group.2] with
  | some decoded =>
      refine ⟨h, none, rfl, fun decoded hdecoded => ?_⟩
      cases hdecoded
  | none =>
      simp only
      generalize (assembly.groupAssembly shard.header).push shard = pushed at hresult hkeep ⊢
      obtain ⟨result, next⟩ := pushed
      obtain rfl : result = some (.ok completed) := hresult
      cases completed with
      | none =>
          refine ⟨hkeep, none, rfl, fun decoded hdecoded => ?_⟩
          cases hdecoded
      | some decoded =>
          have hplain := hexact decoded rfl
          refine ⟨h.complete _ hgroup hplain, some decoded, rfl, fun other hother => ?_⟩
          obtain rfl := Option.some.inj hother
          exact hplain

/-- **The epoch that is complete is exact.** -/
theorem EpochAssembles.finish (h : EpochAssembles cut assembly) (hall : assembly.isComplete = true) :
    ∃ decoded, assembly.finish = .ok decoded ∧ decoded.plain = cut.epoch.exact := by
  obtain ⟨groups, hgroups⟩ := exists_map_some (List.all_eq_true.mp hall)
  have hfinish : assembly.groups.mapM id = some groups := by
    rw [hgroups]
    exact mapM_map_some groups
  have hplain : groups.map DecodedMultichannelAudioGroup.plain
      = cut.epoch.groups.zipIdx.map cut.epoch.exactGroup := by
    have hlength : groups.length = cut.epoch.groups.length := by
      rw [← h.length, hgroups, List.length_map]
    refine List.ext_getElem (by simp [hlength]) fun j h₁ h₂ => ?_
    rw [List.length_map] at h₁
    have hget : assembly.groups[j]? = some (some groups[j]) := by
      rw [hgroups, List.getElem?_map, List.getElem?_eq_getElem h₁]
      rfl
    obtain ⟨group, hgroup, hexact⟩ := h.groups j groups[j] hget
    obtain ⟨hj, rfl⟩ := List.getElem?_eq_some_iff.mp hgroup
    rw [List.getElem_map, List.getElem_map, List.getElem_zipIdx, hexact, Nat.zero_add]
  rw [EpochAssembly.finish, hfinish]
  refine ⟨_, rfl, ?_⟩
  simp only [DecodedMultichannelAudioEpoch.plain, MultichannelAudioEpoch.exact, hplain,
    h.sessionId, h.configGeneration, h.epochId, h.ptsSamples, h.sampleRate, h.frameCount]

end Epoch

end RaptorFec
