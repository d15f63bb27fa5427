import RaptorFec.Session.Honest

/-!
# What an assembly has gathered

`EpochAssembles.push` says that what comes out of an assembly is exact.  Here the other half: every
fragment of the epoch that is pushed stays in the assembly, and with all of them the epoch is
complete.

* `GroupAssembly.Has`, `EpochAssembly.Has` — the fragment is there, for an epoch by itself or in a
  complete group;
* `EpochAssembly.Unfinished` — what is not complete misses a fragment;
* `EpochAssembles.push_has` — a push adds its fragment and loses none;
* `EpochAssembles.isComplete` — with all fragments the epoch is complete.
-/

namespace RaptorFec

/-! ## Groups -/

/-- The fragment is stored. -/
def GroupAssembly.Has (assembly : GroupAssembly) (f : ℕ) : Prop :=
  ∃ fragment, assembly.fragments[f]? = some (some fragment)

section Group

variable {cut : EpochCut} {config : MultichannelAudioFecConfig}
  {group : MultichannelAudioGroup × ℕ} {assembly : GroupAssembly}
  {shard : DecodedMultichannelAudioShard} {f i : ℕ}

lemma GroupAssembly.has_store (shard : DecodedMultichannelAudioShard) (h : assembly.Has f) :
    (assembly.store shard).Has f := by
  obtain ⟨fragment, hget⟩ := h
  have hlt := (List.getElem?_eq_some_iff.mp hget).1
  by_cases heq : shard.header.fragmentIndex.toNat = f
  · rw [Has, store, heq, List.getElem?_set_self hlt]
    exact ⟨_, rfl⟩
  · rw [Has, store, List.getElem?_set_ne heq]
    exact ⟨fragment, hget⟩

lemma GroupAssembly.has_store_self
    (h : shard.header.fragmentIndex.toNat < assembly.fragments.length) :
    (assembly.store shard).Has shard.header.fragmentIndex.toNat := by
  rw [Has, store, List.getElem?_set_self h]
  exact ⟨_, rfl⟩

/-- **A fragment that does not complete its group** is there from then on. -/
theorem GroupAssembles.push_has (fits : cut.geometry.Fits config cut.epoch.groups)
    (hgroup : group.1 ∈ cut.epoch.groups) (h : GroupAssembles cut group assembly)
    (hf : f < group.1.fragmentCount cut.geometry.fragmentPayload)
    (hheader : shard.header = cut.header (group, f) i)
    (hmissing : none ∈ assembly.fragments)
    (hwaits : (assembly.push shard).1 = some (.ok none)) :
    none ∈ (assembly.push shard).2.fragments ∧ (assembly.push shard).2.Has f ∧
      ∀ f', assembly.Has f' → (assembly.push shard).2.Has f' := by
  have hindex : shard.header.fragmentIndex.toNat = f := by
    rw [hheader]
    exact UInt16.toNat_ofNat_of_lt' (Nat.lt_trans hf (EpochCut.fragmentCount_lt fits hgroup))
  have hvalid : assembly.validateHeader shard.header = .ok () := by
    rw [hheader]
    exact h.validateHeader
  have hslot : f < assembly.fragments.length := by
    rw [h.length]
    exact hf
  rw [GroupAssembly.push, hvalid] at hwaits ⊢
  simp only [hindex, List.getElem?_eq_getElem hslot] at hwaits ⊢
  cases hget : assembly.fragments[f] with
  | some fragment =>
      simp only
      refine ⟨hmissing, ⟨fragment, ?_⟩, fun _ h => h⟩
      rw [List.getElem?_eq_getElem hslot, hget]
  | none =>
      simp only [hget] at hwaits ⊢
      split_ifs at hwaits ⊢ with hall
      · refine ⟨hall, ?_, fun f' => GroupAssembly.has_store shard⟩
        have hself := GroupAssembly.has_store_self (hindex ▸ hslot)
        rwa [hindex] at hself
      · -- without a missing fragment the push does not wait
        cases hjoined : (assembly.store shard).joined with
        | none =>
            rw [hjoined] at hwaits
            cases hwaits
        | some payload =>
            rw [hjoined] at hwaits
            cases hwaits

end Group

/-! ## Epochs -/

namespace EpochAssembly

/-- The fragment is stored, or its group is complete. -/
def HasFragment (assembly : EpochAssembly) (j f : ℕ) : Prop :=
  (∃ decoded, assembly.groups[j]? = some (some decoded)) ∨
    ∃ groupIndex group, groupIndex.toNat = j ∧
      assembly.partialGroups.lookup groupIndex = some group ∧ group.Has f

/-- The fragment in a symbol of an epoch is there. -/
def Has (assembly : EpochAssembly) (cut : EpochCut) (i : ℕ) : Prop :=
  assembly.HasFragment (cut.place i).1.2 (cut.place i).2

/-- The groups that are not complete miss a fragment. -/
def Unfinished (assembly : EpochAssembly) : Prop :=
  ∀ groupIndex group, assembly.partialGroups.lookup groupIndex = some group →
    none ∈ group.fragments

lemma unfinished_new (blockId : UInt32) (header : MultichannelAudioShardHeader) :
    (EpochAssembly.new blockId header).Unfinished := by
  intro groupIndex group h
  rw [EpochAssembly.new, Finmap.lookup_empty] at h
  cases h

end EpochAssembly

section Epoch

variable {cut : EpochCut} {config : MultichannelAudioFecConfig} {assembly : EpochAssembly}
  {shard : DecodedMultichannelAudioShard} {i : ℕ}

/-- The assembly that a shard is pushed into misses a fragment. -/
lemma EpochAssembly.Unfinished.groupAssembly (h : assembly.Unfinished)
    (fits : cut.geometry.Fits config cut.epoch.groups) {group : MultichannelAudioGroup × ℕ} {f : ℕ}
    (hgroup : group.1 ∈ cut.epoch.groups) :
    none ∈ (assembly.groupAssembly (cut.header (group, f) i)).fragments := by
  rw [EpochAssembly.groupAssembly]
  cases hlookup : assembly.partialGroups.lookup (cut.header (group, f) i).groupIndex with
  | none =>
      have hcount : (cut.header (group, f) i).fragmentCount.toNat
          = group.1.fragmentCount cut.geometry.fragmentPayload :=
        UInt16.toNat_ofNat_of_lt' (EpochCut.fragmentCount_lt fits hgroup)
      have hpos := EpochCut.fragmentCount_pos fits group.1
      rw [Option.getD_none, GroupAssembly.new, hcount]
      exact List.mem_replicate.mpr ⟨Nat.ne_of_gt hpos, rfl⟩
  | some stored => exact h _ stored hlookup

/-- A group that is not complete is kept, with more fragments than before. -/
lemma EpochAssembly.Unfinished.keep (h : assembly.Unfinished) {groupIndex : UInt16}
    {header : MultichannelAudioShardHeader} (hindex : header.groupIndex = groupIndex)
    {stored : GroupAssembly} (hmissing : none ∈ stored.fragments)
    (hmore : ∀ f, (assembly.groupAssembly header).Has f → stored.Has f) :
    let next := { assembly with
      partialGroups := assembly.partialGroups.insert groupIndex stored }
    next.Unfinished ∧ (∀ f, stored.Has f → next.HasFragment groupIndex.toNat f) ∧
      ∀ j f, assembly.HasFragment j f → next.HasFragment j f := by
  refine ⟨fun other kept hlookup => ?_, fun f hf => Or.inr ⟨groupIndex, stored, rfl, ?_, hf⟩, ?_⟩
  · change (assembly.partialGroups.insert groupIndex stored).lookup other = some kept at hlookup
    rw [HashMap.lookup_insert_eq] at hlookup
    split_ifs at hlookup with heq
    · obtain rfl := Option.some.inj hlookup
      exact hmissing
    · exact h other kept hlookup
  · exact Finmap.lookup_insert _
  · rintro j f (hcomplete | ⟨other, kept, hother, hlookup, hf⟩)
    · exact Or.inl hcomplete
    · refine Or.inr ?_
      by_cases heq : other = groupIndex
      · refine ⟨groupIndex, stored, heq ▸ hother, Finmap.lookup_insert _, hmore f ?_⟩
        rwa [EpochAssembly.groupAssembly, hindex, ← heq, hlookup, Option.getD_some]
      · exact ⟨other, kept, hother, (Finmap.lookup_insert_of_ne _ heq).trans hlookup, hf⟩

/-- A group that is complete is put into its place. -/
lemma EpochAssembly.Unfinished.complete (h : assembly.Unfinished) {groupIndex : UInt16}
    (hslot : groupIndex.toNat < assembly.groups.length) (decoded : DecodedMultichannelAudioGroup) :
    let next := { assembly with
      partialGroups := assembly.partialGroups.erase groupIndex
      groups := assembly.groups.set groupIndex.toNat (some decoded) }
    next.Unfinished ∧ (∀ f, next.HasFragment groupIndex.toNat f) ∧
      ∀ j f, assembly.HasFragment j f → next.HasFragment j f := by
  have hown : (assembly.groups.set groupIndex.toNat (some decoded))[groupIndex.toNat]?
      = some (some decoded) := List.getElem?_set_self hslot
  refine ⟨fun other kept hlookup => ?_, fun f => Or.inl ⟨decoded, hown⟩, ?_⟩
  · change (assembly.partialGroups.erase groupIndex).lookup other = some kept at hlookup
    rw [HashMap.lookup_erase_eq] at hlookup
    split_ifs at hlookup
    exact h other kept hlookup
  · intro j f hhas
    by_cases hj : groupIndex.toNat = j
    · exact Or.inl ⟨decoded, hj ▸ hown⟩
    · rcases hhas with ⟨other, hother⟩ | ⟨other, kept, hother, hlookup, hf⟩
      · exact Or.inl ⟨other, (List.getElem?_set_ne hj).trans hother⟩
      · refine Or.inr ⟨other, kept, hother, ?_, hf⟩
        have hne : other ≠ groupIndex := fun heq => hj (heq ▸ hother)
        exact (Finmap.lookup_erase_ne hne).trans hlookup

/-- **A shard of the epoch** adds its fragment, and no fragment is lost. -/
theorem EpochAssembles.push_has (fits : cut.geometry.Fits config cut.epoch.groups)
    (h : EpochAssembles cut assembly) (hunfinished : assembly.Unfinished) (hi : i < cut.count)
    (hheader : shard.header = cut.headerAt i) (hpayload : shard.payload = cut.payloadAt i) :
    (assembly.push shard).2.Unfinished ∧ (assembly.push shard).2.Has cut i ∧
      ∀ k, assembly.Has cut k → (assembly.push shard).2.Has cut k := by
  obtain ⟨hgroup, hf⟩ := EpochCut.place_spec hi
  rw [EpochCut.headerAt] at hheader
  rw [EpochCut.payloadAt] at hpayload
  have hmem := EpochCut.place_mem hi
  have hlt := EpochCut.place_lt hi
  have hsmall := Nat.lt_trans hlt (EpochCut.length_groups_lt fits)
  have hindex : shard.header.groupIndex.toNat = (cut.place i).1.2 := by
    rw [hheader]
    exact UInt16.toNat_ofNat_of_lt' hsmall
  have hvalid : assembly.validateHeader shard.header = .ok () := by
    rw [hheader]
    exact h.validateHeader _ _
  have hstored := h.groupAssembly (f := (cut.place i).2) (i := i) fits hgroup hsmall
  have hmissing := hunfinished.groupAssembly (f := (cut.place i).2) (i := i) fits hmem
  rw [Prod.mk.eta, ← hheader] at hstored hmissing
  obtain ⟨-, completed, hresult, -⟩ := hstored.push fits hmem hf hheader hpayload
  have hslot : shard.header.groupIndex.toNat < assembly.groups.length := by
    rw [hindex, h.length]
    exact hlt
  rw [EpochAssembly.push, hvalid]
  simp only [List.getElem?_eq_getElem hslot]
  cases hget : assembly.groups[shard.header.groupIndex.toNat] with
  | some decoded =>
      refine ⟨hunfinished, Or.inl ⟨decoded, ?_⟩, fun _ h => h⟩
      rw [← hindex, List.getElem?_eq_getElem hslot, hget]
  | none =>
      simp only
      cases completed with
      | none =>
          obtain ⟨hstill, hown, hmore⟩ :=
            hstored.push_has fits hmem hf hheader hmissing hresult
          obtain ⟨hnext, hkeep, hold⟩ := hunfinished.keep rfl hstill hmore
          generalize (assembly.groupAssembly shard.header).push shard = pushed
            at hresult hnext hkeep hold hown ⊢
          obtain ⟨result, next⟩ := pushed
          obtain rfl : result = some (.ok none) := hresult
          exact ⟨hnext, hindex ▸ hkeep _ hown, fun k => hold _ _⟩
      | some decoded =>
          obtain ⟨hnext, hown, hold⟩ := hunfinished.complete hslot decoded
          generalize (assembly.groupAssembly shard.header).push shard = pushed at hresult ⊢
          obtain ⟨result, next⟩ := pushed
          obtain rfl : result = some (.ok (some decoded)) := hresult
          exact ⟨hnext, hindex ▸ hown _, fun k => hold _ _⟩

/-- Every fragment of an epoch is in one of its symbols. -/
lemma EpochCut.exists_place {group : MultichannelAudioGroup} {j f : ℕ}
    (hgroup : cut.epoch.groups[j]? = some group)
    (hf : f < group.fragmentCount cut.geometry.fragmentPayload) :
    ∃ i < cut.count, cut.place i = ((group, j), f) := by
  have hmem : ((group, j), f) ∈ cut.places :=
    List.mem_flatMap.mpr ⟨(group, j), List.mem_zipIdx_iff_getElem?.mpr hgroup,
      List.mem_map_of_mem (List.mem_range.mpr hf)⟩
  obtain ⟨i, hi, heq⟩ := List.mem_iff_getElem.mp hmem
  exact ⟨i, hi, (List.getD_eq_getElem _ _ hi).trans heq⟩

/-- **With all its fragments an epoch is complete.** -/
theorem EpochAssembles.isComplete (fits : cut.geometry.Fits config cut.epoch.groups)
    (h : EpochAssembles cut assembly) (hunfinished : assembly.Unfinished)
    (hall : ∀ i < cut.count, assembly.Has cut i) : assembly.isComplete = true := by
  rw [EpochAssembly.isComplete, List.all_eq_true]
  intro slot hslot
  obtain ⟨j, hj, rfl⟩ := List.mem_iff_getElem.mp hslot
  by_contra hnone
  rw [Bool.not_eq_true, Option.isSome_eq_false_iff, Option.isNone_iff_eq_none] at hnone
  obtain ⟨source, hgroup⟩ : ∃ group, cut.epoch.groups[j]? = some group :=
    ⟨_, List.getElem?_eq_getElem (h.length ▸ hj)⟩
  have hat : ∀ f < source.fragmentCount cut.geometry.fragmentPayload,
      ∃ groupIndex group, groupIndex.toNat = j ∧
        assembly.partialGroups.lookup groupIndex = some group ∧ group.Has f := by
    intro f hf
    obtain ⟨i, hi, hplace⟩ := EpochCut.exists_place hgroup hf
    have hhas := hall i hi
    rw [EpochAssembly.Has, hplace] at hhas
    refine hhas.resolve_left ?_
    rintro ⟨decoded, hdecoded⟩
    rw [List.getElem?_eq_getElem hj, hnone] at hdecoded
    cases hdecoded
  obtain ⟨groupIndex, group, rfl, hlookup, -⟩ := hat 0 (EpochCut.fragmentCount_pos fits _)
  -- the group misses a fragment, which is in the same assembly
  obtain ⟨f, hf, hmiss⟩ := List.mem_iff_getElem.mp (hunfinished groupIndex group hlookup)
  obtain ⟨source', hsource, hassembles⟩ := h.partials groupIndex group hlookup
  obtain rfl := Option.some.inj (hgroup.symm.trans hsource)
  obtain ⟨other, group', hother, hlookup', fragment, hfragment⟩ := hat f (hassembles.length ▸ hf)
  obtain rfl := UInt16.toNat_inj.mp hother
  obtain rfl := Option.some.inj (hlookup.symm.trans hlookup')
  rw [List.getElem?_eq_getElem hf, hmiss] at hfragment
  cases hfragment

end Epoch

end RaptorFec
