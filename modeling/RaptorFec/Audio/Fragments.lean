import Mathlib.Algebra.Order.BigOperators.Group.List
import RaptorFec.Audio.Transmission
import RaptorFec.Library.Tagged

/-!
# The fragments of an epoch

The sizes in a geometry that fits: no count and no offset overflows its field of the shard header,
and the fragments of a group are full up to the last one.
-/

namespace RaptorFec

namespace EpochCut

variable {cut : EpochCut} {config : MultichannelAudioFecConfig} {group : MultichannelAudioGroup}

/-- The group and the fragment in a symbol. -/
lemma place_spec {i : ℕ} (hi : i < cut.count) :
    cut.epoch.groups[(cut.place i).1.2]? = some (cut.place i).1.1 ∧
      (cut.place i).2 < (cut.place i).1.1.fragmentCount cut.geometry.fragmentPayload := by
  have hplace : cut.place i = cut.places.get ⟨i, hi⟩ := List.getD_eq_getElem _ _ hi
  have hmem : cut.place i ∈ cut.places := hplace ▸ List.get_mem _ _
  obtain ⟨group, hgroup, hmap⟩ := List.mem_flatMap.mp hmem
  obtain ⟨f, hf, heq⟩ := List.mem_map.mp hmap
  rw [← heq]
  exact ⟨List.mem_zipIdx_iff_getElem?.mp hgroup, List.mem_range.mp hf⟩

lemma place_lt {i : ℕ} (hi : i < cut.count) : (cut.place i).1.2 < cut.epoch.groups.length :=
  (List.getElem?_eq_some_iff.mp (place_spec hi).1).1

lemma place_mem {i : ℕ} (hi : i < cut.count) : (cut.place i).1.1 ∈ cut.epoch.groups :=
  List.mem_of_getElem? (place_spec hi).1

section Fits

variable (fits : cut.geometry.Fits config cut.epoch.groups)

include fits

lemma fragmentCount_pos (group : MultichannelAudioGroup) :
    0 < group.fragmentCount cut.geometry.fragmentPayload := by
  by_contra hzero
  have hle : max group.payload.length 1 ⌈/⌉ cut.geometry.fragmentPayload ≤ 0 :=
    Nat.not_lt.mp hzero
  rw [ceilDiv_le_iff_le_mul fits.fragmentPayload_pos, Nat.mul_zero] at hle
  omega

/-- All fragments but the last one are full, and the last one ends the payload. -/
lemma fragments_cover (group : MultichannelAudioGroup) :
    group.payload.length
        ≤ group.fragmentCount cut.geometry.fragmentPayload * cut.geometry.fragmentPayload ∧
      (group.fragmentCount cut.geometry.fragmentPayload - 1) * cut.geometry.fragmentPayload
        ≤ group.payload.length := by
  have hpos := fragmentCount_pos fits group
  have hupper := (ceilDiv_le_iff_le_mul fits.fragmentPayload_pos).mp
    (Nat.le_refl (max group.payload.length 1 ⌈/⌉ cut.geometry.fragmentPayload))
  have hlower : ¬ max group.payload.length 1 ≤ cut.geometry.fragmentPayload
      * (group.fragmentCount cut.geometry.fragmentPayload - 1) := by
    rw [← ceilDiv_le_iff_le_mul fits.fragmentPayload_pos]
    change ¬ group.fragmentCount cut.geometry.fragmentPayload ≤ _
    omega
  rw [Nat.mul_comm] at hupper hlower
  change _ ≤ group.fragmentCount cut.geometry.fragmentPayload * _ at hupper
  omega

lemma fragmentCount_lt (hgroup : group ∈ cut.epoch.groups) :
    group.fragmentCount cut.geometry.fragmentPayload < 2 ^ 16 := by
  have hle := List.le_sum_of_mem (List.mem_map_of_mem
    (f := fun group : MultichannelAudioGroup =>
      group.fragmentCount cut.geometry.fragmentPayload) hgroup)
  rw [← fits.sourceSymbols_eq] at hle
  exact Nat.lt_of_le_of_lt hle cut.geometry.sourceSymbols.toNat_lt

lemma length_groups_lt : cut.epoch.groups.length < 2 ^ 16 := by
  have hle := List.length_le_sum_of_one_le (cut.epoch.groups.map fun group =>
    group.fragmentCount cut.geometry.fragmentPayload) fun count hcount => by
      obtain ⟨group, -, rfl⟩ := List.mem_map.mp hcount
      exact fragmentCount_pos fits group
  rw [List.length_map, ← fits.sourceSymbols_eq] at hle
  exact Nat.lt_of_le_of_lt hle cut.geometry.sourceSymbols.toNat_lt

lemma length_payload_lt (hgroup : group ∈ cut.epoch.groups) : group.payload.length < 2 ^ 32 := by
  have hcount := fragmentCount_lt fits hgroup
  have hsize := cut.geometry.symbolSize.toNat_lt
  rw [fits.symbolSize_eq] at hsize
  have hle : group.fragmentCount cut.geometry.fragmentPayload * cut.geometry.fragmentPayload
      ≤ (2 ^ 16 - 1) * (2 ^ 16 - 1) := Nat.mul_le_mul (by omega) (by omega)
  have hcover := (fragments_cover fits group).1
  omega

/-- The offset of a fragment fits its field. -/
lemma toNat_payloadOffset (hgroup : group ∈ cut.epoch.groups) {f : ℕ}
    (hf : f < group.fragmentCount cut.geometry.fragmentPayload) :
    (UInt32.ofNat (f * cut.geometry.fragmentPayload)).toNat = f * cut.geometry.fragmentPayload := by
  have hle : f * cut.geometry.fragmentPayload
      ≤ (group.fragmentCount cut.geometry.fragmentPayload - 1) * cut.geometry.fragmentPayload :=
    Nat.mul_le_mul_right _ (by omega)
  exact UInt32.toNat_ofNat_of_lt' (Nat.lt_of_le_of_lt
    (Nat.le_trans hle (fragments_cover fits group).2) (length_payload_lt fits hgroup))

/-- A fragment that is not the last one is full. -/
lemma length_fragment {f : ℕ} (hf : f + 1 < group.fragmentCount cut.geometry.fragmentPayload) :
    (group.fragment cut.geometry.fragmentPayload f).length = cut.geometry.fragmentPayload := by
  have hle : (f + 1) * cut.geometry.fragmentPayload
      ≤ (group.fragmentCount cut.geometry.fragmentPayload - 1) * cut.geometry.fragmentPayload :=
    Nat.mul_le_mul_right _ (by omega)
  have hcover := (fragments_cover fits group).2
  rw [Nat.add_mul, Nat.one_mul] at hle
  rw [fragment_eq_piece, length_piece]
  omega

end Fits

end EpochCut

end RaptorFec
