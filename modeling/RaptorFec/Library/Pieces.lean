import Mathlib.Algebra.Order.BigOperators.Group.List
import Mathlib.Algebra.Order.Floor.Div
import Mathlib.Data.Finset.Max
import Mathlib.GroupTheory.GroupAction.Ring

/-!
# Cutting lengths into pieces of one size

Some lengths are cut into pieces of one size, the last piece of each being shorter.

* `pieces` — the number of pieces of all lengths;
* `tight` — the least size that cuts a length into as few pieces as a given size does;
* `exists_tight` — the number of pieces a size leads to is that of a size that is tight for one of
  the lengths, and not larger.  Whoever looks for a cheapest size only has to try those.
-/

namespace RaptorFec

/-- The number of pieces of a size that some lengths are cut into. -/
def pieces (lengths : List ℕ) (size : ℕ) : ℕ := (lengths.map fun length => length ⌈/⌉ size).sum

/-- The least size that cuts a length into as few pieces as a given size. -/
def tight (size length : ℕ) : ℕ := length ⌈/⌉ (length ⌈/⌉ size)

variable {size size' length : ℕ} {lengths : List ℕ}

/-! ## One length -/

/-- Larger pieces are fewer. -/
lemma ceilDiv_anti (hsize : 0 < size) (hle : size ≤ size') :
    length ⌈/⌉ size' ≤ length ⌈/⌉ size := by
  rw [ceilDiv_le_iff_le_mul (Nat.lt_of_lt_of_le hsize hle)]
  exact Nat.le_trans (le_smul_ceilDiv hsize) (Nat.mul_le_mul_right _ hle)

lemma ceilDiv_pos (hsize : 0 < size) (hlength : 0 < length) : 0 < length ⌈/⌉ size := by
  by_contra hzero
  have hle : length ≤ size • (length ⌈/⌉ size) := le_smul_ceilDiv hsize
  rw [Nat.eq_zero_of_not_pos hzero, smul_zero] at hle
  omega

lemma tight_le (hsize : 0 < size) (hlength : 0 < length) : tight size length ≤ size := by
  rw [tight, ceilDiv_le_iff_le_mul (ceilDiv_pos hsize hlength), Nat.mul_comm]
  exact le_smul_ceilDiv hsize

lemma tight_pos (hsize : 0 < size) (hlength : 0 < length) : 0 < tight size length :=
  ceilDiv_pos (ceilDiv_pos hsize hlength) hlength

/-- The tight size, and so every larger one, cuts the length into as few pieces. -/
lemma ceilDiv_le_of_tight_le (hsize : 0 < size) (hlength : 0 < length)
    (hle : tight size length ≤ size') : length ⌈/⌉ size' ≤ length ⌈/⌉ size := by
  have hcount := ceilDiv_pos hsize hlength
  rw [ceilDiv_le_iff_le_mul (Nat.lt_of_lt_of_le (tight_pos hsize hlength) hle), Nat.mul_comm,
    ← ceilDiv_le_iff_le_mul hcount]
  exact hle

/-! ## Several lengths -/

lemma ceilDiv_le_pieces (hmem : length ∈ lengths) : length ⌈/⌉ size ≤ pieces lengths size :=
  List.single_le_sum (fun _ _ => Nat.zero_le _) _ (List.mem_map_of_mem hmem)

lemma pieces_anti (hsize : 0 < size) (hle : size ≤ size') :
    pieces lengths size' ≤ pieces lengths size :=
  List.sum_le_sum fun _ _ => ceilDiv_anti hsize hle

/-- **A tight size is enough**: the largest of the tight sizes cuts every length into as many pieces
as the given size. -/
theorem exists_tight (hne : lengths ≠ []) (hlengths : ∀ length ∈ lengths, 0 < length)
    (hsize : 0 < size) :
    ∃ length ∈ lengths, tight size length ≤ size ∧
      pieces lengths (tight size length) = pieces lengths size := by
  obtain ⟨length, hmem, hmax⟩ := lengths.toFinset.exists_max_image (tight size)
    (List.toFinset_nonempty_iff _ |>.mpr hne)
  rw [List.mem_toFinset] at hmem
  have hle := tight_le hsize (hlengths length hmem)
  have hpos := tight_pos hsize (hlengths length hmem)
  refine ⟨length, hmem, hle, congrArg List.sum (List.map_congr_left fun other hother => ?_)⟩
  have hother_le : tight size other ≤ tight size length :=
    hmax other (List.mem_toFinset.mpr hother)
  exact Nat.le_antisymm (ceilDiv_le_of_tight_le hsize (hlengths other hother) hother_le)
    (ceilDiv_anti hpos hle)

end RaptorFec
