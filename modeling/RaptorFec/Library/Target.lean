import RaptorFec.Library.Bytes

/-!
# Target machines

The arithmetic of `usize` depends on the width of a pointer, and on whether the program was built
with overflow checks.  Code that depends on either is an `Option`: `none` is a panic.

* `Target.add` — an addition, which wraps around where overflow is not checked;
* `PointerWidth.satAdd` — an addition that saturates at `usize::MAX`;
* `checkedSlice` — a slice, which panics out of bounds;
* `add_eq_some`, `add_eq_none_iff` — additions below the limit are those of the naturals, on every
  target, and the others panic where overflow is checked.
-/

namespace RaptorFec

/-- The width of a pointer. -/
inductive PointerWidth where
  | bits32
  | bits64
  deriving DecidableEq, Repr

/-- One past `usize::MAX`. -/
def PointerWidth.limit : PointerWidth → ℕ
  | .bits32 => 2 ^ 32
  | .bits64 => 2 ^ 64

/-- `usize::saturating_add`. -/
def PointerWidth.satAdd (width : PointerWidth) (a b : ℕ) : ℕ := min (a + b) (width.limit - 1)

/-- A machine a program is built for, with or without overflow checks. -/
structure Target where
  width : PointerWidth
  overflowChecks : Bool
  deriving DecidableEq, Repr

/-- `a + b` of type `usize`. -/
def Target.add (target : Target) (a b : ℕ) : Option ℕ :=
  if a + b < target.width.limit then some (a + b)
  else if target.overflowChecks then none
  else some ((a + b) % target.width.limit)

/-- `&bytes[a..b]`. -/
def checkedSlice (bytes : Bytes) (a b : ℕ) : Option Bytes :=
  if a ≤ b ∧ b ≤ bytes.length then some (slice bytes a b) else none

lemma PointerWidth.limit_ge (width : PointerWidth) : 2 ^ 32 ≤ width.limit := by
  cases width <;> decide

lemma PointerWidth.satAdd_eq {width : PointerWidth} {a b : ℕ} (h : a + b < width.limit) :
    width.satAdd a b = a + b := Nat.min_eq_left (Nat.le_sub_one_of_lt h)

lemma Target.add_eq_some {target : Target} {a b : ℕ} (h : a + b < target.width.limit) :
    target.add a b = some (a + b) := if_pos h

/-- Where overflow is checked, an addition panics exactly when it overflows. -/
lemma Target.add_eq_none_iff {width : PointerWidth} {a b : ℕ} :
    (Target.mk width true).add a b = none ↔ width.limit ≤ a + b := by
  rw [Target.add]
  constructor
  · intro h
    split_ifs at h with hlt
    exact Nat.not_lt.mp hlt
  · intro h
    rw [if_neg (Nat.not_lt.mpr h)]
    rfl

/-- Where overflow is not checked, no addition panics. -/
lemma Target.add_wraps {width : PointerWidth} (a b : ℕ) :
    (Target.mk width false).add a b = some ((a + b) % width.limit) := by
  rw [Target.add]
  by_cases hlt : a + b < width.limit
  · rw [if_pos hlt, Nat.mod_eq_of_lt hlt]
  · rw [if_neg hlt]
    rfl

lemma checkedSlice_eq_some {bytes : Bytes} {a b : ℕ} (hab : a ≤ b) (hb : b ≤ bytes.length) :
    checkedSlice bytes a b = some (slice bytes a b) := if_pos ⟨hab, hb⟩

lemma checkedSlice_drop {bytes : Bytes} {a : ℕ} (ha : a ≤ bytes.length) :
    checkedSlice bytes a bytes.length = some (bytes.drop a) := by
  rw [checkedSlice_eq_some ha le_rfl, slice, List.take_of_length_le (by rw [List.length_drop])]

lemma checkedSlice_eq_none {bytes : Bytes} {a b : ℕ} (hb : bytes.length < b) :
    checkedSlice bytes a b = none := if_neg fun h => absurd h.2 (Nat.not_le.mpr hb)

end RaptorFec
