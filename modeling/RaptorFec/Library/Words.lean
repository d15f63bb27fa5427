import Mathlib.Data.UInt

/-!
# Machine words

Readings of fixed-width words that the wrapping, saturating and comparing operations of the
machine types need.

* **Serial numbers.**  A 32-bit counter that wraps is compared by how far ahead of a reference a
  value lies, counted modulo `2 ^ 32`.  `ahead base x` is that distance; measured from one fixed
  base it turns wrapping subtraction and increments into ordinary arithmetic on the naturals.
* **Saturating counters.**  `satAdd`, `satAdd32`, `satAdd16` and `satMul` stop at the largest value
  of the type.
* **Natural sizes.**  A `usize` is a natural number; `satAddUsize`, `satMulUsize` and
  `checkedAddUsize` are the operations that mind its largest value.
* **Bounds.**  `max` and `min` of words are those of the numbers.
-/

namespace RaptorFec

/-! ## Serial numbers -/

/-- How far `x` lies ahead of `base`, modulo `2 ^ 32`. -/
def ahead (base x : UInt32) : ℕ := (x - base).toNat

section Serial

variable {base x y : UInt32}

lemma ahead_eq_mod (base x : UInt32) :
    ahead base x = (2 ^ 32 - base.toNat + x.toNat) % 2 ^ 32 := by
  rw [ahead, UInt32.toNat_sub]

lemma ahead_lt (base x : UInt32) : ahead base x < 2 ^ 32 := UInt32.toNat_lt _

@[simp] lemma ahead_self (base : UInt32) : ahead base base = 0 := by
  simp [ahead]

lemma ahead_inj : ahead base x = ahead base y ↔ x = y := by
  constructor
  · intro h
    have hx := x.toNat_lt
    have hy := y.toNat_lt
    have hb := base.toNat_lt
    rw [ahead_eq_mod, ahead_eq_mod] at h
    exact UInt32.toNat_inj.mp (by omega)
  · exact fun h => h ▸ rfl

/-- The value `n` ahead of `base`. -/
lemma ahead_add_ofNat {n : ℕ} (h : n < 2 ^ 32) : ahead base (base + UInt32.ofNat n) = n := by
  have hb := base.toNat_lt
  rw [ahead_eq_mod, UInt32.toNat_add, UInt32.toNat_ofNat_of_lt' h]
  omega

lemma add_ofNat_ahead (base x : UInt32) : base + UInt32.ofNat (ahead base x) = x :=
  ahead_inj.mp (ahead_add_ofNat (ahead_lt base x))

lemma ahead_add_one (h : ahead base x + 1 < 2 ^ 32) : ahead base (x + 1) = ahead base x + 1 := by
  have hb := base.toNat_lt
  have hx := x.toNat_lt
  have h1 : (1 : UInt32).toNat = 1 := rfl
  rw [ahead_eq_mod] at h ⊢
  rw [ahead_eq_mod, UInt32.toNat_add, h1]
  omega

/-- Wrapping subtraction between two values, the second not behind the first. -/
lemma ahead_of_le (h : ahead base x ≤ ahead base y) :
    ahead x y = ahead base y - ahead base x := by
  have hb := base.toNat_lt
  have hx := x.toNat_lt
  have hy := y.toNat_lt
  rw [ahead_eq_mod, ahead_eq_mod] at h
  rw [ahead_eq_mod, ahead_eq_mod, ahead_eq_mod]
  omega

/-- Wrapping subtraction between two values, the second behind the first. -/
lemma ahead_of_lt (h : ahead base y < ahead base x) :
    ahead x y = 2 ^ 32 - (ahead base x - ahead base y) := by
  have hb := base.toNat_lt
  have hx := x.toNat_lt
  have hy := y.toNat_lt
  rw [ahead_eq_mod, ahead_eq_mod] at h
  rw [ahead_eq_mod, ahead_eq_mod, ahead_eq_mod]
  omega

end Serial

/-! ## Saturating counters -/

/-- `u64::saturating_add`. -/
def satAdd (a b : UInt64) : UInt64 := UInt64.ofNat (min (a.toNat + b.toNat) (2 ^ 64 - 1))

lemma toNat_satAdd (a b : UInt64) :
    (satAdd a b).toNat = min (a.toNat + b.toNat) (2 ^ 64 - 1) := by
  rw [satAdd, UInt64.toNat_ofNat_of_lt']
  simp only [UInt64.size]
  omega

/-- `u64::saturating_mul`. -/
def satMul (a b : UInt64) : UInt64 := UInt64.ofNat (min (a.toNat * b.toNat) (2 ^ 64 - 1))

lemma toNat_satMul (a b : UInt64) :
    (satMul a b).toNat = min (a.toNat * b.toNat) (2 ^ 64 - 1) := by
  rw [satMul, UInt64.toNat_ofNat_of_lt']
  simp only [UInt64.size]
  omega

/-- `u64::saturating_sub`. -/
def satSub (a b : UInt64) : UInt64 := if b ≤ a then a - b else 0

/-- `u64::checked_sub`. -/
def checkedSub (a b : UInt64) : Option UInt64 := if b ≤ a then some (a - b) else none

/-- `u32::saturating_add`. -/
def satAdd32 (a b : UInt32) : UInt32 := UInt32.ofNat (min (a.toNat + b.toNat) (2 ^ 32 - 1))

lemma toNat_satAdd32 (a b : UInt32) :
    (satAdd32 a b).toNat = min (a.toNat + b.toNat) (2 ^ 32 - 1) := by
  rw [satAdd32, UInt32.toNat_ofNat_of_lt']
  simp only [UInt32.size]
  omega

/-- `u32::saturating_sub`. -/
def satSub32 (a b : UInt32) : UInt32 := if b ≤ a then a - b else 0

/-- `u16::saturating_add`. -/
def satAdd16 (a b : UInt16) : UInt16 := UInt16.ofNat (min (a.toNat + b.toNat) (2 ^ 16 - 1))

lemma toNat_satAdd16 (a b : UInt16) :
    (satAdd16 a b).toNat = min (a.toNat + b.toNat) (2 ^ 16 - 1) := by
  rw [satAdd16, UInt16.toNat_ofNat_of_lt']
  simp only [UInt16.size]
  omega

/-! ## Natural sizes -/

/-- `usize::MAX`, on a target with 64-bit addresses. -/
def usizeMax : ℕ := 2 ^ 64 - 1

/-- `usize::saturating_add`. -/
def satAddUsize (a b : ℕ) : ℕ := min (a + b) usizeMax

/-- `usize::saturating_mul`. -/
def satMulUsize (a b : ℕ) : ℕ := min (a * b) usizeMax

/-- `usize::checked_add`. -/
def checkedAddUsize (a b : ℕ) : Option ℕ := if a + b ≤ usizeMax then some (a + b) else none

/-! ## Bounds -/

/-- `max(1)` leaves a positive word alone. -/
lemma max_one_eq {x : UInt16} (h : 0 < x.toNat) : max x 1 = x :=
  UInt16.toNat_inj.mp (by rw [UInt16.toNat_max]; exact Nat.max_eq_left h)

/-- `max(1)` is positive. -/
lemma max_one_pos (x : UInt16) : 0 < (max x 1).toNat := by
  rw [UInt16.toNat_max]
  exact Nat.lt_of_lt_of_le Nat.one_pos (Nat.le_max_right _ _)

/-- Counting on from the next word. -/
lemma add_one_add_ofNat (x : UInt32) (i : ℕ) :
    x + 1 + UInt32.ofNat i = x + UInt32.ofNat (i + 1) := by
  rw [UInt32.ofNat_add, UInt32.add_assoc, UInt32.add_comm 1]
  rfl

/-! ## Lists in two parts -/

/-- A list whose front satisfies a condition and whose back does not is split where the condition
fails first. -/
lemma takeWhile_dropWhile_append {α : Type*} {p : α → Bool} {front back : List α}
    (hfront : ∀ x ∈ front, p x = true) (hback : ∀ x ∈ back, p x = false) :
    (front ++ back).takeWhile p = front ∧ (front ++ back).dropWhile p = back := by
  rw [List.takeWhile_append_of_pos hfront, List.dropWhile_append_of_pos hfront]
  cases back with
  | nil => simp
  | cons x xs =>
      have hx : p x = false := hback x List.mem_cons_self
      simp [hx]

/-! ## Numbered lists -/

/-- A list numbered from some value on, behind another one that ends right before it. -/
lemma map_append_range {α β : Type*} {f : α → β} {g : ℕ → β} {xs ys : List α}
    (hxs : xs.map f = (List.range xs.length).map g)
    (hys : ys.map f = (List.range ys.length).map fun i => g (xs.length + i)) :
    (xs ++ ys).map f = (List.range (xs ++ ys).length).map g := by
  rw [List.map_append, hxs, hys, List.length_append, List.range_add, List.map_append, List.map_map]
  rfl

end RaptorFec
