import Mathlib.Data.Finset.Card
import Mathlib.Data.Finset.Dedup

/-!
# Sets with an insertion order

A program that must forget its oldest elements keeps a set together with a queue of its elements
in the order they were inserted.

* `Enumerates` — the queue lists every element of the set exactly once;
* `Enumerates.snoc`, `Enumerates.tail`, `Enumerates.filter_ne` — inserting at the back, removing
  at the front and removing anywhere keep that;
* `BehindIn` — what stands behind an element, so that it is not the oldest one of a long queue;
* `trim_loop` — the loop that drops the oldest elements of a queue that is too long;
* `remember` — inserting into a queue of bounded length, which drops the oldest elements;
* `remember_split` — an element leaves the queue only when as many younger ones follow it as the
  queue can hold.
-/

namespace RaptorFec

variable {α : Type*}

/-- The queue lists the elements of the set exactly once each. -/
structure Enumerates (order : List α) (s : Finset α) : Prop where
  nodup : order.Nodup
  mem_iff : ∀ x, x ∈ order ↔ x ∈ s

namespace Enumerates

variable {order : List α} {s : Finset α} {x : α}

lemma empty : Enumerates ([] : List α) ∅ := ⟨List.nodup_nil, by simp⟩

variable [DecidableEq α]

lemma length_eq (h : Enumerates order s) : order.length = s.card := by
  have hset : order.toFinset = s := by
    ext x
    rw [List.mem_toFinset, h.mem_iff]
  rw [← hset, List.toFinset_card_of_nodup h.nodup]

/-- A new element is inserted at the back. -/
lemma snoc (h : Enumerates order s) (hx : x ∉ s) : Enumerates (order ++ [x]) (insert x s) := by
  refine ⟨?_, fun y => ?_⟩
  · rw [List.nodup_append]
    refine ⟨h.nodup, List.nodup_singleton x, ?_⟩
    intro y hy z hz
    rw [List.mem_singleton.mp hz]
    rintro rfl
    exact hx ((h.mem_iff y).mp hy)
  · rw [List.mem_append, List.mem_singleton, h.mem_iff, Finset.mem_insert, or_comm]

/-- The oldest element is removed at the front. -/
lemma tail (h : Enumerates (x :: order) s) : Enumerates order (s.erase x) := by
  obtain ⟨hx, hnodup⟩ := List.nodup_cons.mp h.nodup
  refine ⟨hnodup, fun y => ?_⟩
  rw [Finset.mem_erase, ← h.mem_iff, List.mem_cons]
  constructor
  · intro hy
    refine ⟨?_, Or.inr hy⟩
    rintro rfl
    exact hx hy
  · rintro ⟨hne, rfl | hy⟩
    · exact absurd rfl hne
    · exact hy

/-- An element is removed wherever it stands. -/
lemma filter_ne (h : Enumerates order s) (x : α) :
    Enumerates (order.filter (· ≠ x)) (s.erase x) := by
  refine ⟨h.nodup.filter _, fun y => ?_⟩
  simp [h.mem_iff, and_comm]

end Enumerates

/-! ## What stands behind an element -/

/-- The element is in the queue, and what stands behind it is in a given set. -/
def BehindIn (s : Finset α) (x : α) (order : List α) : Prop :=
  ∃ front back, order = front ++ x :: back ∧ ∀ y ∈ back, y ∈ s

namespace BehindIn

variable {order rest : List α} {s : Finset α} {x y : α}

/-- The youngest element has nothing behind it. -/
lemma last (s : Finset α) (x : α) (order : List α) : BehindIn s x (order ++ [x]) :=
  ⟨order, [], rfl, by simp⟩

lemma snoc (h : BehindIn s x order) (hy : y ∈ s) : BehindIn s x (order ++ [y]) := by
  obtain ⟨front, back, rfl, hback⟩ := h
  refine ⟨front, back ++ [y], by simp, fun z hz => ?_⟩
  rcases List.mem_append.mp hz with hz | hz
  · exact hback z hz
  · rwa [List.mem_singleton.mp hz]

lemma tail (h : BehindIn s x (y :: rest)) (hne : y ≠ x) : BehindIn s x rest := by
  obtain ⟨front, back, heq, hback⟩ := h
  cases front with
  | nil => exact absurd (List.cons.inj heq).1 hne
  | cons z front => exact ⟨front, back, (List.cons.inj heq).2, hback⟩

/-- **The oldest element is another one**, when the queue is longer than the set is large. -/
lemma oldest_ne (h : BehindIn s x (y :: rest)) (hnodup : (y :: rest).Nodup) (hx : x ∈ s)
    (hlong : s.card < (y :: rest).length) : y ≠ x := by
  rintro rfl
  obtain ⟨front, back, heq, hback⟩ := h
  have hsub : ∀ z ∈ y :: rest, z ∈ s := by
    cases front with
    | nil =>
        rw [heq]
        exact List.forall_mem_cons.mpr ⟨hx, hback⟩
    | cons z front =>
        -- the element would stand in the queue twice
        obtain ⟨rfl, hrest⟩ := List.cons.inj heq
        exact absurd (hrest ▸ by simp) (List.nodup_cons.mp hnodup).1
  have hsub' : (y :: rest) ⊆ s.toList := fun z hz => Finset.mem_toList.mpr (hsub z hz)
  have hle := (hnodup.subperm hsub').length_le
  rw [Finset.length_toList] at hle
  omega

lemma filter_ne [DecidableEq α] (h : BehindIn s x order) (hne : y ≠ x) :
    BehindIn s x (order.filter (· ≠ y)) := by
  obtain ⟨front, back, rfl, hback⟩ := h
  refine ⟨front.filter (· ≠ y), back.filter (· ≠ y), ?_,
    fun z hz => hback z (List.mem_filter.mp hz).1⟩
  rw [List.filter_append, List.filter_cons_of_pos (by simpa using hne.symm)]

end BehindIn

/-! ## Queues of bounded length -/

section Remember

/-- A queue that drops its oldest elements until it holds no more than `capacity`. -/
def trim (capacity : ℕ) (order : List α) : List α := order.drop (order.length - capacity)

variable {capacity : ℕ} {order front later : List α} {x : α}

lemma length_trim (capacity : ℕ) (order : List α) :
    (trim capacity order).length = min order.length capacity := by
  rw [trim, List.length_drop]
  omega

lemma trim_of_le (h : order.length ≤ capacity) : trim capacity order = order := by
  rw [trim, Nat.sub_eq_zero_of_le h, List.drop_zero]

lemma trim_cons_of_lt (h : capacity < (x :: order).length) :
    trim capacity (x :: order) = trim capacity order := by
  rw [List.length_cons] at h
  rw [trim, trim, List.length_cons, Nat.succ_sub (Nat.lt_succ_iff.mp h), List.drop_succ_cons]

lemma mem_of_mem_trim (h : x ∈ trim capacity order) : x ∈ order := List.mem_of_mem_drop h

/-- As long as an element and what stands behind it fit, trimming drops only what stands before
it. -/
lemma trim_split (hfits : later.length < capacity) :
    ∃ front', trim capacity (front ++ x :: later) = front' ++ x :: later := by
  refine ⟨front.drop ((front ++ x :: later).length - capacity), ?_⟩
  rw [trim, List.drop_append_of_le_length]
  rw [List.length_append, List.length_cons]
  omega

variable [DecidableEq α]

/-- **A loop that trims a queue and its set**: `make` is the state with the two in it, and `loop`
pops the queue while it is too long. -/
theorem trim_loop {σ : Type*} {s : Finset α} (loop : List α → σ → σ)
    (make : List α → Finset α → σ) (hnil : ∀ s, loop [] (make [] s) = make [] s)
    (hcons : ∀ x rest s, loop (x :: rest) (make (x :: rest) s)
      = if capacity < (x :: rest).length then loop rest (make rest (s.erase x))
        else make (x :: rest) s)
    (h : Enumerates order s) :
    ∃ s', Enumerates (trim capacity order) s' ∧
      loop order (make order s) = make (trim capacity order) s' := by
  induction order generalizing s with
  | nil =>
      rw [trim_of_le (Nat.zero_le _)]
      exact ⟨s, h, hnil s⟩
  | cons x rest ih =>
      rw [hcons]
      split_ifs with hlong
      · rw [trim_cons_of_lt hlong]
        exact ih h.tail
      · rw [trim_of_le (Nat.not_lt.mp hlong)]
        exact ⟨s, h, rfl⟩

/-- A value is inserted unless it is there, and the queue is trimmed. -/
def remember (capacity : ℕ) (order : List α) (x : α) : List α :=
  trim capacity (if x ∈ order then order else order ++ [x])

lemma mem_of_mem_remember {y : α} (h : y ∈ remember capacity order x) : y = x ∨ y ∈ order := by
  have hmem := mem_of_mem_trim h
  split_ifs at hmem
  · exact Or.inr hmem
  · rcases List.mem_append.mp hmem with hold | hnew
    · exact Or.inr hold
    · exact Or.inl (List.mem_singleton.mp hnew)

lemma length_remember_le (capacity : ℕ) (order : List α) (x : α) :
    (remember capacity order x).length ≤ capacity := by
  rw [remember, length_trim]
  exact Nat.min_le_right _ _

/-- A set stays apart from the remembered values when the new one is not in it. -/
lemma disjoint_remember {s t t' : Finset α} (hdisjoint : Disjoint s t) (h : Enumerates order t)
    (h' : Enumerates (remember capacity order x) t') (hx : x ∉ s) : Disjoint s t' := by
  rw [Finset.disjoint_left]
  intro y hy hmem
  rcases mem_of_mem_remember ((h'.mem_iff y).mpr hmem) with rfl | hold
  · exact hx hy
  · exact Finset.disjoint_left.mp hdisjoint hy ((h.mem_iff y).mp hold)

/-- **What it takes to be forgotten.**  A remembered element stays, with the younger elements
behind it, or as many other elements stand behind it as the queue can hold. -/
theorem remember_split (y : α) :
    (∃ front' later', remember capacity (front ++ x :: later) y = front' ++ x :: later' ∧
      (later' = later ∨ later' = later ++ [y] ∧ y ∉ front ++ x :: later)) ∨
    (∃ later', capacity ≤ later'.length ∧
      (later' = later ∨ later' = later ++ [y] ∧ y ∉ front ++ x :: later)) := by
  by_cases hy : y ∈ front ++ x :: later
  · rw [remember, if_pos hy]
    rcases Nat.lt_or_ge later.length capacity with hfits | hfull
    · obtain ⟨front', htrim⟩ := trim_split hfits
      exact Or.inl ⟨front', later, htrim, Or.inl rfl⟩
    · exact Or.inr ⟨later, hfull, Or.inl rfl⟩
  · rw [remember, if_neg hy, List.append_assoc, List.cons_append]
    rcases Nat.lt_or_ge (later ++ [y]).length capacity with hfits | hfull
    · obtain ⟨front', htrim⟩ := trim_split hfits
      exact Or.inl ⟨front', later ++ [y], htrim, Or.inr ⟨rfl, hy⟩⟩
    · exact Or.inr ⟨later ++ [y], hfull, Or.inr ⟨rfl, hy⟩⟩

/-- A value just inserted is the youngest. -/
lemma remember_new (hpos : 0 < capacity) (hx : x ∉ order) :
    ∃ front, remember capacity order x = front ++ [x] := by
  rw [remember, if_neg hx]
  exact trim_split (Nat.lt_of_lt_of_eq hpos rfl)

end Remember

end RaptorFec
