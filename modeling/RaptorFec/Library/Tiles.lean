import Mathlib.Data.List.Basic
import Mathlib.Order.Interval.Finset.Nat

/-!
# Segments that tile a list

Segments of a list, each with the offset it goes to.

* `Follow` — each segment starts where the one before it ends;
* `Tiles` — every segment is found at its offset, no two overlap, and no position is left out;
* `Follow.tiles` — segments that follow each other from the start tile their concatenation;
* `Tiles.perm`, `tiles_map` — the order of the segments does not matter, nor what they are kept in.
-/

namespace RaptorFec

variable {α β γ : Type*} (offset : α → ℕ) (contents : α → List β)

/-- Each segment starts where the one before it ends. -/
def Follow : ℕ → List α → Prop
  | _, [] => True
  | start, x :: xs => offset x = start ∧ Follow (start + (contents x).length) xs

/-- The positions of a segment. -/
def extent (x : α) : Finset ℕ := Finset.Ico (offset x) (offset x + (contents x).length)

/-- The segments make up the whole. -/
structure Tiles (whole : List β) (xs : List α) : Prop where
  found : ∀ x ∈ xs, offset x + (contents x).length ≤ whole.length ∧
    (whole.drop (offset x)).take (contents x).length = contents x
  disjoint : xs.Pairwise fun x y => Disjoint (extent offset contents x) (extent offset contents y)
  covers : ∀ n < whole.length, ∃ x ∈ xs, n ∈ extent offset contents x

variable {offset contents} {start : ℕ} {xs ys : List α} {whole : List β}

/-- Segments that follow each other lie between their start and their end, and are read there. -/
lemma Follow.found (h : Follow offset contents start xs) : ∀ x ∈ xs, start ≤ offset x ∧
    offset x + (contents x).length ≤ start + (xs.map contents).flatten.length ∧
    ((xs.map contents).flatten.drop (offset x - start)).take (contents x).length = contents x := by
  induction xs generalizing start with
  | nil => exact List.forall_mem_nil _
  | cons y ys ih =>
      obtain ⟨hstart, hrest⟩ := h
      intro x hx
      rw [List.map_cons, List.flatten_cons, List.length_append]
      rcases List.mem_cons.mp hx with rfl | hx
      · rw [hstart, Nat.sub_self, List.drop_zero, List.take_left]
        exact ⟨le_rfl, by omega, rfl⟩
      · obtain ⟨hle, hend, hread⟩ := ih hrest x hx
        have hdrop : offset x - start
            = (contents y).length + (offset x - (start + (contents y).length)) := by omega
        rw [hdrop, List.drop_append, Nat.add_sub_cancel_left,
          List.drop_eq_nil_of_le (Nat.le_add_right _ _), List.nil_append]
        exact ⟨by omega, by omega, hread⟩

/-- They do not overlap. -/
lemma Follow.disjoint (h : Follow offset contents start xs) :
    xs.Pairwise fun x y => Disjoint (extent offset contents x) (extent offset contents y) := by
  induction xs generalizing start with
  | nil => exact List.Pairwise.nil
  | cons x xs ih =>
      obtain ⟨rfl, hrest⟩ := h
      refine List.Pairwise.cons (fun y hy => ?_) (ih hrest)
      have hle := (hrest.found y hy).1
      rw [extent, extent]
      exact Finset.Ico_disjoint_Ico_consecutive _ _ _ |>.mono_right
        (Finset.Ico_subset_Ico_left hle)

/-- They leave no gap. -/
lemma Follow.covers (h : Follow offset contents start xs) {n : ℕ} (hstart : start ≤ n)
    (hend : n < start + (xs.map contents).flatten.length) :
    ∃ x ∈ xs, n ∈ extent offset contents x := by
  induction xs generalizing start with
  | nil =>
      rw [List.map_nil, List.flatten_nil, List.length_nil] at hend
      omega
  | cons x xs ih =>
      obtain ⟨rfl, hrest⟩ := h
      rw [List.map_cons, List.flatten_cons, List.length_append] at hend
      by_cases hn : n < offset x + (contents x).length
      · exact ⟨x, List.mem_cons_self, Finset.mem_Ico.mpr ⟨hstart, hn⟩⟩
      · obtain ⟨y, hy, hmem⟩ := ih hrest (by omega) (by omega)
        exact ⟨y, List.mem_cons_of_mem _ hy, hmem⟩

/-- **Segments that follow each other tile their concatenation.** -/
theorem Follow.tiles (h : Follow offset contents 0 xs) :
    Tiles offset contents (xs.map contents).flatten xs where
  found x hx := by
    obtain ⟨-, hend, hread⟩ := h.found x hx
    exact ⟨by omega, hread⟩
  disjoint := h.disjoint
  covers n hn := h.covers (Nat.zero_le n) (by omega)

/-- The order of the segments does not matter. -/
lemma Tiles.perm (h : Tiles offset contents whole xs) (hperm : xs.Perm ys) :
    Tiles offset contents whole ys where
  found y hy := h.found y (hperm.mem_iff.mpr hy)
  disjoint := (hperm.pairwise_iff fun hxy => hxy.symm).mp h.disjoint
  covers n hn := by
    obtain ⟨x, hx, hmem⟩ := h.covers n hn
    exact ⟨x, hperm.mem_iff.mp hx, hmem⟩

/-- Nor does what the segments are kept in. -/
lemma tiles_map {g : γ → α} {zs : List γ} : Tiles offset contents whole (zs.map g)
    ↔ Tiles (offset ∘ g) (contents ∘ g) whole zs := by
  constructor
  · intro h
    have hdisjoint := List.pairwise_map.mp h.disjoint
    refine ⟨fun z hz => h.found _ (List.mem_map_of_mem hz), hdisjoint, fun n hn => ?_⟩
    obtain ⟨x, hx, hmem⟩ := h.covers n hn
    obtain ⟨z, hz, rfl⟩ := List.mem_map.mp hx
    exact ⟨z, hz, hmem⟩
  · intro h
    refine ⟨fun x hx => ?_, List.pairwise_map.mpr h.disjoint, fun n hn => ?_⟩
    · obtain ⟨z, hz, rfl⟩ := List.mem_map.mp hx
      exact h.found z hz
    · obtain ⟨z, hz, hmem⟩ := h.covers n hn
      exact ⟨g z, List.mem_map_of_mem hz, hmem⟩

end RaptorFec
