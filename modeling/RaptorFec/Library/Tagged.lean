import Mathlib.Data.List.Sigma

/-!
# Lists whose entries carry a tag

* `nodup_flatMap_zipIdx` — entries that are distinct within each part of a list are distinct when
  they are tagged with the place of their part;
* `filter_eq_singleton` — when no two entries have the same tag, one entry is left for each tag;
* `flatMap_ite` — keeping the parts of some entries only;
* `forall_of_forall₂` — what a relation between two lists says of the second list.
-/

namespace RaptorFec

variable {α β : Type*}

/-- Entries tagged with the place they come from. -/
lemma nodup_flatMap_zipIdx {xs : List α} {f : α → List β} (h : ∀ x ∈ xs, (f x).Nodup) :
    (xs.zipIdx.flatMap fun tagged => (f tagged.1).map (tagged.2, ·)).Nodup := by
  refine List.nodup_flatMap.mpr ⟨?_, ?_⟩
  · intro tagged htagged
    have hmem := List.mem_of_getElem? (List.mem_zipIdx_iff_getElem?.mp htagged)
    exact (h _ hmem).map fun _ _ heq => (Prod.mk.inj heq).2
  · refine (List.pairwise_map.mp (List.nodup_zipIdx_map_snd xs)).imp
      fun {a b} hne entry ha hb => hne ?_
    obtain ⟨_, -, rfl⟩ := List.mem_map.mp ha
    obtain ⟨_, -, heq⟩ := List.mem_map.mp hb
    exact (Prod.mk.inj heq).1.symm

/-- Only the entry itself has its tag. -/
lemma filter_eq_singleton [DecidableEq β] {f : α → β} {xs : List α} (h : (xs.map f).Nodup) {x : α}
    (hx : x ∈ xs) : xs.filter (fun y => f y = f x) = [x] := by
  induction xs with
  | nil => simp at hx
  | cons y ys ih =>
      rw [List.map_cons, List.nodup_cons] at h
      have hnone : ∀ z ∈ ys, f z ≠ f y := fun z hz heq => h.1 (heq ▸ List.mem_map_of_mem hz)
      rcases List.mem_cons.mp hx with rfl | hx
      · have hrest : ys.filter (fun z => f z = f x) = [] := by
          simpa [List.filter_eq_nil_iff] using hnone
        simp [hrest]
      · have hne : f y ≠ f x := fun heq => hnone x hx heq.symm
        simpa [hne] using ih h.2 hx

/-- Only the parts of some entries are kept. -/
lemma flatMap_ite (p : α → Prop) [DecidablePred p] (f : α → List β) (xs : List α) :
    (xs.flatMap fun x => if p x then f x else []) = (xs.filter p).flatMap f := by
  induction xs with
  | nil => rfl
  | cons x xs ih => by_cases h : p x <;> simp [h, ih]

/-- What the relation says of the second entries alone holds of all of them. -/
lemma forall_of_forall₂ {R : α → β → Prop} {p : β → Prop} {xs : List α} {ys : List β}
    (h : List.Forall₂ R xs ys) (hp : ∀ x y, R x y → p y) : ∀ y ∈ ys, p y := by
  induction h with
  | nil => exact List.forall_mem_nil _
  | cons hxy _ ih => exact List.forall_mem_cons.mpr ⟨hp _ _ hxy, ih⟩

end RaptorFec
