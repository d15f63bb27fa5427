import Mathlib.Data.List.Perm.Basic
import Mathlib.Data.List.Induction

/-!
# Best fit

A scan over a list that keeps the index of a smallest entry of at least a given size.

* `bestFit` — the scan, with the size of the entry it keeps; it starts from a limit that no entry
  is expected to reach;
* `bestFit_spec` — the entry it stops at is the smallest one that is large enough, and it finds none
  only when no entry below the limit is large enough;
* `cons_set_perm` — an entry that is overwritten is exchanged for the new one.
-/

namespace RaptorFec

variable {α : Type} (size : α → ℕ) (least limit : ℕ)

/-- The index of a smallest entry of size at least `least`, and its size. -/
def bestFit (entries : List α) : Option ℕ × ℕ :=
  entries.zipIdx.foldl
    (fun best entry =>
      if least ≤ size entry.1 ∧ size entry.1 < best.2 then (some entry.2, size entry.1) else best)
    ((none : Option ℕ), limit)

/-- The scan over one more entry. -/
lemma bestFit_snoc (entries : List α) (entry : α) :
    bestFit size least limit (entries ++ [entry])
      = if least ≤ size entry ∧ size entry < (bestFit size least limit entries).2 then
          (some entries.length, size entry)
        else bestFit size least limit entries := by
  rw [bestFit, List.zipIdx_append, List.foldl_append]
  simp only [List.zipIdx_cons, List.zipIdx_nil, List.foldl_cons, List.foldl_nil, Nat.zero_add]
  rfl

/-- What the scan has found among the entries. -/
def BestAmong (entries : List α) (best : Option ℕ × ℕ) : Prop :=
  match best.1 with
  | some index => ∃ entry, entries[index]? = some entry ∧ best.2 = size entry ∧
      least ≤ size entry ∧ ∀ other ∈ entries, least ≤ size other → size entry ≤ size other
  | none => best.2 = limit ∧ ∀ other ∈ entries, least ≤ size other → limit ≤ size other

/-- The size the scan keeps is a lower bound of those that are large enough. -/
lemma BestAmong.le {size : α → ℕ} {least limit : ℕ} {entries : List α} {best : Option ℕ × ℕ}
    (h : BestAmong size least limit entries best) {other : α} (hmem : other ∈ entries)
    (hleast : least ≤ size other) : best.2 ≤ size other := by
  obtain ⟨index, kept⟩ := best
  cases index with
  | some index =>
      obtain ⟨entry, -, heq, -, hle⟩ := h
      exact heq ▸ hle other hmem hleast
  | none => exact h.1 ▸ h.2 other hmem hleast

/-- An entry that is too small, or not smaller than the one that is kept, changes nothing. -/
lemma BestAmong.snoc {size : α → ℕ} {least limit : ℕ} {entries : List α} {best : Option ℕ × ℕ}
    (h : BestAmong size least limit entries best) {entry : α}
    (hentry : least ≤ size entry → best.2 ≤ size entry) :
    BestAmong size least limit (entries ++ [entry]) best := by
  obtain ⟨index, kept⟩ := best
  cases index with
  | some index =>
      obtain ⟨found, hfound, rfl, hleast, hle⟩ := h
      have hlt : index < entries.length := (List.getElem?_eq_some_iff.mp hfound).1
      refine ⟨found, by rw [List.getElem?_append_left hlt, hfound], rfl, hleast, ?_⟩
      rw [List.forall_mem_append]
      exact ⟨hle, by simpa using hentry⟩
  | none =>
      obtain ⟨rfl, hle⟩ := h
      refine ⟨rfl, ?_⟩
      rw [List.forall_mem_append]
      exact ⟨hle, by simpa using hentry⟩

/-- **The scan finds the best fit.** -/
theorem bestFit_spec (entries : List α) :
    BestAmong size least limit entries (bestFit size least limit entries) := by
  induction entries using List.reverseRecOn with
  | nil => exact ⟨rfl, by simp⟩
  | append_singleton entries entry ih =>
      rw [bestFit_snoc]
      split_ifs with hbetter
      · refine ⟨entry, by simp, rfl, hbetter.1, ?_⟩
        intro other hmem hleast
        rcases List.mem_append.mp hmem with hold | hnew
        · exact Nat.le_of_lt (Nat.lt_of_lt_of_le hbetter.2 (ih.le hold hleast))
        · exact Nat.le_of_eq (congrArg size (List.mem_singleton.mp hnew).symm)
      · refine ih.snoc ?_
        intro hleast
        exact Nat.le_of_not_lt fun hlt => hbetter ⟨hleast, hlt⟩

/-- An entry that is overwritten is exchanged for the new one. -/
lemma cons_set_perm {entries : List α} {index : ℕ} {entry : α} (new : α)
    (h : entries[index]? = some entry) : (new :: entries).Perm (entry :: entries.set index new) := by
  induction entries generalizing index with
  | nil => cases h
  | cons first entries ih =>
      cases index with
      | zero =>
          obtain rfl := Option.some.inj h
          exact List.Perm.swap first new entries
      | succ index =>
          have hrest : (new :: entries).Perm (entry :: entries.set index new) := ih h
          exact (List.Perm.swap first new entries).trans
            ((hrest.cons first).trans (List.Perm.swap entry first _))

end RaptorFec
