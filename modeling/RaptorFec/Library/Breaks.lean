import RaptorFec.Library.Fallible

/-!
# Loops with a labelled break

A loop whose body may leave it is a `foldlM` in `Except`: an error carries the state in which the
loop was left, through all the loops around it.

* `finalState` — the state a loop ends in, whether it was left or not;
* `foldlM_keeps` — an invariant of the body holds in the final state;
* `Visits` — what the loop has done is what a plain loop does over the items up to some point, or
  over all of them when it was not left; `Visits.foldlM` is the rule for a loop of such bodies, and
  so for loops in loops.
-/

namespace RaptorFec

variable {σ τ ι κ : Type*}

/-- The state a loop ends in. -/
def finalState : Except σ σ → σ
  | .ok s => s
  | .error s => s

/-- What a loop keeps. -/
lemma foldlM_keeps {Inv : σ → Prop} {body : σ → ι → Except σ σ} {xs : List ι} {s : σ}
    (hbody : ∀ x ∈ xs, ∀ s, Inv s → Inv (finalState (body s x))) (h : Inv s) :
    Inv (finalState (xs.foldlM body s)) := by
  induction xs generalizing s with
  | nil => exact h
  | cons x xs ih =>
      have hfirst := hbody x List.mem_cons_self s h
      rw [List.foldlM_cons]
      cases hstep : body s x with
      | error t =>
          rw [hstep] at hfirst
          exact hfirst
      | ok t =>
          rw [hstep] at hfirst
          exact ih (fun y hy => hbody y (List.mem_cons_of_mem _ hy)) hfirst

section Visits

variable (view : σ → τ) (step : τ → κ → τ) (leave : τ → τ)

/-- The part of the state in view is that of a plain loop over the items; when the loop was left,
over those up to some point. -/
def Visits (items : List κ) (s : σ) : Except σ σ → Prop
  | .ok t => view t = items.foldl step (view s)
  | .error t => ∃ done, done <+: items ∧ view t = leave (done.foldl step (view s))

variable {view step leave} {items items' : List κ} {s t : σ} {result : Except σ σ}

lemma Visits.append (h : Visits view step leave items s (.ok t))
    (h' : Visits view step leave items' t result) :
    Visits view step leave (items ++ items') s result := by
  have hview : view t = items.foldl step (view s) := h
  cases result with
  | ok u =>
      have hview' : view u = items'.foldl step (view t) := h'
      change view u = (items ++ items').foldl step (view s)
      rw [hview', hview, List.foldl_append]
  | error u =>
      obtain ⟨done, hdone, hview'⟩ := h'
      refine ⟨items ++ done, (List.prefix_append_right_inj items).mpr hdone, ?_⟩
      rw [hview', hview, List.foldl_append]

lemma Visits.left (h : Visits view step leave items s (.error t)) (items' : List κ) :
    Visits view step leave (items ++ items') s (.error t) := by
  obtain ⟨done, hdone, hview⟩ := h
  exact ⟨done, hdone.trans (List.prefix_append _ _), hview⟩

/-- **A loop over bodies that visit their items** visits the items of all of them. -/
theorem Visits.foldlM {body : σ → ι → Except σ σ} {itemsOf : ι → List κ} {xs : List ι}
    (h : ∀ x ∈ xs, ∀ s, Visits view step leave (itemsOf x) s (body s x)) (s : σ) :
    Visits view step leave (xs.flatMap itemsOf) s (xs.foldlM body s) := by
  induction xs generalizing s with
  | nil => rfl
  | cons x xs ih =>
      have hfirst := h x List.mem_cons_self s
      have hrest := ih fun y hy => h y (List.mem_cons_of_mem _ hy)
      rw [List.foldlM_cons, List.flatMap_cons]
      cases hstep : body s x with
      | error t =>
          rw [hstep] at hfirst
          exact hfirst.left _
      | ok t =>
          rw [hstep] at hfirst
          exact hfirst.append (hrest t)

end Visits

end RaptorFec
