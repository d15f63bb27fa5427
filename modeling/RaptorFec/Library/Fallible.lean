import Mathlib.Data.List.Basic

/-!
# Fallible code

A function that returns a `Result` is an `Except`; its early returns are the binds of a `do`
block.  The lemmas here peel such a block apart, so that no proof unfolds the monad:

* `ok_bind`, `error_bind` — what a bind does on each result;
* `bind_eq_ok_iff` — a block succeeds exactly when its first call does and the rest does on the
  value it returned;
* `mapM_eq_ok_map`, `exists_of_mapM_eq_ok` — what a loop collects that succeeds.
-/

namespace RaptorFec

universe u v

variable {ε : Type u} {α β : Type v}

@[simp] lemma ok_bind (a : α) (f : α → Except ε β) : (Except.ok a >>= f) = f a := rfl

@[simp] lemma error_bind (e : ε) (f : α → Except ε β) :
    ((Except.error e : Except ε α) >>= f) = Except.error e := rfl

lemma bind_eq_ok_iff {x : Except ε α} {f : α → Except ε β} {b : β} :
    (x >>= f) = .ok b ↔ ∃ a, x = .ok a ∧ f a = .ok b := by
  cases x with
  | error e => simp
  | ok a => simp

lemma map_eq_ok_iff {x : Except ε α} {f : α → β} {b : β} :
    x.map f = .ok b ↔ ∃ a, x = .ok a ∧ f a = b := by
  cases x with
  | error e => simp [Except.map]
  | ok a => simp [Except.map]

lemma mapError_eq_ok_iff {ε' : Type u} {x : Except ε α} {f : ε → ε'} {a : α} :
    x.mapError f = .ok a ↔ x = .ok a := by
  cases x with
  | error e => simp [Except.mapError]
  | ok b => simp [Except.mapError]

/-- What a loop that succeeds collects. -/
lemma exists_of_mapM_eq_ok {γ : Type v} {f : γ → Except ε α} {xs : List γ} {ys : List α}
    (h : xs.mapM f = .ok ys) : ∀ y ∈ ys, ∃ x ∈ xs, f x = .ok y := by
  induction xs generalizing ys with
  | nil =>
      cases Except.ok.inj h
      simp
  | cons x xs ih =>
      rw [List.mapM_cons] at h
      obtain ⟨first, hfirst, hcont⟩ := bind_eq_ok_iff.mp h
      obtain ⟨rest, hrest, hys⟩ := bind_eq_ok_iff.mp hcont
      obtain rfl := Except.ok.inj hys
      rw [List.forall_mem_cons]
      refine ⟨⟨x, List.mem_cons_self, hfirst⟩, fun y hy => ?_⟩
      obtain ⟨x', hx', hy'⟩ := ih hrest y hy
      exact ⟨x', List.mem_cons_of_mem x hx', hy'⟩

/-- A loop all of whose turns succeed collects their results. -/
lemma mapM_eq_ok_map {γ δ : Type v} {f : γ → Except ε α} {d : δ → γ} {g : δ → α} {xs : List δ}
    (h : ∀ x ∈ xs, f (d x) = .ok (g x)) : (xs.map d).mapM f = .ok (xs.map g) := by
  induction xs with
  | nil => rfl
  | cons x xs ih =>
      rw [List.forall_mem_cons] at h
      rw [List.map_cons, List.mapM_cons, h.1, ok_bind, ih h.2, ok_bind, List.map_cons]
      rfl

end RaptorFec
