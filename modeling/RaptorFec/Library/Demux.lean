import Mathlib.Data.List.Forall2
import RaptorFec.Library.Runs

/-!
# Components that serve several clients

A component takes the inputs of several clients from one queue.  To one of the clients it is a
machine of its own when the inputs of that client do to the component what they do to the machine,
and the inputs of all others do nothing to the part of the state that the client can see.

* `Serves` — this, for the client whose inputs `own` picks out, while the inputs satisfy `Ok`;
* `ownOutputs` — the outputs along a run that answer the inputs of the client;
* `Serves.exists_of_own` — each of these is an output of the machine on the inputs of the client,
  however the inputs of the others are interleaved with them;
* `Serves.filterMap_outputs` — what the outputs hold for the client is what the machine returns;
* `Serves.run_between` — the outputs to the client are those of the machine also when only the
  inputs between two of the client's satisfy `Ok`: before its first input the client is unknown, and
  behind its last one it asks nothing more;
* `Serves.outputs_eq_between` — the same, when the outputs are equal.
-/

namespace RaptorFec

variable {υ σ ι κ ο ρ : Type*}

/-- To the client whose inputs `own` picks out, the component is the machine: `R` relates what the
client can see of its state to the state of the machine. -/
structure Serves (step : υ → ι → ο × υ) (machine : σ → κ → ρ × σ) (own : ι → Option κ)
    (O : ο → ρ → Prop) (R : υ → σ → Prop) (Ok : ι → Prop) : Prop where
  mine : ∀ u s i k, R u s → Ok i → own i = some k →
    O (step u i).1 (machine s k).1 ∧ R (step u i).2 (machine s k).2
  others : ∀ u s i, R u s → Ok i → own i = none → R (step u i).2 s

/-- The outputs that answer the inputs of the client. -/
def ownOutputs (own : ι → Option κ) (is : List ι) (os : List ο) : List ο :=
  (is.zip os).filterMap fun answered => (own answered.1).map fun _ => answered.2

variable {own : ι → Option κ} {i : ι} {is : List ι} {o : ο} {os : List ο}

lemma ownOutputs_cons_mine {k : κ} (h : own i = some k) :
    ownOutputs own (i :: is) (o :: os) = o :: ownOutputs own is os := by
  rw [ownOutputs, List.zip_cons_cons, List.filterMap_cons_some (by rw [h]; rfl), ownOutputs]

lemma ownOutputs_cons_other (h : own i = none) :
    ownOutputs own (i :: is) (o :: os) = ownOutputs own is os := by
  rw [ownOutputs, List.zip_cons_cons, List.filterMap_cons_none (by rw [h]; rfl), ownOutputs]

section Run

variable {step : υ → ι → ο × υ} {machine : σ → κ → ρ × σ} {O : ο → ρ → Prop} {R : υ → σ → Prop}
  {Ok : ι → Prop}

/-- Every output to the client is one that the machine gives to the same input. -/
lemma Serves.exists_of_own (h : Serves step machine own O R Ok) {u : υ} {s : σ} (hR : R u s)
    (hok : ∀ i ∈ is, Ok i) {answered : ι × ο} (hin : answered ∈ is.zip (runOutputs step u is))
    {k : κ} (hown : own answered.1 = some k) :
    ∃ r, (k, r) ∈ (is.filterMap own).zip (runOutputs machine s (is.filterMap own)) ∧
      O answered.2 r := by
  induction is generalizing u s with
  | nil => cases hin
  | cons i is ih =>
      obtain ⟨hi, his⟩ := List.forall_mem_cons.mp hok
      rw [runOutputs_cons, List.zip_cons_cons, List.mem_cons] at hin
      cases hmine : own i with
      | none =>
          rw [List.filterMap_cons_none hmine]
          rcases hin with rfl | hin
          · cases hown.symm.trans hmine
          · exact ih (h.others u s i hR hi hmine) his hin
      | some k' =>
          obtain ⟨hout, hnext⟩ := h.mine u s i k' hR hi hmine
          rw [List.filterMap_cons_some hmine, runOutputs_cons, List.zip_cons_cons]
          rcases hin with rfl | hin
          · obtain rfl := Option.some.inj (hown.symm.trans hmine)
            exact ⟨_, List.mem_cons_self, hout⟩
          · obtain ⟨r, hr, hO⟩ := ih hnext his hin
            exact ⟨r, List.mem_cons_of_mem _ hr, hO⟩

/-- What the outputs hold for the client, when those to other clients hold nothing for it. -/
theorem Serves.filterMap_outputs {α : Type*} (h : Serves step machine own O R Ok) (f : ο → Option α)
    (g : ρ → Option α) (hmine : ∀ o r, O o r → f o = g r)
    (hothers : ∀ u s i, R u s → own i = none → f (step u i).1 = none) {u : υ} {s : σ} (hR : R u s)
    (hok : ∀ i ∈ is, Ok i) :
    (runOutputs step u is).filterMap f
      = (runOutputs machine s (is.filterMap own)).filterMap g := by
  induction is generalizing u s with
  | nil => rfl
  | cons i is ih =>
      obtain ⟨hi, his⟩ := List.forall_mem_cons.mp hok
      rw [runOutputs_cons, List.filterMap_cons]
      cases hown : own i with
      | none =>
          rw [List.filterMap_cons_none hown, hothers u s i hR hown]
          exact ih (h.others u s i hR hi hown) his
      | some k =>
          obtain ⟨hout, hnext⟩ := h.mine u s i k hR hi hown
          rw [List.filterMap_cons_some hown, runOutputs_cons, List.filterMap_cons,
            hmine _ _ hout, ih hnext his]

/-- Every input that stands in front of one of the client's satisfies `Ok`. -/
def OkBefore (own : ι → Option κ) (Ok : ι → Prop) (is : List ι) : Prop :=
  ∀ i j, (own j).isSome → [i, j].Sublist is → Ok i

/-- Every input that stands between two of the client's satisfies `Ok`. -/
def OkBetween (own : ι → Option κ) (Ok : ι → Prop) (is : List ι) : Prop :=
  ∀ i j k, (own i).isSome → (own k).isSome → [i, j, k].Sublist is → Ok j

lemma filterMap_own_eq_nil (h : ∀ i ∈ is, ¬ (own i).isSome) : is.filterMap own = [] := by
  rw [List.filterMap_eq_nil_iff]
  exact fun i hi => Option.not_isSome_iff_eq_none.mp (h i hi)

lemma ownOutputs_eq_nil (h : ∀ i ∈ is, ¬ (own i).isSome) : ownOutputs own is os = [] := by
  rw [ownOutputs, List.filterMap_eq_nil_iff]
  intro answered hanswered
  have hnone := Option.not_isSome_iff_eq_none.mp (h answered.1 (List.of_mem_zip hanswered).1)
  rw [hnone]
  rfl

/-- Behind the last input of the client nothing has to be kept. -/
lemma Serves.run_before (h : Serves step machine own O R Ok)
    (hmine : ∀ i ∈ is, (own i).isSome → Ok i) {u : υ} {s : σ} (hR : R u s)
    (hok : OkBefore own Ok is) :
    List.Forall₂ O (ownOutputs own is (runOutputs step u is))
      (runOutputs machine s (is.filterMap own)) := by
  induction is generalizing u s with
  | nil => exact .nil
  | cons i is ih =>
      rw [List.forall_mem_cons] at hmine
      have hbehind : OkBefore own Ok is := fun i' j hj hsub => hok i' j hj (hsub.cons i)
      cases hown : own i with
      | some k =>
          obtain ⟨hout, hnext⟩ := h.mine u s i k hR (hmine.1 (by rw [hown]; rfl)) hown
          rw [runOutputs_cons, List.filterMap_cons_some hown, ownOutputs_cons_mine hown]
          exact .cons hout (ih hmine.2 hnext hbehind)
      | none =>
          by_cases hlater : ∃ j ∈ is, (own j).isSome
          · obtain ⟨j, hj, hsome⟩ := hlater
            have hi : Ok i := hok i j hsome ((List.singleton_sublist.mpr hj).cons_cons i)
            rw [runOutputs_cons, List.filterMap_cons_none hown, ownOutputs_cons_other hown]
            exact ih hmine.2 (h.others u s i hR hi hown) hbehind
          · have hnone : ∀ j ∈ i :: is, ¬ (own j).isSome := by
              rw [List.forall_mem_cons]
              exact ⟨by rw [hown]; simp, fun j hj hsome => hlater ⟨j, hj, hsome⟩⟩
            rw [filterMap_own_eq_nil hnone, ownOutputs_eq_nil hnone]
            exact .nil

/-- **A run in which the client is known only between its first and its last input.**  In states
that are `Fresh` the client sees a new machine, and the inputs of the others keep them fresh. -/
theorem Serves.run_between (h : Serves step machine own O R Ok)
    (hmine : ∀ i ∈ is, (own i).isSome → Ok i) (Fresh : υ → Prop) {s : σ}
    (hfresh : ∀ u, Fresh u → R u s)
    (hkeep : ∀ u i, Fresh u → own i = none → Fresh (step u i).2) {u : υ} (hu : Fresh u)
    (hok : OkBetween own Ok is) :
    List.Forall₂ O (ownOutputs own is (runOutputs step u is))
      (runOutputs machine s (is.filterMap own)) := by
  induction is generalizing u with
  | nil => exact .nil
  | cons i is ih =>
      cases hown : own i with
      | none =>
          rw [runOutputs_cons, List.filterMap_cons_none hown, ownOutputs_cons_other hown]
          exact ih (List.forall_mem_cons.mp hmine).2 (hkeep u i hu hown)
            fun i' j k hi' hk hsub => hok i' j k hi' hk (hsub.cons i)
      | some k =>
          -- the first input of the client: from here on the others have to spare it
          refine h.run_before hmine (hfresh u hu) fun i' j hj hsub => ?_
          rcases List.sublist_cons_iff.mp hsub with hsub | ⟨tail, htail, -⟩
          · exact hok i i' j (by rw [hown]; rfl) hj (hsub.cons_cons i)
          · obtain ⟨rfl, -⟩ := List.cons.inj htail
            exact hmine i' List.mem_cons_self (by rw [hown]; rfl)

lemma Serves.outputs_eq_between {step : υ → ι → ρ × υ} (h : Serves step machine own (· = ·) R Ok)
    (hmine : ∀ i ∈ is, (own i).isSome → Ok i) (Fresh : υ → Prop) {s : σ}
    (hfresh : ∀ u, Fresh u → R u s)
    (hkeep : ∀ u i, Fresh u → own i = none → Fresh (step u i).2) {u : υ} (hu : Fresh u)
    (hok : OkBetween own Ok is) :
    ownOutputs own is (runOutputs step u is) = runOutputs machine s (is.filterMap own) := by
  have hsame := h.run_between hmine Fresh hfresh hkeep hu hok
  rwa [List.forall₂_eq_eq_eq] at hsame

end Run

end RaptorFec
