import Mathlib.Data.Finset.Card
import Mathlib.Data.List.Basic
import Mathlib.Data.List.Infix
import Mathlib.Data.List.ReduceOption

/-!
# Runs of a step function

A stateful component is a function `step : σ → ι → ο × σ`: a state and an input give an output
and the next state.  A *run* feeds it a list of inputs.

* `runState`, `runOutputs` — the state a run ends in and the outputs along it;
* `EveryState`, `EveryStep` — a property of every state a run passes through, and of every step
  it takes; both may refer to the inputs consumed so far;
* `run_invariant` — the induction over a run, packaged once;
* `everyState_iff_everyStep` — when an invariant survives exactly the steps that meet a
  condition, a property holds along a run iff all its steps meet the condition;
* `HeldSince`, `held_iff` — what some steps open and others close is held since it was last
  opened;
* `run_simulates` — related states stay related along related inputs, with related outputs;
* `runOutputs_compose` — a run of two components, one behind the other;
* `AcceptedCalls` — calls of which some fail, with what the others emit.
-/

namespace RaptorFec

variable {σ ι ο : Type*} (step : σ → ι → ο × σ)

/-- The state a run ends in. -/
def runState (s : σ) : List ι → σ
  | [] => s
  | i :: is => runState (step s i).2 is

/-- The outputs of a run, one for each input. -/
def runOutputs (s : σ) : List ι → List ο
  | [] => []
  | i :: is => (step s i).1 :: runOutputs (step s i).2 is

@[simp] lemma runState_nil (s : σ) : runState step s [] = s := rfl

@[simp] lemma runState_cons (s : σ) (i : ι) (is : List ι) :
    runState step s (i :: is) = runState step (step s i).2 is := rfl

@[simp] lemma runOutputs_nil (s : σ) : runOutputs step s [] = [] := rfl

@[simp] lemma runOutputs_cons (s : σ) (i : ι) (is : List ι) :
    runOutputs step s (i :: is) = (step s i).1 :: runOutputs step (step s i).2 is := rfl

lemma runState_append (s : σ) (is js : List ι) :
    runState step s (is ++ js) = runState step (runState step s is) js := by
  induction is generalizing s with
  | nil => rfl
  | cons i is ih => exact ih _

lemma runOutputs_append (s : σ) (is js : List ι) :
    runOutputs step s (is ++ js)
      = runOutputs step s is ++ runOutputs step (runState step s is) js := by
  induction is generalizing s with
  | nil => rfl
  | cons i is ih => rw [List.cons_append, runOutputs_cons, ih]; rfl

lemma runState_snoc (s : σ) (is : List ι) (i : ι) :
    runState step s (is ++ [i]) = (step (runState step s is) i).2 := by
  rw [runState_append]; rfl

lemma runOutputs_snoc (s : σ) (is : List ι) (i : ι) :
    runOutputs step s (is ++ [i])
      = runOutputs step s is ++ [(step (runState step s is) i).1] := by
  rw [runOutputs_append]; rfl

/-- Inputs that are translated one by one. -/
lemma runState_map {κ : Type*} (f : κ → ι) (s : σ) (ks : List κ) :
    runState step s (ks.map f) = runState (fun s k => step s (f k)) s ks := by
  induction ks generalizing s with
  | nil => rfl
  | cons k ks ih => rw [List.map_cons, runState_cons, ih, runState_cons]

lemma runOutputs_map {κ : Type*} (f : κ → ι) (s : σ) (ks : List κ) :
    runOutputs step s (ks.map f) = runOutputs (fun s k => step s (f k)) s ks := by
  induction ks generalizing s with
  | nil => rfl
  | cons k ks ih => rw [List.map_cons, runOutputs_cons, ih, runOutputs_cons]

@[simp] lemma length_runOutputs (s : σ) (is : List ι) :
    (runOutputs step s is).length = is.length := by
  induction is generalizing s with
  | nil => rfl
  | cons i is ih => simp [ih]

/-- Every output of a run is that of one of its steps. -/
lemma exists_step_of_mem_runOutputs {s : σ} {is : List ι} {out : ο}
    (h : out ∈ runOutputs step s is) :
    ∃ past i, past ++ [i] <+: is ∧ (step (runState step s past) i).1 = out := by
  induction is using List.reverseRecOn with
  | nil => exact absurd h (by simp)
  | append_singleton is i ih =>
      rw [runOutputs_snoc, List.mem_append, List.mem_singleton] at h
      rcases h with h | rfl
      · obtain ⟨past, j, hpre, hout⟩ := ih h
        exact ⟨past, j, hpre.trans (List.prefix_append _ _), hout⟩
      · exact ⟨is, i, List.prefix_refl _, rfl⟩

/-- Every output of a run answers its input, in some state of the run. -/
lemma forall_mem_zip {P : ι → ο → Prop} (Inv : σ → Prop)
    (hstep : ∀ t i, Inv t → P i (step t i).1 ∧ Inv (step t i).2) {s : σ} (h : Inv s)
    (is : List ι) : ∀ answered ∈ is.zip (runOutputs step s is), P answered.1 answered.2 := by
  induction is generalizing s with
  | nil => simp
  | cons i is ih =>
      rw [runOutputs_cons, List.zip_cons_cons, List.forall_mem_cons]
      exact ⟨(hstep s i h).1, ih (hstep s i h).2⟩

/-! ## Properties along a run -/

/-- Every state the run from `s` on `is` passes through satisfies `P`, which may refer to the
inputs consumed before it. -/
def EveryState (s : σ) (is : List ι) (P : List ι → σ → Prop) : Prop :=
  ∀ past, past <+: is → P past (runState step s past)

/-- Every step of the run from `s` on `is` satisfies `Ok`, which may refer to the inputs consumed
before it, the state it starts from and its input. -/
def EveryStep (s : σ) (is : List ι) (Ok : List ι → σ → ι → Prop) : Prop :=
  ∀ past i, past ++ [i] <+: is → Ok past (runState step s past) i

variable {step}

lemma EveryStep.of_prefix {s : σ} {is js : List ι} {Ok : List ι → σ → ι → Prop}
    (h : EveryStep step s js Ok) (hpre : is <+: js) : EveryStep step s is Ok :=
  fun past i hi => h past i (hi.trans hpre)

variable (step) in
/-- Every step of a run passes a check. -/
def checkSteps (check : σ → ι → Bool) (s : σ) : List ι → Bool
  | [] => true
  | i :: is => check s i && checkSteps check (step s i).2 is

/-- A condition that a check implies. -/
lemma EveryStep.of_checkSteps {check : σ → ι → Bool} {s : σ} {is : List ι}
    {Ok : List ι → σ → ι → Prop} (hall : checkSteps step check s is = true)
    (hcheck : ∀ past t i, past ++ [i] <+: is → check t i = true → Ok past t i) :
    EveryStep step s is Ok := by
  rintro past i ⟨rest, rfl⟩
  refine hcheck past _ i (List.prefix_append _ _) ?_
  clear hcheck
  induction past generalizing s with
  | nil => exact (Bool.and_eq_true_iff.mp hall).1
  | cons j past ih => exact ih (Bool.and_eq_true_iff.mp hall).2

lemma everyStep_snoc {s : σ} {is : List ι} {i : ι} {Ok : List ι → σ → ι → Prop} :
    EveryStep step s (is ++ [i]) Ok
      ↔ EveryStep step s is Ok ∧ Ok is (runState step s is) i := by
  constructor
  · intro h
    exact ⟨h.of_prefix (List.prefix_append _ _), h is i (List.prefix_refl _)⟩
  · rintro ⟨h, hi⟩ past j hpre
    rcases List.prefix_concat_iff.mp hpre with heq | hpre'
    · obtain ⟨rfl, hji⟩ := List.append_inj' heq rfl
      cases hji
      exact hi
    · exact h past j hpre'

lemma everyStep_cons {s : σ} {is : List ι} {i : ι} {Ok : List ι → σ → ι → Prop} :
    EveryStep step s (i :: is) Ok
      ↔ Ok [] s i ∧ EveryStep step (step s i).2 is fun past => Ok (i :: past) := by
  constructor
  · intro h
    refine ⟨h [] i ⟨is, rfl⟩, fun past j hpre => ?_⟩
    exact h (i :: past) j (List.cons_prefix_cons.mpr ⟨rfl, hpre⟩)
  · rintro ⟨hfirst, hrest⟩ past j hpre
    cases past with
    | nil =>
        obtain ⟨rfl, -⟩ := List.cons_prefix_cons.mp hpre
        exact hfirst
    | cons k past =>
        obtain ⟨rfl, hpre'⟩ := List.cons_prefix_cons.mp hpre
        exact hrest past j hpre'

lemma everyStep_nil {s : σ} {Ok : List ι → σ → ι → Prop} : EveryStep step s [] Ok :=
  fun past i hpre => absurd (List.prefix_nil.mp hpre) (by simp)

/-- **The induction over a run.**  An invariant that holds at the start and survives every step
meeting `Ok` holds at the end of every run all of whose steps meet `Ok`. -/
theorem run_invariant {s : σ} (Inv : List ι → σ → Prop) (Ok : List ι → σ → ι → Prop)
    (hinit : Inv [] s)
    (hstep : ∀ past t i, Inv past t → Ok past t i → Inv (past ++ [i]) (step t i).2)
    {is : List ι} (hok : EveryStep step s is Ok) : Inv is (runState step s is) := by
  induction is using List.reverseRecOn with
  | nil => exact hinit
  | append_singleton is i ih =>
      obtain ⟨hpast, hi⟩ := everyStep_snoc.mp hok
      rw [runState_snoc]
      exact hstep is _ i (ih hpast) hi

/-- An invariant that survives every step holds at the end of every run. -/
theorem run_invariant_all {s : σ} (Inv : List ι → σ → Prop) (hinit : Inv [] s)
    (hstep : ∀ past t i, Inv past t → Inv (past ++ [i]) (step t i).2) (is : List ι) :
    Inv is (runState step s is) :=
  run_invariant Inv (fun _ _ _ => True) hinit (fun past t i h _ => hstep past t i h)
    (fun _ _ _ => trivial)

/-- **The exact condition of a run.**  Over inputs that meet `D`, if `Inv` implies `P`, survives
every step meeting `Ok`, and `P` fails right after every other step, then `P` holds in every state
of a run exactly when every step of the run meets `Ok`. -/
theorem everyState_iff_everyStep_of {s : σ} (Inv : List ι → σ → Prop) {P : List ι → σ → Prop}
    {Ok : List ι → σ → ι → Prop} {D : List ι → ι → Prop} (hinit : Inv [] s)
    (hP : ∀ past t, Inv past t → P past t)
    (hgood : ∀ past t i, D past i → Inv past t → Ok past t i → Inv (past ++ [i]) (step t i).2)
    (hbad : ∀ past t i, D past i → Inv past t → ¬ Ok past t i → ¬ P (past ++ [i]) (step t i).2)
    {is : List ι} (hD : ∀ past i, past ++ [i] <+: is → D past i) :
    EveryState step s is P ↔ EveryStep step s is Ok := by
  have hinv : ∀ js, js <+: is → EveryStep step s js Ok → Inv js (runState step s js) := by
    intro js hjs hok
    refine run_invariant Inv (fun past t i => D past i ∧ Ok past t i) hinit
      (fun past t i h hi => hgood past t i hi.1 h hi.2) fun past i hpre => ?_
    exact ⟨hD past i (hpre.trans hjs), hok past i hpre⟩
  constructor
  · intro h
    induction is using List.reverseRecOn with
    | nil => exact fun past i hpre => absurd (List.prefix_nil.mp hpre) (by simp)
    | append_singleton is i ih =>
        have hle : is <+: is ++ [i] := List.prefix_append _ _
        have hpast : EveryStep step s is Ok :=
          ih (fun past i hpre => hD past i (hpre.trans hle))
            (fun js hjs => hinv js (hjs.trans hle)) fun past hpre => h past (hpre.trans hle)
        refine everyStep_snoc.mpr ⟨hpast, ?_⟩
        by_contra hno
        have hPlast := h (is ++ [i]) (List.prefix_refl _)
        rw [runState_snoc] at hPlast
        exact hbad is _ i (hD is i (List.prefix_refl _)) (hinv is hle hpast) hno hPlast
  · intro h past hpre
    exact hP past _ (hinv past hpre (h.of_prefix hpre))

/-- The exact condition of a run whose inputs are from `D`. -/
theorem everyState_iff_everyStep {s : σ} (Inv : List ι → σ → Prop) {P : List ι → σ → Prop}
    {Ok : List ι → σ → ι → Prop} {D : ι → Prop} (hinit : Inv [] s)
    (hP : ∀ past t, Inv past t → P past t)
    (hgood : ∀ past t i, D i → Inv past t → Ok past t i → Inv (past ++ [i]) (step t i).2)
    (hbad : ∀ past t i, D i → Inv past t → ¬ Ok past t i → ¬ P (past ++ [i]) (step t i).2)
    {is : List ι} (hD : ∀ i ∈ is, D i) :
    EveryState step s is P ↔ EveryStep step s is Ok :=
  everyState_iff_everyStep_of (D := fun _ => D) Inv hinit hP hgood hbad
    fun _ _ hpre => hD _ (hpre.subset (by simp))

/-! ## What is still held -/

variable (step) in
/-- After the inputs `past`, the run from `s` on `is` takes a step for which `Ev` holds. -/
def HappensAfter (s : σ) (past is : List ι) (Ev : σ → ι → Prop) : Prop :=
  ∃ mid i, past <+: mid ∧ mid ++ [i] <+: is ∧ Ev (runState step s mid) i

lemma happensAfter_snoc {s : σ} {past is : List ι} {i : ι} {Ev : σ → ι → Prop}
    (h : past <+: is) :
    HappensAfter step s past (is ++ [i]) Ev ↔
      HappensAfter step s past is Ev ∨ Ev (runState step s is) i := by
  constructor
  · rintro ⟨mid, j, hmid, hpre, hev⟩
    rcases List.prefix_concat_iff.mp hpre with heq | hpre'
    · obtain ⟨rfl, hji⟩ := List.append_inj' heq rfl
      cases hji
      exact Or.inr hev
    · exact Or.inl ⟨mid, j, hmid, hpre', hev⟩
  · rintro (⟨mid, j, hmid, hpre, hev⟩ | hev)
    · exact ⟨mid, j, hmid, hpre.trans (List.prefix_append _ _), hev⟩
    · exact ⟨is, i, h, List.prefix_refl _, hev⟩

variable (step) in
/-- Some step of the run from `s` on `is` opens, and no step closes from then on. -/
def HeldSince (s : σ) (is : List ι) (Opens Closes : σ → ι → Prop) : Prop :=
  ∃ past i, past ++ [i] <+: is ∧ Opens (runState step s past) i ∧
    ¬ HappensAfter step s past is Closes

section HeldSince

variable {s : σ} {is : List ι} {i : ι} {Opens Closes : σ → ι → Prop}

lemma not_heldSince_nil : ¬ HeldSince step s [] Opens Closes := by
  rintro ⟨past, i, hpre, -⟩
  exact absurd (List.prefix_nil.mp hpre) (by simp)

/-- One more step. -/
lemma heldSince_snoc : HeldSince step s (is ++ [i]) Opens Closes ↔
    (HeldSince step s is Opens Closes ∨ Opens (runState step s is) i) ∧
      ¬ Closes (runState step s is) i := by
  constructor
  · rintro ⟨past, j, hpre, hopens, hkept⟩
    rcases List.prefix_concat_iff.mp hpre with heq | hpre'
    · obtain ⟨rfl, hji⟩ := List.append_inj' heq rfl
      cases hji
      rw [happensAfter_snoc (List.prefix_refl _)] at hkept
      exact ⟨Or.inr hopens, fun hcloses => hkept (Or.inr hcloses)⟩
    · have hpast : past <+: is := (List.prefix_append _ _).trans hpre'
      rw [happensAfter_snoc hpast] at hkept
      exact ⟨Or.inl ⟨past, j, hpre', hopens, fun hcloses => hkept (Or.inl hcloses)⟩,
        fun hcloses => hkept (Or.inr hcloses)⟩
  · rintro ⟨⟨past, j, hpre, hopens, hkept⟩ | hopens, hnot⟩
    · have hpast : past <+: is := (List.prefix_append _ _).trans hpre
      refine ⟨past, j, hpre.trans (List.prefix_append _ _), hopens, ?_⟩
      rw [happensAfter_snoc hpast]
      rintro (hcloses | hcloses)
      · exact hkept hcloses
      · exact hnot hcloses
    · refine ⟨is, i, List.prefix_refl _, hopens, ?_⟩
      rintro ⟨mid, j, hmid, hpre, hcloses⟩
      have hlast : mid = is ∧ j = i := by
        rcases List.prefix_concat_iff.mp hpre with heq | hpre'
        · obtain ⟨hmid', hji⟩ := List.append_inj' heq rfl
          exact ⟨hmid', List.singleton_injective hji⟩
        · have h₁ := hmid.length_le
          have h₂ := hpre'.length_le
          rw [List.length_append, List.length_singleton] at h₂
          omega
      rw [hlast.1, hlast.2] at hcloses
      exact hnot hcloses

end HeldSince

/-- **Held since it was opened.**  A property that a step makes true by opening it and false by
closing it, as long as an invariant holds, is true at the end of a run exactly when some step opened
it and no step closed it from then on. -/
theorem held_iff_of {s : σ} (Inv H : σ → Prop) (Opens Closes : σ → ι → Prop) (hs : Inv s)
    (hkeep : ∀ t i, Inv t → Inv (step t i).2) (hinit : ¬ H s)
    (hstep : ∀ t i, Inv t → (H (step t i).2 ↔ (H t ∨ Opens t i) ∧ ¬ Closes t i)) (is : List ι) :
    H (runState step s is) ↔ HeldSince step s is Opens Closes := by
  induction is using List.reverseRecOn with
  | nil => exact iff_of_false hinit not_heldSince_nil
  | append_singleton is i ih =>
      have hinv : Inv (runState step s is) :=
        run_invariant_all (fun _ => Inv) hs (fun _ t i => hkeep t i) is
      rw [runState_snoc, hstep _ _ hinv, heldSince_snoc, ih]

/-- The same without an invariant. -/
theorem held_iff {s : σ} (H : σ → Prop) (Opens Closes : σ → ι → Prop) (hinit : ¬ H s)
    (hstep : ∀ t i, H (step t i).2 ↔ (H t ∨ Opens t i) ∧ ¬ Closes t i) (is : List ι) :
    H (runState step s is) ↔ ∃ past i, past ++ [i] <+: is ∧ Opens (runState step s past) i ∧
      ¬ HappensAfter step s past is Closes :=
  held_iff_of (fun _ => True) H Opens Closes trivial (fun _ _ h => h) hinit
    (fun t i _ => hstep t i) is

/-- A set of the values with some property is small when no large set of values has it. -/
lemma card_le_iff_of_mem {α : Type*} {s : Finset α} {P : α → Prop} (h : ∀ x, x ∈ s ↔ P x) (n : ℕ) :
    s.card ≤ n ↔ ¬ ∃ xs : Finset α, n < xs.card ∧ ∀ x ∈ xs, P x := by
  constructor
  · rintro hle ⟨xs, hmany, hxs⟩
    have hcard := Finset.card_le_card fun x hx => (h x).mpr (hxs x hx)
    omega
  · intro hno
    by_contra hover
    exact hno ⟨s, Nat.not_le.mp hover, fun x hx => (h x).mp hx⟩

/-! ## Simulation -/

/-- **Simulation lifts to runs.**  If one step from related states on related inputs gives related
outputs and related states, then so does a run. -/
theorem run_simulates {τ κ ρ : Type*} {step : σ → ι → ο × σ} {step' : τ → κ → ρ × τ}
    {R : σ → τ → Prop} {I : ι → κ → Prop} {O : ο → ρ → Prop}
    (hstep : ∀ s t i k, R s t → I i k →
      O (step s i).1 (step' t k).1 ∧ R (step s i).2 (step' t k).2)
    {s : σ} {t : τ} {is : List ι} {ks : List κ} (h : R s t) (hi : List.Forall₂ I is ks) :
    List.Forall₂ O (runOutputs step s is) (runOutputs step' t ks) ∧
      R (runState step s is) (runState step' t ks) := by
  induction hi generalizing s t with
  | nil => exact ⟨.nil, h⟩
  | cons hik _ ih =>
      obtain ⟨hout, hstate⟩ := hstep _ _ _ _ h hik
      obtain ⟨houts, hstates⟩ := ih hstate
      exact ⟨.cons hout houts, hstates⟩

/-! ## Composition -/

/-- **A run of a composed component.**  When every step passes the output of a first component on
to a second one, the run of the second is a run on the outputs of the first. -/
theorem runOutputs_compose {υ τ ρ : Type*} {first : σ → ι → ο × σ} {second : τ → ο → ρ × τ}
    {step : υ → ι → ρ × υ} (left : υ → σ) (right : υ → τ)
    (houtput : ∀ u i, (step u i).1 = (second (right u) (first (left u) i).1).1)
    (hleft : ∀ u i, left (step u i).2 = (first (left u) i).2)
    (hright : ∀ u i, right (step u i).2 = (second (right u) (first (left u) i).1).2)
    (u : υ) (is : List ι) :
    runOutputs step u is = runOutputs second (right u) (runOutputs first (left u) is) := by
  induction is generalizing u with
  | nil => rfl
  | cons i is ih => rw [runOutputs_cons, ih, houtput, hleft, hright]; rfl

/-- A component that ignores absent inputs. -/
def optionStep (step : σ → ι → Option ο × σ) (s : σ) : Option ι → Option ο × σ
  | none => (none, s)
  | some i => step s i

/-- Absent inputs can be left out of a run. -/
lemma reduceOption_optionStep (step : σ → ι → Option ο × σ) (s : σ) (is : List (Option ι)) :
    (runOutputs (optionStep step) s is).reduceOption
      = (runOutputs step s is.reduceOption).reduceOption := by
  induction is generalizing s with
  | nil => rfl
  | cons i is ih =>
      cases i with
      | none => rw [runOutputs_cons, optionStep, List.reduceOption_cons_of_none,
          List.reduceOption_cons_of_none, ih]
      | some i =>
          rw [List.reduceOption_cons_of_some, runOutputs_cons, runOutputs_cons, optionStep]
          cases (step s i).1 with
          | none => rw [List.reduceOption_cons_of_none, List.reduceOption_cons_of_none, ih]
          | some o => rw [List.reduceOption_cons_of_some, List.reduceOption_cons_of_some, ih]

/-! ## Calls that wait for an output -/

/-- A call that takes inputs until one has an output.  When the inputs end before that, the call is
still waiting. -/
def awaitOutput (step : σ → ι → Option ο × σ) : σ → List ι → Option ο × σ × List ι
  | s, [] => (none, s, [])
  | s, i :: is =>
      match step s i with
      | (some out, s) => (some out, s, is)
      | (none, s) => awaitOutput step s is

/-- What successive calls return, up to one that is still waiting. -/
def awaitAll (step : σ → ι → Option ο × σ) : ℕ → σ → List ι → List ο
  | 0, _, _ => []
  | calls + 1, s, is =>
      match awaitOutput step s is with
      | (some out, s, rest) => out :: awaitAll step calls s rest
      | (none, _, _) => []

/-- **Successive calls return the outputs of the run**, in order: none is lost between two calls. -/
theorem awaitAll_eq (step : σ → ι → Option ο × σ) (calls : ℕ) (s : σ) (is : List ι) :
    awaitAll step calls s is = (runOutputs step s is).reduceOption.take calls := by
  induction is generalizing calls s with
  | nil =>
      cases calls with
      | zero => rfl
      | succ calls => rfl
  | cons i is ih =>
      cases calls with
      | zero => rfl
      | succ calls =>
          rw [runOutputs_cons, awaitAll, awaitOutput]
          rcases hstep : step s i with ⟨- | out, s'⟩
          · rw [List.reduceOption_cons_of_none, ← ih (calls + 1) s', awaitAll]
          · rw [List.reduceOption_cons_of_some, List.take_succ_cons, ← ih calls s']

/-- With as many calls as inputs, the last one waits. -/
lemma awaitAll_of_le {step : σ → ι → Option ο × σ} {calls : ℕ} {s : σ} {is : List ι}
    (h : is.length ≤ calls) : awaitAll step calls s is = (runOutputs step s is).reduceOption := by
  refine (awaitAll_eq step calls s is).trans (List.take_of_length_le (Nat.le_trans ?_ h))
  rw [← length_runOutputs step s is]
  exact List.reduceOption_length_le _

/-! ## Calls that may fail -/

/-- Successive calls of which some may fail: the requests that are accepted, and what is emitted for
them. -/
inductive AcceptedCalls {ε μ : Type*} (Call : σ → ι → Except ε (List μ) → σ → Prop) :
    σ → List ι → List μ → Prop
  | nil (s : σ) : AcceptedCalls Call s [] []
  | accepted {s s' : σ} {request : ι} {emitted : List μ} {requests : List ι} {rest : List μ}
      (hcall : Call s request (.ok emitted) s') (hrest : AcceptedCalls Call s' requests rest) :
      AcceptedCalls Call s (request :: requests) (emitted ++ rest)
  | refused {s s' : σ} {request : ι} {error : ε} {requests : List ι} {rest : List μ}
      (hcall : Call s request (.error error) s') (hrest : AcceptedCalls Call s' requests rest) :
      AcceptedCalls Call s requests rest

/-- A component that hands its requests to an inner one and translates what this emits. -/
lemma AcceptedCalls.inner {τ ε μ ν : Type*} {Call : σ → ι → Except ε (List μ) → σ → Prop}
    {Outer : τ → ι → Except ε (List ν) → τ → Prop} (Inv : τ → Prop) (part : τ → σ) (g : μ → ν)
    (hcall : ∀ t request result t', Inv t → Outer t request result t' →
      Inv t' ∧ ∃ inner, Call (part t) request inner (part t') ∧ result = inner.map (List.map g))
    {t : τ} (ht : Inv t) {requests : List ι} {emitted : List ν}
    (h : AcceptedCalls Outer t requests emitted) :
    ∃ inner, AcceptedCalls Call (part t) requests inner ∧ emitted = inner.map g := by
  induction h with
  | nil t => exact ⟨[], .nil _, rfl⟩
  | accepted hfirst _ ih =>
      obtain ⟨ht', inner, hinner, hresult⟩ := hcall _ _ _ _ ht hfirst
      obtain ⟨rest, hrest, rfl⟩ := ih ht'
      cases inner with
      | error error => cases hresult
      | ok front =>
          cases Except.ok.inj hresult
          exact ⟨front ++ rest, .accepted hinner hrest, List.map_append.symm⟩
  | refused hfirst _ ih =>
      obtain ⟨ht', inner, hinner, hresult⟩ := hcall _ _ _ _ ht hfirst
      obtain ⟨rest, hrest, rfl⟩ := ih ht'
      cases inner with
      | error error => exact ⟨rest, .refused hinner hrest, rfl⟩
      | ok front => cases hresult

end RaptorFec
