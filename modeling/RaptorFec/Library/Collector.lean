import Mathlib.Data.Finset.Dedup
import Mathlib.Data.Finset.Lattice.Lemmas
import Mathlib.Data.List.ReduceOption
import RaptorFec.Library.Demux

/-!
# Collectors

A *collector* gathers the symbols of many blocks until each block is done.  `Done i s` says that
the set `s` of symbols is enough for block `i`; `Drops i j` says that closing block `i` makes the
collector forget block `j`, both what it holds of it and that it was closed.

* `push` — one symbol arrives: nothing happens when the block is closed, the block is *fired* when
  its symbols are done, and the symbol is held otherwise;
* `kept_of_other`, `forgotten_of_other` — what a run on other blocks does to a block: nothing,
  unless one of the blocks it fires drops it;
* `phase_waits`, `phase_fires`, `phase_closed` — a run on a single block;
* `fired_phases` — complete blocks one after the other are fired in order;
* `fired_of_uncut` — of arrivals in any order, with any loss and repetition, the blocks are fired
  whose symbols are done, as long as none is dropped between two of its symbols;
* `fired_pass` — a pass over fresh blocks, one after the other, fires exactly those whose symbols
  of the pass are done;
* `two_passes_iff` — when a second pass over the same blocks brings the missing symbols, the
  condition under which every block is fired.
-/

namespace RaptorFec

/-- What a collector holds of each block, and which blocks it closed. -/
structure Collector (ι α : Type*) where
  held : ι → Finset α
  closed : Set ι

namespace Collector

variable {ι α : Type*} {i j : ι}

/-! ## Streams of symbols -/

/-- The symbols of one block, in order. -/
def ofBlock (i : ι) (es : List α) : List (ι × α) := es.map fun e => (i, e)

/-- The symbols of several blocks, one block after the other. -/
def pass (ids : List ι) (symbols : ι → List α) : List (ι × α) :=
  ids.flatMap fun i => ofBlock i (symbols i)

lemma pass_cons (i : ι) (ids : List ι) (symbols : ι → List α) :
    pass (i :: ids) symbols = ofBlock i (symbols i) ++ pass ids symbols := List.flatMap_cons

lemma pass_append (ids ids' : List ι) (symbols : ι → List α) :
    pass (ids ++ ids') symbols = pass ids symbols ++ pass ids' symbols := List.flatMap_append

lemma mem_pass {ids : List ι} {symbols : ι → List α} {e : α} :
    (i, e) ∈ pass ids symbols ↔ i ∈ ids ∧ e ∈ symbols i := by
  simp only [pass, ofBlock, List.mem_flatMap, List.mem_map, Prod.mk.injEq]
  constructor
  · rintro ⟨j, hj, e, he, rfl, rfl⟩
    exact ⟨hj, he⟩
  · exact fun ⟨hi, he⟩ => ⟨i, hi, e, he, rfl, rfl⟩

lemma ne_of_mem_ofBlock (hne : i ≠ j) {es : List α} : ∀ s ∈ ofBlock i es, s.1 ≠ j := by
  intro s hs
  obtain ⟨e, -, rfl⟩ := List.mem_map.mp hs
  exact hne

lemma ne_of_mem_pass {ids : List ι} {symbols : ι → List α} (h : j ∉ ids) :
    ∀ s ∈ pass ids symbols, s.1 ≠ j := by
  intro s hs
  obtain ⟨i, hi, hs⟩ := List.mem_flatMap.mp hs
  exact ne_of_mem_ofBlock (by rintro rfl; exact h hi) s hs

/-- The blocks of a schedule, in order. -/
def schedule (n : ℕ) (name : ℕ → ι) : List ι := (List.range n).map name

lemma schedule_split {n a : ℕ} {name : ℕ → ι} (h : a < n) :
    schedule n name
      = schedule a name ++ name a :: (List.range' (a + 1) (n - (a + 1))).map name := by
  have hrange : List.range n = List.range a ++ a :: List.range' (a + 1) (n - (a + 1)) := by
    rw [List.range_eq_range', List.range_eq_range', ← List.range'_succ,
      show n - (a + 1) + 1 = n - a by omega]
    have happend := List.range'_append_1 (s := 0) (m := a) (n := n - a)
    rw [Nat.zero_add] at happend
    rw [happend]
    congr 1
    omega
  rw [schedule, hrange, List.map_append, List.map_cons, schedule]

lemma mem_schedule {n : ℕ} {name : ℕ → ι} : j ∈ schedule n name ↔ ∃ b < n, name b = j := by
  simp [schedule]

lemma mem_behind {n a : ℕ} {name : ℕ → ι} :
    j ∈ (List.range' (a + 1) (n - (a + 1))).map name ↔ ∃ b, a < b ∧ b < n ∧ name b = j := by
  simp only [List.mem_map, List.mem_range'_1]
  constructor
  · rintro ⟨b, hb, rfl⟩
    exact ⟨b, by omega, by omega, rfl⟩
  · rintro ⟨b, hab, hbn, rfl⟩
    exact ⟨b, by omega, rfl⟩

lemma schedule_nodup {n : ℕ} {name : ℕ → ι} (hinj : ∀ a < n, ∀ b < n, name a = name b → a = b) :
    (schedule n name).Nodup :=
  List.Nodup.map_on (fun a ha b hb => hinj a (List.mem_range.mp ha) b (List.mem_range.mp hb))
    List.nodup_range

lemma notMem_schedule {n a : ℕ} {name : ℕ → ι}
    (hinj : ∀ a < n, ∀ b < n, name a = name b → a = b) (h : a < n) :
    name a ∉ schedule a name := by
  intro hmem
  obtain ⟨b, hb, heq⟩ := mem_schedule.mp hmem
  have := hinj b (by omega) a h heq
  omega

/-! ## Closing a block -/

/-- A collector that has received nothing. -/
def empty : Collector ι α := ⟨fun _ => ∅, ∅⟩

open Classical in
/-- Block `i` is closed. -/
noncomputable def close (Drops : ι → ι → Prop) (c : Collector ι α) (i : ι) : Collector ι α where
  held j := if j = i ∨ Drops i j then ∅ else c.held j
  closed := {j | (j = i ∨ j ∈ c.closed) ∧ ¬ Drops i j}

section Close

variable {Drops : ι → ι → Prop} {c : Collector ι α}

lemma held_close_of_drops (h : Drops i j) : (c.close Drops i).held j = ∅ := if_pos (Or.inr h)

lemma held_close_self : (c.close Drops i).held i = ∅ := if_pos (Or.inl rfl)

lemma held_close_of_ne (hne : j ≠ i) (h : ¬ Drops i j) : (c.close Drops i).held j = c.held j :=
  if_neg (by rintro (heq | hd); exacts [hne heq, h hd])

lemma mem_closed_close : j ∈ (c.close Drops i).closed ↔ (j = i ∨ j ∈ c.closed) ∧ ¬ Drops i j :=
  Iff.rfl

/-- A block is dropped when one of the given blocks drops it. -/
def DroppedBy (Drops : ι → ι → Prop) (fired : List ι) (j : ι) : Prop := ∃ k ∈ fired, Drops k j

@[simp] lemma droppedBy_nil : ¬ DroppedBy Drops [] j := by simp [DroppedBy]

lemma droppedBy_append {ks ls : List ι} :
    DroppedBy Drops (ks ++ ls) j ↔ DroppedBy Drops ks j ∨ DroppedBy Drops ls j := by
  simp only [DroppedBy, List.mem_append, or_and_right, exists_or]

/-- What the collector knows of a block is the same in both states. -/
def SameOn (c c' : Collector ι α) (j : ι) : Prop :=
  c'.held j = c.held j ∧ (j ∈ c'.closed ↔ j ∈ c.closed)

/-- Closing a block that does not drop another one leaves what is known of that alone. -/
lemma sameOn_close (hne : j ≠ i) (hkeeps : ¬ Drops i j) : SameOn c (c.close Drops i) j := by
  refine ⟨held_close_of_ne hne hkeeps, ?_⟩
  simp [mem_closed_close, hne, hkeeps]

/-- The collector knows nothing of the block. -/
def Fresh (c : Collector ι α) (j : ι) : Prop := c.held j = ∅ ∧ j ∉ c.closed

lemma Fresh.of_sameOn {c' : Collector ι α} (h : Fresh c j) (hsame : SameOn c c' j) :
    Fresh c' j :=
  ⟨hsame.1.trans h.1, fun hclosed => h.2 (hsame.2.mp hclosed)⟩

end Close

variable [DecidableEq ι] [DecidableEq α] (Done : ι → Finset α → Prop) (Drops : ι → ι → Prop)

open Classical in
/-- A symbol of a block arrives; the result is the block it fires. -/
noncomputable def push (c : Collector ι α) (symbol : ι × α) : Option ι × Collector ι α :=
  if symbol.1 ∈ c.closed then (none, c)
  else if Done symbol.1 (insert symbol.2 (c.held symbol.1)) then
    (some symbol.1, c.close Drops symbol.1)
  else
    (none, { c with held := Function.update c.held symbol.1 (insert symbol.2 (c.held symbol.1)) })

variable {Done Drops} {c : Collector ι α} {e : α}

lemma push_closed (h : i ∈ c.closed) : c.push Done Drops (i, e) = (none, c) := if_pos h

lemma push_fires (h : i ∉ c.closed) (hdone : Done i (insert e (c.held i))) :
    c.push Done Drops (i, e) = (some i, c.close Drops i) := by
  rw [push, if_neg h, if_pos hdone]

lemma push_waits (h : i ∉ c.closed) (hdone : ¬ Done i (insert e (c.held i))) :
    c.push Done Drops (i, e)
      = (none, { c with held := Function.update c.held i (insert e (c.held i)) }) := by
  rw [push, if_neg h, if_neg hdone]

/-- A symbol fires no block but its own. -/
lemma push_fst_eq_some {symbol : ι × α} (h : (c.push Done Drops symbol).1 = some i) :
    symbol.1 = i := by
  rw [push] at h
  split_ifs at h
  · exact Option.some.inj h

/-! ## Blocks a run does not touch -/

/-- The blocks a run fires, in order. -/
noncomputable def fired (Done : ι → Finset α → Prop) (Drops : ι → ι → Prop) (c : Collector ι α)
    (symbols : List (ι × α)) : List ι :=
  (runOutputs (push Done Drops) c symbols).reduceOption

/-- The collector after a run. -/
noncomputable def after (Done : ι → Finset α → Prop) (Drops : ι → ι → Prop) (c : Collector ι α)
    (symbols : List (ι × α)) : Collector ι α :=
  runState (push Done Drops) c symbols

@[simp] lemma fired_nil : fired Done Drops c [] = [] := rfl

@[simp] lemma after_nil : after Done Drops c [] = c := rfl

lemma fired_append (xs ys : List (ι × α)) :
    fired Done Drops c (xs ++ ys)
      = fired Done Drops c xs ++ fired Done Drops (after Done Drops c xs) ys := by
  rw [fired, runOutputs_append, List.reduceOption_append]
  rfl

lemma after_append (xs ys : List (ι × α)) :
    after Done Drops c (xs ++ ys) = after Done Drops (after Done Drops c xs) ys :=
  runState_append _ _ _ _

lemma after_cons (x : ι × α) (xs : List (ι × α)) :
    after Done Drops c (x :: xs) = after Done Drops (c.push Done Drops x).2 xs := rfl

/-- What one symbol of another block does to a block. -/
lemma push_other (hne : j ≠ i) :
    (¬ DroppedBy Drops (fired Done Drops c [(i, e)]) j
      ∧ SameOn c (c.push Done Drops (i, e)).2 j) ∨
    (DroppedBy Drops (fired Done Drops c [(i, e)]) j ∧ Fresh (c.push Done Drops (i, e)).2 j) := by
  by_cases hclosed : i ∈ c.closed
  · rw [fired, runOutputs_cons, push_closed hclosed]
    exact Or.inl ⟨droppedBy_nil, rfl, Iff.rfl⟩
  by_cases hdone : Done i (insert e (c.held i))
  · have hfired : fired Done Drops c [(i, e)] = [i] := by
      rw [fired, runOutputs_cons, push_fires hclosed hdone]
      rfl
    rw [hfired, push_fires hclosed hdone]
    by_cases hdrop : Drops i j
    · exact Or.inr ⟨⟨i, List.mem_singleton_self i, hdrop⟩, held_close_of_drops hdrop,
        fun h => h.2 hdrop⟩
    · refine Or.inl ⟨by simpa [DroppedBy] using hdrop, held_close_of_ne hne hdrop, ?_⟩
      simp [mem_closed_close, hne, hdrop]
  · have hfired : fired Done Drops c [(i, e)] = [] := by
      rw [fired, runOutputs_cons, push_waits hclosed hdone]
      rfl
    rw [hfired, push_waits hclosed hdone]
    exact Or.inl ⟨droppedBy_nil, Function.update_of_ne hne _ _, Iff.rfl⟩

/-- A symbol of a block that does not drop another one leaves what is known of that alone. -/
lemma sameOn_push (hne : j ≠ i) (hkeeps : ¬ Drops i j) :
    SameOn c (c.push Done Drops (i, e)).2 j := by
  rcases push_other (c := c) (e := e) hne with ⟨-, hsame⟩ | ⟨⟨k, hk, hdrops⟩, -⟩
  · exact hsame
  · have hout : (c.push Done Drops (i, e)).1 = some k := by
      rw [fired, runOutputs_cons] at hk
      exact (List.mem_singleton.mp (List.reduceOption_mem_iff.mp hk)).symm
    rw [← push_fst_eq_some hout] at hdrops
    exact absurd hdrops hkeeps

/-- A run on other blocks leaves a block alone, or forgets it: the latter exactly when it fires a
block that drops it. -/
lemma after_other {symbols : List (ι × α)} (h : ∀ s ∈ symbols, s.1 ≠ j) :
    (¬ DroppedBy Drops (fired Done Drops c symbols) j ∧ SameOn c (after Done Drops c symbols) j) ∨
    (DroppedBy Drops (fired Done Drops c symbols) j ∧ Fresh (after Done Drops c symbols) j) := by
  induction symbols using List.reverseRecOn with
  | nil => exact Or.inl ⟨droppedBy_nil, rfl, Iff.rfl⟩
  | append_singleton symbols s ih =>
      have hne : j ≠ s.1 := (h s (by simp)).symm
      rw [after_append, fired_append, droppedBy_append]
      rcases ih fun s hs => h s (List.mem_append_left _ hs) with ⟨hno, hsame⟩ | ⟨hyes, hfresh⟩
      · rcases push_other (c := after Done Drops c symbols)
          (e := s.2) hne with ⟨hno', hsame'⟩ | ⟨hyes', hfresh'⟩
        · exact Or.inl ⟨by rintro (h | h); exacts [hno h, hno' h], hsame'.1.trans hsame.1,
            hsame'.2.trans hsame.2⟩
        · exact Or.inr ⟨Or.inr hyes', hfresh'⟩
      · rcases push_other (c := after Done Drops c symbols)
          (e := s.2) hne with ⟨-, hsame'⟩ | ⟨-, hfresh'⟩
        · exact Or.inr ⟨Or.inl hyes, hfresh.of_sameOn hsame'⟩
        · exact Or.inr ⟨Or.inl hyes, hfresh'⟩

theorem kept_of_other {symbols : List (ι × α)} (h : ∀ s ∈ symbols, s.1 ≠ j)
    (hno : ¬ DroppedBy Drops (fired Done Drops c symbols) j) :
    SameOn c (after Done Drops c symbols) j := by
  rcases after_other h with ⟨-, hsame⟩ | ⟨hyes, -⟩
  · exact hsame
  · exact absurd hyes hno

theorem forgotten_of_other {symbols : List (ι × α)} (h : ∀ s ∈ symbols, s.1 ≠ j)
    (hyes : DroppedBy Drops (fired Done Drops c symbols) j) :
    Fresh (after Done Drops c symbols) j := by
  rcases after_other h with ⟨hno, -⟩ | ⟨-, hfresh⟩
  · exact absurd hyes hno
  · exact hfresh

/-- A run on other blocks does not make a block known. -/
lemma fresh_of_other {symbols : List (ι × α)} (h : ∀ s ∈ symbols, s.1 ≠ j) (hfresh : Fresh c j) :
    Fresh (after Done Drops c symbols) j := by
  rcases after_other (c := c) h with ⟨-, hsame⟩ | ⟨-, hfresh'⟩
  · exact hfresh.of_sameOn hsame
  · exact hfresh'

/-! ## A run on one block -/

lemma phase_closed (h : i ∈ c.closed) (es : List α) :
    fired Done Drops c (ofBlock i es) = [] ∧ after Done Drops c (ofBlock i es) = c := by
  induction es with
  | nil => exact ⟨rfl, rfl⟩
  | cons e es ih =>
      have hpush : c.push Done Drops (i, e) = (none, c) := push_closed h
      refine ⟨?_, ?_⟩
      · rw [ofBlock, List.map_cons, fired, runOutputs_cons, hpush]
        exact ih.1
      · rw [ofBlock, List.map_cons, after_cons, hpush]
        exact ih.2

/-- While its symbols are not done, a block collects them. -/
lemma phase_waits (hmono : ∀ s t, s ⊆ t → Done i s → Done i t) (h : i ∉ c.closed) {es : List α}
    (hdone : ¬ Done i (c.held i ∪ es.toFinset)) :
    fired Done Drops c (ofBlock i es) = [] ∧
      (after Done Drops c (ofBlock i es)).held i = c.held i ∪ es.toFinset ∧
      (after Done Drops c (ofBlock i es)).closed = c.closed ∧
      ∀ j, j ≠ i → (after Done Drops c (ofBlock i es)).held j = c.held j := by
  induction es generalizing c with
  | nil => simp [ofBlock]
  | cons e es ih =>
      have hunion : insert e (c.held i) ∪ es.toFinset = c.held i ∪ (e :: es).toFinset := by
        rw [List.toFinset_cons, Finset.insert_union, Finset.union_insert]
      have hnot : ¬ Done i (insert e (c.held i)) := fun hd =>
        hdone (hmono _ _ (hunion ▸ Finset.subset_union_left) hd)
      have hpush : c.push Done Drops (i, e) = _ := push_waits h hnot
      rw [ofBlock, List.map_cons, after_cons, fired, runOutputs_cons, hpush]
      set c' : Collector ι α :=
        { c with held := Function.update c.held i (insert e (c.held i)) } with hc'
      have hheld : c'.held i = insert e (c.held i) := Function.update_self _ _ _
      obtain ⟨hfired, hi, hclosed, hother⟩ := ih (c := c') h (by rw [hheld, hunion]; exact hdone)
      refine ⟨hfired, ?_, hclosed, fun j hne => (hother j hne).trans ?_⟩
      · exact hi.trans (by rw [hheld, hunion])
      · exact Function.update_of_ne hne _ _

/-- When its symbols get done, a block is fired once, and closed. -/
lemma phase_fires (hself : ¬ Drops i i) (h : i ∉ c.closed) (hnot : ¬ Done i (c.held i))
    {es : List α} (hdone : Done i (c.held i ∪ es.toFinset)) :
    fired Done Drops c (ofBlock i es) = [i] ∧
      after Done Drops c (ofBlock i es) = c.close Drops i := by
  induction es generalizing c with
  | nil => exact absurd (by simpa using hdone) hnot
  | cons e es ih =>
      rw [ofBlock, List.map_cons, after_cons, fired, runOutputs_cons]
      by_cases hnow : Done i (insert e (c.held i))
      · have hpush : c.push Done Drops (i, e) = (some i, c.close Drops i) := push_fires h hnow
        have hclosed : i ∈ (c.close Drops i).closed := ⟨Or.inl rfl, hself⟩
        obtain ⟨hfired, hafter⟩ := phase_closed hclosed es
        rw [hpush]
        exact ⟨congrArg (i :: ·) hfired, hafter⟩
      · have hpush : c.push Done Drops (i, e) = _ := push_waits h hnow
        rw [hpush]
        set c' : Collector ι α :=
          { c with held := Function.update c.held i (insert e (c.held i)) } with hc'
        have hheld : c'.held i = insert e (c.held i) := Function.update_self _ _ _
        have hunion : insert e (c.held i) ∪ es.toFinset = c.held i ∪ (e :: es).toFinset := by
          rw [List.toFinset_cons, Finset.insert_union, Finset.union_insert]
        obtain ⟨hfired, hafter⟩ := ih (c := c') h (by rw [hheld]; exact hnow)
          (by rw [hheld, hunion]; exact hdone)
        refine ⟨hfired, hafter.trans ?_⟩
        -- the two states differ in block `i` only, which closing empties
        have hclose : (c'.close Drops i).held = (c.close Drops i).held := by
          funext j
          by_cases hj : j = i ∨ Drops i j
          · exact (if_pos hj).trans (if_pos hj).symm
          · refine (if_neg hj).trans (Eq.trans ?_ (if_neg hj).symm)
            exact Function.update_of_ne (fun hji => hj (Or.inl hji)) _ _
        exact congrArg (Collector.mk · _) hclose

/-! ## Passes over several blocks -/

/-- Everything a collector fires is a block it received a symbol of. -/
lemma mem_of_mem_fired {symbols : List (ι × α)} (h : i ∈ fired Done Drops c symbols) :
    ∃ s ∈ symbols, s.1 = i := by
  induction symbols generalizing c with
  | nil => exact absurd h (by simp)
  | cons s symbols ih =>
      rw [← List.singleton_append, fired_append, List.mem_append] at h
      rcases h with h | h
      · have hpush : (c.push Done Drops s).1 = some i := by
          simpa [fired, List.reduceOption_mem_iff, eq_comm] using h
        exact ⟨s, List.mem_cons_self, push_fst_eq_some hpush⟩
      · obtain ⟨s', hs', hi⟩ := ih h
        exact ⟨s', List.mem_cons_of_mem _ hs', hi⟩

lemma mem_of_mem_fired_pass {ids : List ι} {symbols : ι → List α}
    (h : i ∈ fired Done Drops c (pass ids symbols)) : i ∈ ids := by
  obtain ⟨s, hs, hsi⟩ := mem_of_mem_fired h
  by_contra hno
  exact ne_of_mem_pass hno s hs hsi

/-- `Done` grows with the symbols and `Drops` never drops the block that is closed. -/
structure Regular (Done : ι → Finset α → Prop) (Drops : ι → ι → Prop) : Prop where
  mono : ∀ i s t, s ⊆ t → Done i s → Done i t
  self : ∀ i, ¬ Drops i i

/-- A fresh block is fired by its symbols exactly when they are done. -/
lemma fired_phase_fresh (hreg : Regular Done Drops) (hempty : ¬ Done i ∅) (hfresh : Fresh c i)
    (es : List α) :
    i ∈ fired Done Drops c (ofBlock i es) ↔ Done i es.toFinset := by
  have hunion : c.held i ∪ es.toFinset = es.toFinset := by rw [hfresh.1, Finset.empty_union]
  by_cases hdone : Done i es.toFinset
  · have hfires := phase_fires (hreg.self i) hfresh.2 (by rw [hfresh.1]; exact hempty)
      (by rw [hunion]; exact hdone)
    rw [hfires.1]
    exact ⟨fun _ => hdone, fun _ => List.mem_singleton_self i⟩
  · rw [(phase_waits (hreg.mono i) hfresh.2 (by rw [hunion]; exact hdone)).1]
    exact ⟨fun h => absurd h (by simp), fun h => absurd h hdone⟩

section Passes

variable {ids before after' : List ι} {symbols : ι → List α}

/-- In a pass, a block is fired by its own symbols, in the state the blocks before it left. -/
lemma mem_fired_at (hsplit : ids = before ++ i :: after') (hbefore : i ∉ before)
    (hafter : i ∉ after') :
    i ∈ fired Done Drops c (pass ids symbols)
      ↔ i ∈ fired Done Drops (after Done Drops c (pass before symbols))
          (ofBlock i (symbols i)) := by
  have hnot : ∀ {c : Collector ι α} {js : List ι}, i ∉ js →
      i ∉ fired Done Drops c (pass js symbols) :=
    fun hjs hmem => hjs (mem_of_mem_fired_pass hmem)
  rw [hsplit, pass_append, pass_cons, fired_append, fired_append, List.mem_append,
    List.mem_append]
  exact ⟨fun h => (h.resolve_left (hnot hbefore)).resolve_right (hnot hafter),
    fun h => Or.inr (Or.inl h)⟩

/-- A fresh block is fired once by its symbols when they are done. -/
lemma fired_phase_once (hreg : Regular Done Drops) (hfresh : Fresh c i) {es : List α} (hne : es ≠ [])
    (hdone : Done i es.toFinset) : fired Done Drops c (ofBlock i es) = [i] := by
  by_cases hempty : Done i ∅
  · -- any symbol fires it
    obtain ⟨e, es, rfl⟩ := List.exists_cons_of_ne_nil hne
    have hpush : c.push Done Drops (i, e) = (some i, c.close Drops i) := push_fires hfresh.2
      (hreg.mono i ∅ (insert e (c.held i)) (Finset.empty_subset _) hempty)
    have hclosed : i ∈ (c.close Drops i).closed := ⟨Or.inl rfl, hreg.self i⟩
    rw [ofBlock, List.map_cons, fired, runOutputs_cons, hpush]
    exact congrArg (i :: ·) (phase_closed hclosed es).1
  · have hunion : c.held i ∪ es.toFinset = es.toFinset := by rw [hfresh.1, Finset.empty_union]
    exact (phase_fires (hreg.self i) hfresh.2 (by rw [hfresh.1]; exact hempty)
      (by rw [hunion]; exact hdone)).1

/-- **Complete blocks one after the other** are all fired, in order. -/
theorem fired_phases (hreg : Regular Done Drops) {parts : List (ι × List α)}
    (hnodup : (parts.map Prod.fst).Nodup) (hne : ∀ part ∈ parts, part.2 ≠ [])
    (hdone : ∀ part ∈ parts, Done part.1 part.2.toFinset)
    (hfresh : ∀ part ∈ parts, Fresh c part.1) :
    fired Done Drops c (parts.flatMap fun part => ofBlock part.1 part.2) = parts.map Prod.fst := by
  induction parts generalizing c with
  | nil => rfl
  | cons part parts ih =>
      rw [List.map_cons, List.nodup_cons] at hnodup
      rw [List.forall_mem_cons] at hne hdone hfresh
      have hrest : ∀ part' ∈ parts, Fresh (after Done Drops c (ofBlock part.1 part.2)) part'.1 := by
        intro part' hpart'
        have hother : part.1 ≠ part'.1 := by
          intro heq
          exact hnodup.1 (heq ▸ List.mem_map_of_mem hpart')
        exact fresh_of_other (ne_of_mem_ofBlock hother) (hfresh.2 part' hpart')
      rw [List.flatMap_cons, fired_append, fired_phase_once hreg hfresh.1 hne.1 hdone.1,
        ih hnodup.2 hne.2 hdone.2 hrest]
      rfl

/-- The symbols of a block among some symbols. -/
def symbolsOf (symbols : List (ι × α)) (i : ι) : Finset α :=
  ((symbols.filter fun symbol => symbol.1 = i).map Prod.snd).toFinset

variable {symbol : ι × α}

/-- The symbol, when it is one of block `i`. -/
def ownSymbol (i : ι) (symbol : ι × α) : Option (ι × α) :=
  if symbol.1 = i then some symbol else none

omit [DecidableEq α] in
lemma ownSymbol_self (h : symbol.1 = i) : ownSymbol i symbol = some symbol := if_pos h

omit [DecidableEq α] in
lemma ownSymbol_other (h : symbol.1 ≠ i) : ownSymbol i symbol = none := if_neg h

omit [DecidableEq α] in
lemma isSome_ownSymbol : (ownSymbol i symbol).isSome ↔ symbol.1 = i := by
  by_cases h : symbol.1 = i
  · rw [ownSymbol_self h]
    exact iff_of_true rfl h
  · rw [ownSymbol_other h]
    exact iff_of_false Bool.false_ne_true h

omit [DecidableEq α] in
lemma filterMap_ownSymbol (symbols : List (ι × α)) :
    symbols.filterMap (ownSymbol i)
      = ofBlock i ((symbols.filter fun symbol => symbol.1 = i).map Prod.snd) := by
  induction symbols with
  | nil => rfl
  | cons symbol symbols ih =>
      by_cases hi : symbol.1 = i
      · subst hi
        rw [List.filterMap_cons_some (ownSymbol_self rfl), ih, List.filter_cons_of_pos (by simp)]
        rfl
      · rw [List.filterMap_cons_none (ownSymbol_other hi), ih,
          List.filter_cons_of_neg (by simpa using hi)]

/-- **To each block the collector is a collector of its own**, as long as nothing drops the
block. -/
lemma serves_block (i : ι) :
    Serves (push Done Drops) (push Done Drops) (ownSymbol (α := α) i) (· = ·)
      (fun c' c => SameOn c c' i) (fun symbol => ¬ Drops symbol.1 i) where
  mine c' c symbol own hsame _ hown := by
    have hi := isSome_ownSymbol.mp (Option.isSome_iff_exists.mpr ⟨own, hown⟩)
    obtain rfl : symbol = own := Option.some.inj ((ownSymbol_self hi).symm.trans hown)
    obtain ⟨j, e⟩ := symbol
    obtain rfl : j = i := hi
    obtain ⟨hheld, hclosed⟩ := hsame
    by_cases hin : j ∈ c.closed
    · rw [push_closed hin, push_closed (hclosed.mpr hin)]
      exact ⟨rfl, hheld, hclosed⟩
    have hout : j ∉ c'.closed := fun hin' => hin (hclosed.mp hin')
    by_cases hdone : Done j (insert e (c.held j))
    · rw [push_fires hin hdone, push_fires hout (by rwa [hheld])]
      refine ⟨rfl, held_close_self.trans held_close_self.symm, ?_⟩
      rw [mem_closed_close, mem_closed_close, hclosed]
    · rw [push_waits hin hdone, push_waits hout (by rwa [hheld])]
      refine ⟨rfl, ?_, hclosed⟩
      simp only [Function.update_self, hheld]
  others c' c symbol hsame hok hown := by
    have hne : i ≠ symbol.1 := by
      rintro rfl
      cases (ownSymbol_self rfl).symm.trans hown
    have hother : (¬ DroppedBy Drops (fired Done Drops c' [symbol]) i ∧ _) ∨ _ :=
      push_other (e := symbol.2) hne
    rcases hother with ⟨-, hkept⟩ | ⟨⟨k, hk, hdrops⟩, -⟩
    · exact ⟨hkept.1.trans hsame.1, hkept.2.trans hsame.2⟩
    · obtain ⟨s, hs, rfl⟩ := mem_of_mem_fired hk
      obtain rfl := List.mem_singleton.mp hs
      exact absurd hdrops hok

/-- A block is fired by its own symbols only. -/
lemma count_fired (c : Collector ι α) (symbols : List (ι × α)) :
    (fired Done Drops c symbols).count i
      = (ownOutputs (ownSymbol i) symbols
          (runOutputs (push Done Drops) c symbols)).reduceOption.count i := by
  induction symbols generalizing c with
  | nil => rfl
  | cons symbol symbols ih =>
      have ih := ih (c.push Done Drops symbol).2
      rw [fired] at ih
      rw [fired, runOutputs_cons]
      by_cases hi : symbol.1 = i
      · rw [ownOutputs_cons_mine (ownSymbol_self hi)]
        cases (c.push Done Drops symbol).1 with
        | none => rw [List.reduceOption_cons_of_none, List.reduceOption_cons_of_none, ih]
        | some k =>
            rw [List.reduceOption_cons_of_some, List.reduceOption_cons_of_some, List.count_cons,
              List.count_cons, ih]
      · rw [ownOutputs_cons_other (ownSymbol_other hi)]
        cases hpush : (c.push Done Drops symbol).1 with
        | none => rw [List.reduceOption_cons_of_none, ih]
        | some k =>
            have hk : k ≠ i := fun heq => hi ((push_fst_eq_some hpush).trans heq)
            rw [List.reduceOption_cons_of_some, List.count_cons_of_ne hk, ih]

/-- **Any arrivals**, lost, repeated and out of order: as long as a block is not dropped between
two of its symbols, it is fired at most once, and exactly when its symbols are done. -/
theorem fired_of_uncut (hreg : Regular Done Drops) (hfresh : Fresh c i) {symbols : List (ι × α)}
    (huncut : ∀ k, [i, k, i].Sublist (symbols.map Prod.fst) → ¬ Drops k i) :
    (i ∈ fired Done Drops c symbols
        ↔ (symbolsOf symbols i).Nonempty ∧ Done i (symbolsOf symbols i)) ∧
      (fired Done Drops c symbols).count i ≤ 1 := by
  set es := (symbols.filter fun symbol => symbol.1 = i).map Prod.snd with hes
  have hlone : (fired Done Drops c symbols).count i
      = (fired Done Drops empty (ofBlock i es)).count i := by
    rw [count_fired, (serves_block i).outputs_eq_between (s := empty) ?_
      (fun c => Fresh c i) ?_ ?_ hfresh ?_, filterMap_ownSymbol, fired]
    · intro symbol _ hown
      rw [isSome_ownSymbol.mp hown]
      exact hreg.self i
    · exact fun c' hfresh' => ⟨hfresh'.1, iff_of_false hfresh'.2 (Set.notMem_empty i)⟩
    · intro c' symbol hfresh' hown
      have hstays : (∀ s ∈ [symbol], s.1 ≠ i) → Fresh (after Done Drops c' [symbol]) i :=
        fun hother => fresh_of_other hother hfresh'
      refine hstays fun s hs => ?_
      obtain rfl := List.mem_singleton.mp hs
      rintro rfl
      cases (ownSymbol_self rfl).symm.trans hown
    · intro first symbol last hfirst hlast hsub
      rw [isSome_ownSymbol] at hfirst hlast
      have hids := hsub.map Prod.fst
      simp only [List.map_cons, List.map_nil, hfirst, hlast] at hids
      exact huncut symbol.1 hids
  have hsymbols : symbolsOf symbols i = es.toFinset := rfl
  rw [← List.count_pos_iff, hlone, hsymbols, List.toFinset_nonempty_iff]
  have hempty : Fresh (empty : Collector ι α) i := ⟨rfl, Set.notMem_empty i⟩
  by_cases hnil : es = []
  · rw [hnil]
    simp [ofBlock]
  by_cases hdone : Done i es.toFinset
  · rw [fired_phase_once hreg hempty hnil hdone]
    simp [hnil, hdone]
  · have hwaits : fired Done Drops empty (ofBlock i es) = [] :=
      (phase_waits (hreg.mono i) hempty.2 (by rwa [hempty.1, Finset.empty_union])).1
    rw [hwaits]
    simp [hdone]

/-- **A pass over fresh blocks** fires exactly those whose symbols are done. -/
theorem fired_pass (hreg : Regular Done Drops) (hnodup : ids.Nodup)
    (hempty : ∀ i ∈ ids, ¬ Done i ∅) (hfresh : ∀ i ∈ ids, Fresh c i) :
    i ∈ fired Done Drops c (pass ids symbols) ↔ i ∈ ids ∧ Done i (symbols i).toFinset := by
  by_cases hi : i ∈ ids
  · obtain ⟨before, after', hsplit⟩ := List.append_of_mem hi
    have hparts := hsplit ▸ hnodup
    have hbefore : i ∉ before := fun h =>
      (List.nodup_append.mp hparts).2.2 i h i List.mem_cons_self rfl
    have hafter : i ∉ after' := (List.nodup_cons.mp (List.nodup_append.mp hparts).2.1).1
    rw [mem_fired_at hsplit hbefore hafter, fired_phase_fresh hreg (hempty i hi)
      (fresh_of_other (ne_of_mem_pass hbefore) (hfresh i hi))]
    exact ⟨fun h => ⟨hi, h⟩, And.right⟩
  · exact ⟨fun h => absurd (mem_of_mem_fired_pass h) hi, fun h => absurd h.1 hi⟩

/-- What a pass over fresh blocks leaves of one of them: nothing when a block behind it was fired
that drops it; otherwise the block is closed or holds its symbols. -/
lemma after_pass (hreg : Regular Done Drops) (hnodup : ids.Nodup)
    (hempty : ∀ i ∈ ids, ¬ Done i ∅) (hfresh : ∀ i ∈ ids, Fresh c i)
    (hsplit : ids = before ++ i :: after') :
    ((∃ j ∈ after', Done j (symbols j).toFinset ∧ Drops j i) →
      Fresh (after Done Drops c (pass ids symbols)) i) ∧
    ((∀ j ∈ after', Done j (symbols j).toFinset → ¬ Drops j i) →
      (Done i (symbols i).toFinset → i ∈ (after Done Drops c (pass ids symbols)).closed) ∧
      (¬ Done i (symbols i).toFinset →
        (after Done Drops c (pass ids symbols)).held i = (symbols i).toFinset ∧
        i ∉ (after Done Drops c (pass ids symbols)).closed)) := by
  have hparts := hsplit ▸ hnodup
  obtain ⟨-, hrest, hdisjoint⟩ := List.nodup_append.mp hparts
  obtain ⟨hafter, hnodup'⟩ := List.nodup_cons.mp hrest
  have hbefore : i ∉ before := fun h => hdisjoint i h i List.mem_cons_self rfl
  have hi : i ∈ ids := by rw [hsplit]; simp
  have hfresh₁ : Fresh (after Done Drops c (pass before symbols)) i :=
    fresh_of_other (ne_of_mem_pass hbefore) (hfresh i hi)
  set c₁ := after Done Drops c (pass before symbols) with hc₁
  set c₂ := after Done Drops c₁ (ofBlock i (symbols i)) with hc₂
  have hfinal : after Done Drops c (pass ids symbols)
      = after Done Drops c₂ (pass after' symbols) := by
    rw [hsplit, pass_append, pass_cons, after_append, after_append]
  have hfired : ∀ j, j ∈ fired Done Drops c₂ (pass after' symbols)
      ↔ j ∈ after' ∧ Done j (symbols j).toFinset := by
    intro j
    refine fired_pass hreg hnodup' (fun k hk => hempty k (by rw [hsplit]; simp [hk]))
      fun k hk => ?_
    have hki : i ≠ k := by rintro rfl; exact hafter hk
    have hkb : k ∉ before := fun h => hdisjoint k h k (List.mem_cons_of_mem _ hk) rfl
    exact fresh_of_other (ne_of_mem_ofBlock hki) (fresh_of_other (ne_of_mem_pass hkb)
      (hfresh k (by rw [hsplit]; simp [hk])))
  have hunion : c₁.held i ∪ (symbols i).toFinset = (symbols i).toFinset := by
    rw [hfresh₁.1, Finset.empty_union]
  rw [hfinal]
  refine ⟨?_, fun hnone => ?_⟩
  · rintro ⟨j, hj, hdone, hdrop⟩
    exact forgotten_of_other (ne_of_mem_pass hafter) ⟨j, (hfired j).mpr ⟨hj, hdone⟩, hdrop⟩
  · have hsame : SameOn c₂ (after Done Drops c₂ (pass after' symbols)) i := by
      refine kept_of_other (ne_of_mem_pass hafter) ?_
      rintro ⟨j, hj, hdrop⟩
      exact hnone j ((hfired j).mp hj).1 ((hfired j).mp hj).2 hdrop
    refine ⟨fun hdone => ?_, fun hdone => ?_⟩
    · have hfires := phase_fires (hreg.self i) hfresh₁.2
        (by rw [hfresh₁.1]; exact hempty i hi) (by rw [hunion]; exact hdone)
      refine hsame.2.mpr ?_
      rw [hc₂, hfires.2]
      exact ⟨Or.inl rfl, hreg.self i⟩
    · obtain ⟨-, hheld, hclosed, -⟩ := phase_waits (hreg.mono i) hfresh₁.2
        (by rw [hunion]; exact hdone)
      refine ⟨hsame.1.trans (hheld.trans hunion), fun h => ?_⟩
      have := hsame.2.mp h
      rw [hc₂, hclosed] at this
      exact hfresh₁.2 this

end Passes

/-! ## Two passes -/

section TwoPasses

variable {n : ℕ} {name : ℕ → ι} {source repair : ι → List α}

/-- The block in position `a` gets its symbols together: those of the source pass, those of the
repair pass, or both, if nothing drops it in between. -/
def Recovers (Done : ι → Finset α → Prop) (Drops : ι → ι → Prop) (n : ℕ) (name : ℕ → ι)
    (source repair : ι → List α) (a : ℕ) : Prop :=
  Done (name a) (source (name a)).toFinset ∨ Done (name a) (repair (name a)).toFinset ∨
    (∀ b, a < b → b < n → Done (name b) (source (name b)).toFinset → ¬ Drops (name b) (name a)) ∧
    ∀ b < a, (¬ Done (name b) (source (name b)).toFinset ∨
      Done (name b) (repair (name b)).toFinset ∧
        ∃ d, b < d ∧ d < n ∧ Done (name d) (source (name d)).toFinset ∧
          Drops (name d) (name b)) → ¬ Drops (name b) (name a)

/-- A schedule of distinct blocks the collector does not know yet. -/
structure NewSchedule (Done : ι → Finset α → Prop) (c : Collector ι α) (n : ℕ) (name : ℕ → ι) :
    Prop where
  inj : ∀ a < n, ∀ b < n, name a = name b → a = b
  empty : ∀ a < n, ¬ Done (name a) ∅
  fresh : ∀ a < n, Fresh c (name a)

/-- In a pass over a schedule, a block is fired at its own position. -/
lemma mem_fired_schedule (hinj : ∀ a < n, ∀ b < n, name a = name b → a = b) {a m : ℕ}
    (ham : a < m) (hmn : m ≤ n) {symbols : ι → List α} :
    name a ∈ fired Done Drops c (pass (schedule m name) symbols)
      ↔ name a ∈ fired Done Drops (after Done Drops c (pass (schedule a name) symbols))
          (ofBlock (name a) (symbols (name a))) := by
  refine mem_fired_at (schedule_split ham) (notMem_schedule hinj (by omega)) ?_
  rw [mem_behind]
  rintro ⟨b, hab, hbm, heq⟩
  have := hinj b (by omega) a (by omega) heq
  omega

/-- What the source pass fires. -/
lemma fired_source (hreg : Regular Done Drops) (hnew : NewSchedule Done c n name) {a : ℕ}
    (h : a < n) :
    name a ∈ fired Done Drops c (pass (schedule n name) source)
      ↔ Done (name a) (source (name a)).toFinset := by
  rw [fired_pass hreg (schedule_nodup hnew.inj)]
  · exact ⟨And.right, fun hd => ⟨mem_schedule.mpr ⟨a, h, rfl⟩, hd⟩⟩
  · intro i hi
    obtain ⟨b, hb, rfl⟩ := mem_schedule.mp hi
    exact hnew.empty b hb
  · intro i hi
    obtain ⟨b, hb, rfl⟩ := mem_schedule.mp hi
    exact hnew.fresh b hb

/-- What the source pass leaves of a block: nothing when a block behind it is full and drops it;
otherwise a full block is closed, and another one holds its source symbols. -/
lemma after_source (hreg : Regular Done Drops) (hnew : NewSchedule Done c n name) {a : ℕ}
    (h : a < n) :
    ((∃ b, a < b ∧ b < n ∧ Done (name b) (source (name b)).toFinset ∧ Drops (name b) (name a)) →
      Fresh (after Done Drops c (pass (schedule n name) source)) (name a)) ∧
    ((∀ b, a < b → b < n → Done (name b) (source (name b)).toFinset →
        ¬ Drops (name b) (name a)) →
      (Done (name a) (source (name a)).toFinset →
        name a ∈ (after Done Drops c (pass (schedule n name) source)).closed) ∧
      (¬ Done (name a) (source (name a)).toFinset →
        (after Done Drops c (pass (schedule n name) source)).held (name a)
          = (source (name a)).toFinset ∧
        name a ∉ (after Done Drops c (pass (schedule n name) source)).closed)) := by
  have hmem : ∀ {P : ι → Prop}, (∀ i ∈ schedule n name, P i) ↔ ∀ b < n, P (name b) := by
    intro P
    simp [schedule]
  obtain ⟨hforget, hkeep⟩ := after_pass hreg
    (schedule_nodup hnew.inj) (hmem.mpr hnew.empty) (hmem.mpr hnew.fresh) (schedule_split h)
  refine ⟨?_, fun hnone => hkeep ?_⟩
  · rintro ⟨b, hab, hbn, hfull, hdrop⟩
    exact hforget ⟨name b, mem_behind.mpr ⟨b, hab, hbn, rfl⟩, hfull, hdrop⟩
  · intro j hj hfull
    obtain ⟨b, hab, hbn, rfl⟩ := mem_behind.mp hj
    exact hnone b hab hbn hfull

section Repair

variable (hreg : Regular Done Drops) (hnew : NewSchedule Done c n name)

include hreg hnew

/-- A block that the source pass leaves fresh is fired in the repair pass exactly when its repair
symbols alone are done. -/
lemma fired_repair_of_fresh {a m : ℕ} (ham : a < m) (hmn : m ≤ n)
    (hfresh : Fresh (after Done Drops (after Done Drops c (pass (schedule n name) source))
      (pass (schedule a name) repair)) (name a)) :
    name a ∈ fired Done Drops (after Done Drops c (pass (schedule n name) source))
        (pass (schedule m name) repair)
      ↔ Done (name a) (repair (name a)).toFinset := by
  rw [mem_fired_schedule hnew.inj ham hmn]
  exact fired_phase_fresh hreg (hnew.empty a (by omega)) hfresh _

/-- A block that is fresh after the source pass is fired in the repair pass exactly when its
repair symbols alone are done. -/
lemma fired_repair_of_dropped {a m : ℕ} (ham : a < m) (hmn : m ≤ n)
    (hfresh : Fresh (after Done Drops c (pass (schedule n name) source)) (name a)) :
    name a ∈ fired Done Drops (after Done Drops c (pass (schedule n name) source))
        (pass (schedule m name) repair)
      ↔ Done (name a) (repair (name a)).toFinset :=
  fired_repair_of_fresh hreg hnew ham hmn
    (fresh_of_other (ne_of_mem_pass (notMem_schedule hnew.inj (by omega))) hfresh)

/-- A block that waits for its repair symbols is fired by them, unless the repair pass drops it
first. -/
lemma fired_repair_of_waiting {a : ℕ} (h : a < n)
    (hdone : Done (name a) ((source (name a)).toFinset ∪ (repair (name a)).toFinset))
    (hfull : ¬ Done (name a) (source (name a)).toFinset)
    (hsource : ∀ b, a < b → b < n → Done (name b) (source (name b)).toFinset →
      ¬ Drops (name b) (name a))
    (hrepair : ¬ DroppedBy Drops (fired Done Drops
      (after Done Drops c (pass (schedule n name) source)) (pass (schedule a name) repair))
      (name a)) :
    name a ∈ fired Done Drops (after Done Drops c (pass (schedule n name) source))
      (pass (schedule n name) repair) := by
  obtain ⟨hheld, hopen⟩ := ((after_source hreg hnew h).2 hsource).2 hfull
  have hsame := kept_of_other (ne_of_mem_pass (notMem_schedule hnew.inj h)) hrepair
  rw [mem_fired_schedule hnew.inj h le_rfl]
  have hheld' := hsame.1.trans hheld
  have hfires := phase_fires (hreg.self (name a)) (fun hcl => hopen (hsame.2.mp hcl))
    (by rw [hheld']; exact hfull) (by rw [hheld']; exact hdone)
  rw [hfires.1]
  exact List.mem_singleton_self _

/-- A block that is not full is fired by its repair symbols when they alone are done. -/
lemma fired_repair_of_alone {a : ℕ} (h : a < n)
    (hfull : ¬ Done (name a) (source (name a)).toFinset)
    (halone : Done (name a) (repair (name a)).toFinset) :
    name a ∈ fired Done Drops (after Done Drops c (pass (schedule n name) source))
      (pass (schedule n name) repair) := by
  set c' := after Done Drops c (pass (schedule n name) source) with hc'
  set c'' := after Done Drops c' (pass (schedule a name) repair) with hc''
  -- whatever was dropped in between, the block is open and not done
  have hopen : name a ∉ c''.closed ∧ ¬ Done (name a) (c''.held (name a)) := by
    have hfresh : Fresh c'' (name a) →
        name a ∉ c''.closed ∧ ¬ Done (name a) (c''.held (name a)) :=
      fun hf => ⟨hf.2, by rw [hf.1]; exact hnew.empty a h⟩
    rcases after_other (c := c')
      (ne_of_mem_pass (notMem_schedule hnew.inj h)) with
      ⟨-, hsame⟩ | ⟨-, hf⟩
    · by_cases hdrop : ∃ b, a < b ∧ b < n ∧ Done (name b) (source (name b)).toFinset ∧
          Drops (name b) (name a)
      · exact hfresh (((after_source hreg hnew h).1 hdrop).of_sameOn hsame)
      · obtain ⟨hheld, hcl⟩ := ((after_source hreg hnew h).2
          fun b hab hbn hb hd => hdrop ⟨b, hab, hbn, hb, hd⟩).2 hfull
        exact ⟨fun hc => hcl (hsame.2.mp hc), by rw [hsame.1.trans hheld]; exact hfull⟩
    · exact hfresh hf
  have hfires := phase_fires (hreg.self (name a)) hopen.1
    hopen.2 (hreg.mono _ _ _ Finset.subset_union_right halone)
  rw [mem_fired_schedule hnew.inj h le_rfl, hfires.1]
  exact List.mem_singleton_self _

/-- A full block is fired again in the repair pass only if it was dropped in between, and then by
its repair symbols alone. -/
lemma refired_of_full {b : ℕ} (h : b < n) (hfull : Done (name b) (source (name b)).toFinset)
    {m : ℕ} (hbm : b < m) (hmn : m ≤ n)
    (hfired : name b ∈ fired Done Drops (after Done Drops c (pass (schedule n name) source))
      (pass (schedule m name) repair)) :
    (Done (name b) (repair (name b)).toFinset ∧
      ∃ d, b < d ∧ d < n ∧ Done (name d) (source (name d)).toFinset ∧ Drops (name d) (name b)) ∨
    ∃ e < b, Drops (name e) (name b) := by
  by_cases hdrop : ∃ d, b < d ∧ d < n ∧ Done (name d) (source (name d)).toFinset ∧
      Drops (name d) (name b)
  · have hfresh := (after_source hreg hnew h).1 hdrop
    exact Or.inl ⟨(fired_repair_of_dropped hreg hnew hbm hmn hfresh).mp hfired, hdrop⟩
  · have hclosed := ((after_source hreg hnew h).2
      fun d hbd hdn hd hdr => hdrop ⟨d, hbd, hdn, hd, hdr⟩).1 hfull
    rcases after_other
      (c := after Done Drops c (pass (schedule n name) source))
      (ne_of_mem_pass (notMem_schedule hnew.inj h)) with
      ⟨-, hsame⟩ | ⟨⟨k, hk, hdrops⟩, -⟩
    · rw [mem_fired_schedule hnew.inj hbm hmn,
        (phase_closed (hsame.2.mpr hclosed) _).1] at hfired
      exact absurd hfired (by simp)
    · obtain ⟨e, he, rfl⟩ := mem_schedule.mp (mem_of_mem_fired_pass hk)
      exact Or.inr ⟨e, he, hdrops⟩

/-- If every block is fired, every block recovers. -/
lemma recovers_of_fired {a : ℕ} (h : a < n)
    (hall : ∀ b < n, Done (name b) (source (name b)).toFinset ∨
      name b ∈ fired Done Drops (after Done Drops c (pass (schedule n name) source))
        (pass (schedule n name) repair)) :
    Recovers Done Drops n name source repair a := by
  by_cases hfull : Done (name a) (source (name a)).toFinset
  · exact Or.inl hfull
  by_cases halone : Done (name a) (repair (name a)).toFinset
  · exact Or.inr (Or.inl halone)
  have hfired := (hall a h).resolve_left hfull
  refine Or.inr (Or.inr ⟨fun b hab hbn hb hdrop => ?_, fun b hba hb hdrop => ?_⟩)
  · have hfresh := (after_source hreg hnew h).1 ⟨b, hab, hbn, hb, hdrop⟩
    exact halone ((fired_repair_of_dropped hreg hnew h le_rfl hfresh).mp hfired)
  · -- `b` is fired in front of `a`, and drops it
    have hrefired : name b ∈ fired Done Drops
        (after Done Drops c (pass (schedule n name) source)) (pass (schedule a name) repair) := by
      rcases hb with hb | ⟨hb, hdropped⟩
      · have := (hall b (by omega)).resolve_left hb
        rwa [mem_fired_schedule hnew.inj (by omega : b < n) le_rfl,
          ← mem_fired_schedule hnew.inj hba (by omega : a ≤ n)] at this
      · exact (fired_repair_of_dropped hreg hnew hba (by omega)
          ((after_source hreg hnew (by omega)).1 hdropped)).mpr hb
    have hfresh := forgotten_of_other (ne_of_mem_pass (notMem_schedule hnew.inj h))
      ⟨name b, hrefired, hdrop⟩
    exact halone ((fired_repair_of_fresh hreg hnew h le_rfl hfresh).mp hfired)

/-- A block that recovers is fired. -/
lemma fired_of_recovers
    (hdone : ∀ a < n, Done (name a)
      ((source (name a)).toFinset ∪ (repair (name a)).toFinset))
    (hchain : ∀ a b d, a < b → b < d → d < n →
      Drops (name a) (name b) → ¬ Drops (name b) (name d)) {a : ℕ} (h : a < n)
    (hrec : Recovers Done Drops n name source repair a) :
    Done (name a) (source (name a)).toFinset ∨
      name a ∈ fired Done Drops (after Done Drops c (pass (schedule n name) source))
        (pass (schedule n name) repair) := by
  by_cases hfull : Done (name a) (source (name a)).toFinset
  · exact Or.inl hfull
  refine Or.inr ?_
  rcases hrec with hrec | halone | ⟨hsource, hrepair⟩
  · exact absurd hrec hfull
  · exact fired_repair_of_alone hreg hnew h hfull halone
  · refine fired_repair_of_waiting hreg hnew h (hdone a h) hfull hsource ?_
    rintro ⟨k, hk, hdrop⟩
    obtain ⟨b, hba, rfl⟩ := mem_schedule.mp (mem_of_mem_fired_pass hk)
    by_cases hb : Done (name b) (source (name b)).toFinset
    · rcases refired_of_full hreg hnew (by omega) hb hba (by omega) hk with hre | ⟨e, he, hdrops⟩
      · exact hrepair b hba (Or.inr hre) hdrop
      · exact hchain e b a he hba h hdrops hdrop
    · exact hrepair b hba (Or.inl hb) hdrop

end Repair

variable (source repair) in
/-- **Two passes.**  A source pass over fresh blocks and then a repair pass over the same blocks
fire every block exactly when every block recovers, provided each block's symbols of both passes
are done and dropping does not chain along the schedule. -/
theorem two_passes_iff (hreg : Regular Done Drops)
    (hnew : NewSchedule Done c n name)
    (hdone : ∀ a < n, Done (name a)
      ((source (name a)).toFinset ∪ (repair (name a)).toFinset))
    (hchain : ∀ a b d, a < b → b < d → d < n →
      Drops (name a) (name b) → ¬ Drops (name b) (name d)) :
    (∀ a < n, name a ∈ fired Done Drops c
        (pass (schedule n name) source ++ pass (schedule n name) repair))
      ↔ ∀ a < n, Recovers Done Drops n name source repair a := by
  have hfired : ∀ a < n, name a ∈ fired Done Drops c
      (pass (schedule n name) source ++ pass (schedule n name) repair)
      ↔ Done (name a) (source (name a)).toFinset ∨
        name a ∈ fired Done Drops (after Done Drops c (pass (schedule n name) source))
          (pass (schedule n name) repair) := by
    intro a ha
    rw [fired_append, List.mem_append, fired_source hreg hnew ha]
  constructor
  · exact fun hall a ha => recovers_of_fired hreg hnew ha fun b hb => (hfired b hb).mp (hall b hb)
  · exact fun hrec a ha => (hfired a ha).mpr
      (fired_of_recovers hreg hnew hdone hchain ha (hrec a ha))

end TwoPasses

end Collector

end RaptorFec
