import RaptorFec.Datagram.PermanentLoss

/-!
# What the tracker flags as duplicate or reordered

A number is a duplicate or reordered when it was received before, or when a serially later one
was.  `observe` has to tell this from `nextExpected`, `missing` and `futureReceived`, and they do
not remember every number received: one that fills a gap leaves `missing`, and until
`nextExpected` has moved past it nothing records that it arrived.

`observe_flag_exact_iff` says that this is the only way to go wrong: within the window of one gap,
a call flags its number exactly as it should unless it repeats a number that was `LeftUnrecorded`
by the calls before it.
-/

namespace RaptorFec

/-- `x` comes after `sequence` in serial order: ahead of it by at most `i32::MAX`. -/
def SeriallyLater (sequence x : UInt32) : Prop :=
  x ≠ sequence ∧ x - sequence ≤ maxForward

namespace SequenceTracker

/-- What the flag is to say: the number was received before, or a serially later one was. -/
def SeenOrPassed (past : List UInt32) (sequence : UInt32) : Prop :=
  sequence ∈ past ∨ ∃ x ∈ past, SeriallyLater sequence x

/-- The next call flags its number exactly if it was seen or passed. -/
def FlagsExactly (t : SequenceTracker) (past : List UInt32) (sequence : UInt32) : Prop :=
  (t.observe sequence).1.duplicateOrReordered = true ↔ SeenOrPassed past sequence

/-- The number was received, `nextExpected` is not past it, and neither collection has it. -/
def Forgets (t : SequenceTracker) (past : List UInt32) (sequence : UInt32) : Prop :=
  ∃ expected, t.nextExpected = some expected ∧ sequence ∈ past ∧
    sequence - expected ≤ maxForward ∧ sequence ∉ t.missing ∧ sequence ∉ t.futureReceived

/-- The number fills a gap: it is believed missing and is not the expected one. -/
def FillsGap (t : SequenceTracker) (sequence : UInt32) : Prop :=
  sequence ∈ t.missing ∧ t.nextExpected ≠ some sequence

/-- The call opens a gap that the number lies in. -/
def OpensGapOver (x : UInt32) (t : SequenceTracker) (sequence : UInt32) : Prop :=
  t.OpensGap sequence ∧ ∃ expected, t.nextExpected = some expected ∧
    x - expected < sequence - expected

/-- How the calls leave a number unrecorded that was received: it filled a gap, and no gap was
opened over it since; it never was the one to open a gap; and `nextExpected` has not moved past
it. -/
structure LeftUnrecorded (past : List UInt32) (x : UInt32) : Prop where
  filled : HeldSince observe new past (fun t sequence => sequence = x ∧ t.FillsGap x)
    (OpensGapOver x)
  notEarly : ¬ HappensAfter observe new [] past fun t sequence => sequence = x ∧ t.OpensGap x
  notPast : (runState observe new past).NotPast x

/-- The flag, by the branch that sets it. -/
lemma observe_flag {t : SequenceTracker} {sequence expected : UInt32}
    (he : t.nextExpected = some expected) :
    (t.observe sequence).1.duplicateOrReordered = true ↔
      sequence ∈ t.missing ∨ ¬ sequence - expected ≤ maxForward ∨
        (sequence ≠ expected ∧ sequence ∈ t.futureReceived) := by
  by_cases hmem : sequence ∈ t.missing
  · simp [observe, place, he, hmem]
  by_cases hforward : sequence - expected ≤ maxForward
  · by_cases heq : sequence = expected
    · subst heq
      have hzero : (0 : UInt32) ≤ maxForward := by decide
      simp [observe, place, he, hmem, hzero]
    · simp [observe, place, he, hmem, hforward, heq, sub_eq_zero]
  · simp [observe, place, he, hmem, hforward]

end SequenceTracker

open SequenceTracker

/-- What the collections record of the numbers received, on every run within the window: those
below `expected` all arrived, and each one from there on up to a received number is missing or
arrived. -/
structure Covers (first : UInt32) (seen : List UInt32) (t : SequenceTracker)
    (expected : UInt32) : Prop where
  window : ∀ x ∈ seen, ahead first x ≤ 4096
  nextExpected : t.nextExpected = some expected
  expected_le : ahead first expected ≤ 4097
  settled : ∀ x, ahead first x < ahead first expected → x ∈ seen
  future : ∀ x ∈ t.futureReceived, x ∈ seen
  expected_notMem : expected ∉ t.futureReceived
  covered : ∀ y ∈ seen, ∀ x, ahead first expected ≤ ahead first x →
    ahead first x < ahead first y → x ∈ t.missing ∨ x ∈ seen
  missing : ∀ x ∈ t.missing, ∃ y ∈ seen, ahead first x < ahead first y

namespace Covers

variable {first expected sequence : UInt32} {seen : List UInt32} {t : SequenceTracker}

/-- Within the window the wrapping comparison is the one from `first`. -/
lemma forward_iff (h : Covers first seen t expected) (hq : ahead first sequence ≤ 4096) :
    sequence - expected ≤ maxForward ↔ ahead first expected ≤ ahead first sequence := by
  have hle := h.expected_le
  rw [UInt32.le_iff_toNat_le]
  change ahead expected sequence ≤ 0x7fffffff ↔ _
  rcases Nat.lt_or_ge (ahead first sequence) (ahead first expected) with hlt | hge
  · rw [ahead_of_lt hlt]
    omega
  · rw [ahead_of_le hge]
    omega

/-- So is serial order. -/
lemma seriallyLater_iff {first sequence x : UInt32} (hq : ahead first sequence ≤ 4096)
    (hx : ahead first x ≤ 4096) :
    SeriallyLater sequence x ↔ ahead first sequence < ahead first x := by
  have hne : x ≠ sequence ↔ ahead first x ≠ ahead first sequence := ahead_inj.not.symm
  rw [SeriallyLater, hne, UInt32.le_iff_toNat_le]
  change _ ∧ ahead sequence x ≤ 0x7fffffff ↔ _
  rcases Nat.lt_or_ge (ahead first x) (ahead first sequence) with hlt | hge
  · rw [ahead_of_lt hlt]
    omega
  · rw [ahead_of_le hge]
    omega

/-- `nextExpected` is not past the numbers from it on. -/
lemma notPast_iff (h : Covers first seen t expected) {x : UInt32} (hx : ahead first x ≤ 4096) :
    t.NotPast x ↔ ahead first expected ≤ ahead first x := by
  rw [SequenceTracker.notPast_iff h.nextExpected, ← le_maxForward_iff, h.forward_iff hx]

/-- **When a call flags its number as it should**: unless the number is forgotten. -/
theorem flagsExactly_iff (h : Covers first seen t expected) (hq : ahead first sequence ≤ 4096) :
    t.FlagsExactly seen sequence ↔ ¬ t.Forgets seen sequence := by
  have hlater : (∃ x ∈ seen, SeriallyLater sequence x) ↔
      ∃ x ∈ seen, ahead first sequence < ahead first x := by
    refine exists_congr fun x => and_congr_right fun hx => ?_
    exact seriallyLater_iff hq (h.window x hx)
  have hforgets : t.Forgets seen sequence ↔ sequence ∈ seen ∧
      ahead first expected ≤ ahead first sequence ∧ sequence ∉ t.missing ∧
        sequence ∉ t.futureReceived := by
    rw [← h.forward_iff hq]
    constructor
    · rintro ⟨expected', he, hrest⟩
      cases h.nextExpected.symm.trans he
      exact hrest
    · intro hrest
      exact ⟨expected, h.nextExpected, hrest⟩
  rw [FlagsExactly, observe_flag h.nextExpected, SeenOrPassed, hlater, hforgets,
    h.forward_iff hq]
  by_cases hmem : sequence ∈ t.missing
  · have hhigher := h.missing sequence hmem
    simp [hmem, hhigher]
  by_cases hforward : ahead first expected ≤ ahead first sequence
  · by_cases hfuture : sequence ∈ t.futureReceived
    · have hseen := h.future sequence hfuture
      have hne : sequence ≠ expected := by
        rintro rfl
        exact h.expected_notMem hfuture
      simp [hfuture, hseen, hne]
    · -- the flag stays down: right for a new number, wrong for a repeated one
      by_cases hseen : sequence ∈ seen
      · simp [hmem, hforward, hfuture, hseen]
      · have hnone : ¬ ∃ x ∈ seen, ahead first sequence < ahead first x := by
          rintro ⟨x, hx, hlt⟩
          rcases h.covered x hx sequence hforward hlt with hin | hin
          · exact hmem hin
          · exact hseen hin
        simp [hmem, hforward, hfuture, hseen, hnone]
  · have hseen := h.settled sequence (by omega)
    simp [hforward, hseen]

/-! ### The branches of a call -/

/-- The loop of `advance_expected`, seen from `first`: the numbers it passes were all received
early, and it takes no others out of `missing`. -/
lemma advanceLoop_passed (first : UInt32) (fuel : ℕ) (next : UInt32)
    (missing future : Finset UInt32) (hwindow : ∀ x ∈ future, ahead first x ≤ 4096)
    (hnext : ahead first next ≤ 4097) :
    let r := advanceLoop fuel next missing future
    ahead first next ≤ ahead first r.1 ∧ ahead first r.1 ≤ 4097 ∧
      (∀ x, ahead first next ≤ ahead first x → ahead first x < ahead first r.1 → x ∈ future) ∧
      r.2.1 ⊆ missing ∧ ∀ x ∈ missing, ahead first r.1 ≤ ahead first x → x ∈ r.2.1 := by
  induction fuel generalizing next missing future with
  | zero =>
      refine ⟨Nat.le_refl _, hnext, ?_, Finset.Subset.refl _, fun x hx _ => hx⟩
      intro x hge hlt
      exact absurd hlt (Nat.not_lt_of_le hge)
  | succ fuel ih =>
      rw [advanceLoop]
      split_ifs with hmem
      · have hle := hwindow next hmem
        have hone : ahead first (next + 1) = ahead first next + 1 := ahead_add_one (by omega)
        obtain ⟨hge, hbound, hpassed, hsub, hkept⟩ := ih (next + 1) (missing.erase next)
          (future.erase next) (fun x hx => hwindow x (Finset.mem_of_mem_erase hx)) (by omega)
        refine ⟨by omega, hbound, ?_, hsub.trans (Finset.erase_subset _ _), ?_⟩
        · intro x hxge hlt
          by_cases hx : x = next
          · exact hx ▸ hmem
          · have hne : ahead first x ≠ ahead first next := mt ahead_inj.mp hx
            exact Finset.mem_of_mem_erase (hpassed x (by omega) hlt)
        · intro x hx hxge
          refine hkept x (Finset.mem_erase.mpr ⟨?_, hx⟩) hxge
          rintro rfl
          omega
      · refine ⟨Nat.le_refl _, hnext, ?_, Finset.Subset.refl _, fun x hx _ => hx⟩
        intro x hge hlt
        exact absurd hlt (Nat.not_lt_of_le hge)

/-- The numbers received stay within the window. -/
lemma window_snoc (h : Covers first seen t expected) (hq : ahead first sequence ≤ 4096) :
    ∀ x ∈ seen ++ [sequence], ahead first x ≤ 4096 := by
  intro x hx
  rcases List.mem_append.mp hx with hx | hx
  · exact h.window x hx
  · exact List.mem_singleton.mp hx ▸ hq

/-- Every missing number stays below a received one. -/
lemma missing_snoc (h : Covers first seen t expected) {x : UInt32} (hx : x ∈ t.missing) :
    ∃ y ∈ seen ++ [sequence], ahead first x < ahead first y := by
  obtain ⟨y, hy, hlt⟩ := h.missing x hx
  exact ⟨y, List.mem_append_left _ hy, hlt⟩

/-- What lies below a number received earlier is missing or arrived. -/
lemma covered_snoc (h : Covers first seen t expected) {x y : UInt32} (hy : y ∈ seen)
    (hge : ahead first expected ≤ ahead first x) (hlt : ahead first x < ahead first y) :
    x ∈ t.missing ∨ x ∈ seen ++ [sequence] :=
  (h.covered y hy x hge hlt).imp_right fun hx => List.mem_append_left _ hx

/-- The expected number arrives. -/
lemma step_expected (h : Covers first seen t expected) (hq : ahead first sequence ≤ 4096)
    (heq : sequence = expected) :
    ∃ expected', Covers first (seen ++ [sequence]) (t.observe sequence).2 expected' := by
  obtain ⟨hnext, hmissing, hfuture⟩ :=
    observe_state h.nextExpected (place_expected h.nextExpected heq)
  have hone : ahead first (sequence + 1) = ahead first sequence + 1 := ahead_add_one (by omega)
  obtain ⟨hge, hbound, hpassed, hsub, hkept⟩ := advanceLoop_passed first t.futureReceived.card
    (sequence + 1) (t.missing.erase sequence) t.futureReceived
    (fun x hx => h.window x (h.future x hx)) (by omega)
  have hend := loopEndsWithin_card (sequence + 1) (t.missing.erase sequence) t.futureReceived
  have hafter := advanceLoop_future_subset t.futureReceived.card (sequence + 1)
    (t.missing.erase sequence) t.futureReceived
  refine ⟨_, h.window_snoc hq, hnext, hbound, ?_, ?_, ?_, ?_, ?_⟩
  · intro x hx
    by_cases hlt : ahead first x < ahead first expected
    · exact List.mem_append_left _ (h.settled x hlt)
    by_cases hxq : x = sequence
    · simp [hxq]
    · have hne : ahead first x ≠ ahead first sequence := mt ahead_inj.mp hxq
      rw [← heq] at hlt
      exact List.mem_append_left _ (h.future x (hpassed x (by omega) hx))
  · intro x hx
    rw [hfuture] at hx
    exact List.mem_append_left _ (h.future x (hafter hx))
  · rw [hfuture]
    exact hend
  · intro y hy x hxge hlt
    rcases List.mem_append.mp hy with hy | hy
    · refine (h.covered_snoc hy (by rw [← heq]; omega) hlt).imp_left fun hin => ?_
      rw [hmissing]
      refine hkept x (Finset.mem_erase.mpr ⟨?_, hin⟩) hxge
      rintro rfl
      omega
    · rw [List.mem_singleton.mp hy] at hlt
      omega
  · intro x hx
    rw [hmissing] at hx
    exact h.missing_snoc (Finset.mem_of_mem_erase (hsub hx))

/-- A missing number other than the expected one arrives. -/
lemma step_filled (h : Covers first seen t expected) (hq : ahead first sequence ≤ 4096)
    (hmem : sequence ∈ t.missing) (hne : sequence ≠ expected) :
    Covers first (seen ++ [sequence]) (t.observe sequence).2 expected := by
  obtain ⟨hnext, hmissing, hfuture⟩ :=
    observe_state h.nextExpected (place_filled h.nextExpected hmem hne)
  obtain ⟨above, habove, hbelow⟩ := h.missing sequence hmem
  refine ⟨h.window_snoc hq, hnext.trans h.nextExpected, h.expected_le,
    fun x hx => List.mem_append_left _ (h.settled x hx), ?_, ?_, ?_, ?_⟩
  · intro x hx
    exact List.mem_append_left _ (h.future x (hfuture ▸ hx))
  · rw [hfuture]
    exact h.expected_notMem
  · intro y hy x hge hlt
    -- what lies below the gap filler lies below the received number above the gap
    have hin : x ∈ t.missing ∨ x ∈ seen ++ [sequence] := by
      rcases List.mem_append.mp hy with hy | hy
      · exact h.covered_snoc hy hge hlt
      · rw [List.mem_singleton.mp hy] at hlt
        exact h.covered_snoc habove hge (by omega)
    by_cases hxq : x = sequence
    · simp [hxq]
    · rw [hmissing, Finset.mem_erase]
      exact hin.imp_left fun hin => ⟨hxq, hin⟩
  · intro x hx
    rw [hmissing] at hx
    exact h.missing_snoc (Finset.mem_of_mem_erase hx)

/-- A gap: the numbers from the expected one up to the number become missing. -/
lemma mem_missing_gap (h : Covers first seen t expected) (hq : ahead first sequence ≤ 4096)
    (hmem : sequence ∉ t.missing) (hforward : sequence - expected ≤ maxForward)
    (hne : sequence ≠ expected) (x : UInt32) :
    x ∈ (t.observe sequence).2.missing ↔ x ∈ t.missing ∨
      (ahead first expected ≤ ahead first x ∧ ahead first x < ahead first sequence) := by
  obtain ⟨-, hmissing, -⟩ :=
    observe_state h.nextExpected (place_gap h.nextExpected hmem hforward hne)
  have hle := (h.forward_iff hq).mp hforward
  have hgap : (min (sequence - expected) maxTrackedGap).toNat
      = ahead first sequence - ahead first expected := by
    have hdiff : (sequence - expected).toNat = ahead first sequence - ahead first expected :=
      ahead_of_le hle
    have hmax : maxTrackedGap.toNat = 4096 := rfl
    rw [UInt32.toNat_min, hdiff, hmax]
    omega
  have hlt := ahead_lt first sequence
  rw [hmissing]
  simp only []
  rw [hgap, mem_markMissing (by omega), Tracks.ahead_expected_lt_iff hle]

/-- A number ahead of the expected one arrives. -/
lemma step_gap (h : Covers first seen t expected) (hq : ahead first sequence ≤ 4096)
    (hmem : sequence ∉ t.missing) (hforward : sequence - expected ≤ maxForward)
    (hne : sequence ≠ expected) :
    Covers first (seen ++ [sequence]) (t.observe sequence).2 expected := by
  obtain ⟨hnext, hmissing, hfuture⟩ :=
    observe_state h.nextExpected (place_gap h.nextExpected hmem hforward hne)
  have hle := (h.forward_iff hq).mp hforward
  have hmiss := h.mem_missing_gap hq hmem hforward hne
  refine ⟨h.window_snoc hq, hnext.trans h.nextExpected, h.expected_le,
    fun x hx => List.mem_append_left _ (h.settled x hx), ?_, ?_, ?_, ?_⟩
  · intro x hx
    rw [hfuture] at hx
    rcases Finset.mem_insert.mp hx with rfl | hx
    · simp
    · exact List.mem_append_left _ (h.future x hx)
  · rw [hfuture, Finset.mem_insert, not_or]
    exact ⟨Ne.symm hne, h.expected_notMem⟩
  · intro y hy x hge hlt
    rw [hmiss]
    rcases List.mem_append.mp hy with hy | hy
    · exact (h.covered_snoc hy hge hlt).imp_left Or.inl
    · rw [List.mem_singleton.mp hy] at hlt
      exact Or.inl (Or.inr ⟨hge, hlt⟩)
  · intro x hx
    rcases (hmiss x).mp hx with hx | ⟨-, hlt⟩
    · exact h.missing_snoc hx
    · exact ⟨sequence, by simp, hlt⟩

/-- A number behind the expected one arrives again. -/
lemma step_behind (h : Covers first seen t expected) (hq : ahead first sequence ≤ 4096)
    (hmem : sequence ∉ t.missing) (hforward : ¬ sequence - expected ≤ maxForward) :
    Covers first (seen ++ [sequence]) (t.observe sequence).2 expected := by
  obtain ⟨hnext, hmissing, hfuture⟩ :=
    observe_state h.nextExpected (place_behind h.nextExpected hmem hforward)
  have hbehind : ahead first sequence < ahead first expected := by
    have hnot := mt (h.forward_iff hq).mpr hforward
    omega
  refine ⟨h.window_snoc hq, hnext.trans h.nextExpected, h.expected_le,
    fun x hx => List.mem_append_left _ (h.settled x hx), ?_, ?_, ?_, ?_⟩
  · intro x hx
    exact List.mem_append_left _ (h.future x (hfuture ▸ hx))
  · rw [hfuture]
    exact h.expected_notMem
  · intro y hy x hge hlt
    rw [hmissing]
    rcases List.mem_append.mp hy with hy | hy
    · exact h.covered_snoc hy hge hlt
    · rw [List.mem_singleton.mp hy] at hlt
      omega
  · intro x hx
    rw [hmissing] at hx
    exact h.missing_snoc hx

/-- **Every call within the window keeps the record.** -/
theorem step (h : Covers first seen t expected) (hq : ahead first sequence ≤ 4096) :
    ∃ expected', Covers first (seen ++ [sequence]) (t.observe sequence).2 expected' := by
  by_cases heq : sequence = expected
  · exact h.step_expected hq heq
  by_cases hmem : sequence ∈ t.missing
  · exact ⟨expected, h.step_filled hq hmem heq⟩
  by_cases hforward : sequence - expected ≤ maxForward
  · exact ⟨expected, h.step_gap hq hmem hforward heq⟩
  · exact ⟨expected, h.step_behind hq hmem hforward⟩

/-- The first call. -/
lemma observe_first (first : UInt32) : Covers first [first] (new.observe first).2 (first + 1) := by
  have hone : ahead first (first + 1) = 1 := by
    rw [ahead_add_one (by simp), ahead_self]
  refine ⟨by simp, rfl, by omega, ?_, ?_, Finset.notMem_empty _, ?_, ?_⟩
  · intro x hx
    have hzero : ahead first x = ahead first first := by
      rw [ahead_self]
      omega
    simp [ahead_inj.mp hzero]
  · intro x hx
    exact absurd hx (Finset.notMem_empty x)
  · intro y hy x hge hlt
    rw [List.mem_singleton.mp hy, ahead_self] at hlt
    exact absurd hlt (Nat.not_lt_zero _)
  · intro x hx
    exact absurd hx (Finset.notMem_empty x)

/-- It moves the cursor past its number. -/
lemma first_passed (first : UInt32) : ¬ (runState observe new [first]).NotPast first := by
  intro hnot
  have hone : ahead first (first + 1) = 1 := by
    rw [ahead_add_one (by simp), ahead_self]
  have hle := ((observe_first first).notPast_iff (by simp)).mp hnot
  rw [hone, ahead_self] at hle
  omega

/-- The record along a run. -/
theorem run {first : UInt32} {later : List UInt32}
    (hwindow : ∀ sequence ∈ later, ahead first sequence ≤ 4096) :
    ∃ expected, Covers first (first :: later) (runState observe new (first :: later)) expected := by
  induction later using List.reverseRecOn with
  | nil => exact ⟨_, observe_first first⟩
  | append_singleton past sequence ih =>
      obtain ⟨expected, h⟩ := ih fun x hx => hwindow x (List.mem_append_left _ hx)
      obtain ⟨expected', h'⟩ := h.step (hwindow sequence (by simp))
      rw [← List.cons_append, runState_snoc]
      exact ⟨expected', h'⟩

/-- The expected number moves the cursor past itself, and only what the cursor passes leaves
`missing`. -/
lemma observe_expected (h : Covers first seen t expected) (hq : ahead first sequence ≤ 4096)
    (heq : sequence = expected) :
    ∃ cursor, (t.observe sequence).2.nextExpected = some cursor ∧
      ahead first sequence < ahead first cursor ∧
      ∀ x, ahead first cursor ≤ ahead first x →
        (x ∈ (t.observe sequence).2.missing ↔ x ∈ t.missing) := by
  obtain ⟨hnext, hmissing, -⟩ := observe_state h.nextExpected (place_expected h.nextExpected heq)
  have hone : ahead first (sequence + 1) = ahead first sequence + 1 := ahead_add_one (by omega)
  obtain ⟨hge, -, -, hsub, hkept⟩ := advanceLoop_passed first t.futureReceived.card
    (sequence + 1) (t.missing.erase sequence) t.futureReceived
    (fun y hy => h.window y (h.future y hy)) (by omega)
  refine ⟨_, hnext, by omega, fun x hx => ?_⟩
  have hne : x ≠ sequence := by
    rintro rfl
    omega
  rw [hmissing]
  exact ⟨fun hin => Finset.mem_of_mem_erase (hsub hin),
    fun hin => hkept x (Finset.mem_erase.mpr ⟨hne, hin⟩) hx⟩

/-- The cursor only moves forward. -/
lemma notPast_of_step (h : Covers first seen t expected) (hq : ahead first sequence ≤ 4096)
    {x : UInt32} (hx : ahead first x ≤ 4096) (hnot : (t.observe sequence).2.NotPast x) :
    t.NotPast x := by
  obtain ⟨expected', h'⟩ := h.step hq
  rw [h'.notPast_iff hx] at hnot
  rw [h.notPast_iff hx]
  refine Nat.le_trans ?_ hnot
  have hnext' := h'.nextExpected
  by_cases heq : sequence = expected
  · obtain ⟨cursor, hnext, hlt, -⟩ := h.observe_expected hq heq
    cases hnext'.symm.trans hnext
    rw [← heq]
    exact Nat.le_of_lt hlt
  by_cases hmem : sequence ∈ t.missing
  · obtain ⟨hnext, -⟩ := observe_state h.nextExpected (place_filled h.nextExpected hmem heq)
    cases hnext'.symm.trans (hnext.trans h.nextExpected)
    exact Nat.le_refl _
  by_cases hforward : sequence - expected ≤ maxForward
  · obtain ⟨hnext, -⟩ :=
      observe_state h.nextExpected (place_gap h.nextExpected hmem hforward heq)
    cases hnext'.symm.trans (hnext.trans h.nextExpected)
    exact Nat.le_refl _
  · obtain ⟨hnext, -⟩ := observe_state h.nextExpected (place_behind h.nextExpected hmem hforward)
    cases hnext'.symm.trans (hnext.trans h.nextExpected)
    exact Nat.le_refl _

/-- A call that does not move `nextExpected` past its number fills a gap or opens one. -/
lemma fills_or_opens (h : Covers first seen t expected) (hq : ahead first sequence ≤ 4096)
    (hnot : (t.observe sequence).2.NotPast sequence) :
    t.FillsGap sequence ∨ t.OpensGap sequence := by
  have hbefore := (h.notPast_iff hq).mp (h.notPast_of_step hq hq hnot)
  by_cases heq : sequence = expected
  · obtain ⟨expected', h'⟩ := h.step hq
    obtain ⟨cursor, hnext, hlt, -⟩ := h.observe_expected hq heq
    rw [h'.notPast_iff hq] at hnot
    cases h'.nextExpected.symm.trans hnext
    omega
  by_cases hmem : sequence ∈ t.missing
  · refine Or.inl ⟨hmem, fun hsome => heq ?_⟩
    exact (Option.some.inj (h.nextExpected.symm.trans hsome)).symm
  · exact Or.inr ⟨expected, h.nextExpected, hmem, (h.forward_iff hq).mpr hbefore, heq⟩

/-- A gap is opened over the numbers between the cursor and the number received. -/
lemma opensGapOver_iff (h : Covers first seen t expected) (hq : ahead first sequence ≤ 4096)
    (hmem : sequence ∉ t.missing) (hforward : sequence - expected ≤ maxForward)
    (hne : sequence ≠ expected) {x : UInt32} (hx : ahead first expected ≤ ahead first x) :
    OpensGapOver x t sequence ↔ ahead first x < ahead first sequence := by
  have hle := (h.forward_iff hq).mp hforward
  have hlt : x - expected < sequence - expected ↔ ahead first x < ahead first sequence := by
    rw [UInt32.lt_iff_toNat_lt]
    change ahead expected x < ahead expected sequence ↔ _
    rw [ahead_of_le hx, ahead_of_le hle]
    omega
  rw [← hlt]
  constructor
  · rintro ⟨-, expected', he, hover⟩
    cases h.nextExpected.symm.trans he
    exact hover
  · exact fun hover => ⟨⟨expected, h.nextExpected, hmem, hforward, hne⟩, expected,
      h.nextExpected, hover⟩

/-- **What a call does to a missing number** that it does not move `nextExpected` past: it records
that the number arrived, or opens a gap over it. -/
lemma notMem_missing_step (h : Covers first seen t expected) (hq : ahead first sequence ≤ 4096)
    {x : UInt32} (hx : ahead first x ≤ 4096) (hnot : (t.observe sequence).2.NotPast x) :
    x ∉ (t.observe sequence).2.missing ↔
      (x ∉ t.missing ∨ sequence = x) ∧ ¬ OpensGapOver x t sequence := by
  have hbefore := (h.notPast_iff hx).mp (h.notPast_of_step hq hx hnot)
  have hclosed : ¬ t.OpensGap sequence → ¬ OpensGapOver x t sequence := fun hno hover => hno hover.1
  have hopens : t.OpensGap sequence → sequence ∉ t.missing ∧ sequence - expected ≤ maxForward ∧
      sequence ≠ expected := by
    rintro ⟨expected', he, hrest⟩
    cases h.nextExpected.symm.trans he
    exact hrest
  by_cases heq : sequence = expected
  · obtain ⟨expected', h'⟩ := h.step hq
    obtain ⟨cursor, hnext, hlt, hsame⟩ := h.observe_expected hq heq
    rw [h'.notPast_iff hx] at hnot
    cases h'.nextExpected.symm.trans hnext
    have hne : sequence ≠ x := by
      rintro rfl
      omega
    rw [hsame x hnot, or_iff_left hne, and_iff_left (hclosed fun hgap => (hopens hgap).2.2 heq)]
  by_cases hmem : sequence ∈ t.missing
  · obtain ⟨-, hmissing, -⟩ := observe_state h.nextExpected (place_filled h.nextExpected hmem heq)
    rw [hmissing, and_iff_left (hclosed fun hgap => (hopens hgap).1 hmem), Finset.mem_erase,
      not_and_or, not_not, or_comm, @eq_comm _ x]
  by_cases hforward : sequence - expected ≤ maxForward
  · rw [h.mem_missing_gap hq hmem hforward heq x,
      h.opensGapOver_iff hq hmem hforward heq hbefore, not_or]
    constructor
    · rintro ⟨hno, hnone⟩
      exact ⟨Or.inl hno, fun hlt => hnone ⟨hbefore, hlt⟩⟩
    · rintro ⟨hno | rfl, hnone⟩
      · exact ⟨hno, fun hin => hnone hin.2⟩
      · exact ⟨hmem, fun hin => hnone hin.2⟩
  · have hplace := place_behind h.nextExpected hmem hforward
    obtain ⟨-, hmissing, -⟩ := observe_state h.nextExpected hplace
    have hne : sequence ≠ x := by
      rintro rfl
      exact hforward ((h.forward_iff hq).mpr hbefore)
    rw [hmissing, or_iff_left hne, and_iff_left (hclosed fun hgap => hforward (hopens hgap).2.1)]

section Run

variable {later : List UInt32} {x : UInt32}

/-- The cursor only moves forward along a run. -/
lemma notPast_at_earlier (hwindow : ∀ y ∈ later, ahead first y ≤ 4096)
    (hx : ahead first x ≤ 4096) (hnot : (runState observe new (first :: later)).NotPast x)
    {mid : List UInt32} {y : UInt32} (hpre : mid ++ [y] <+: first :: later) :
    (runState observe new (mid ++ [y])).NotPast x := by
  induction later using List.reverseRecOn with
  | nil =>
      rcases List.prefix_concat_iff.mp (show mid ++ [y] <+: [] ++ [first] from hpre) with
        heq | hnil
      · rwa [heq]
      · exact absurd (List.prefix_nil.mp hnil) (by simp)
  | append_singleton past z ih =>
      have hpast : ∀ y ∈ past, ahead first y ≤ 4096 := fun y hy => hwindow y (by simp [hy])
      obtain ⟨cursor, h⟩ := Covers.run hpast
      rw [← List.cons_append] at hnot hpre
      rcases List.prefix_concat_iff.mp hpre with heq | hpre'
      · rwa [heq]
      · rw [runState_snoc] at hnot
        exact ih hpast (h.notPast_of_step (hwindow z (by simp)) hx hnot) hpre'

/-- **Which received numbers are not missing**: those over which no gap was opened since. -/
lemma received_notMem_missing_iff (hwindow : ∀ y ∈ later, ahead first y ≤ 4096)
    (hx : ahead first x ≤ 4096) (hnot : (runState observe new (first :: later)).NotPast x) :
    x ∈ first :: later ∧ x ∉ (runState observe new (first :: later)).missing ↔
      HeldSince observe new (first :: later) (fun _ sequence => sequence = x) (OpensGapOver x) := by
  induction later using List.reverseRecOn with
  | nil =>
      have hne : first ≠ x := by
        rintro rfl
        exact first_passed first hnot
      refine iff_of_false (fun hin => hne (List.mem_singleton.mp hin.1).symm) fun hheld => ?_
      rw [← List.nil_append [first]] at hheld
      rcases heldSince_snoc.mp hheld with ⟨hnil | heq, -⟩
      · exact not_heldSince_nil hnil
      · exact hne heq
  | append_singleton past z ih =>
      have hpast : ∀ y ∈ past, ahead first y ≤ 4096 := fun y hy => hwindow y (by simp [hy])
      have hz : ahead first z ≤ 4096 := hwindow z (by simp)
      obtain ⟨cursor, h⟩ := Covers.run hpast
      rw [← List.cons_append, runState_snoc] at hnot ⊢
      rw [heldSince_snoc, ← ih hpast (h.notPast_of_step hz hx hnot),
        h.notMem_missing_step hz hx hnot, List.mem_append, List.mem_singleton, @eq_comm _ x,
        ← and_assoc, and_or_right]

/-- **What is forgotten**: along a run within the window, the numbers that the calls left
unrecorded. -/
lemma forgets_iff {later : List UInt32} {x : UInt32}
    (hwindow : ∀ y ∈ later, ahead first y ≤ 4096) (hx : ahead first x ≤ 4096) :
    (runState observe new (first :: later)).Forgets (first :: later) x ↔
      LeftUnrecorded (first :: later) x := by
  have hearly : (runState observe new (first :: later)).NotPast x →
      (x ∈ (runState observe new (first :: later)).futureReceived ↔
        HappensAfter observe new [] (first :: later) fun t sequence =>
          sequence = x ∧ t.OpensGap x) := by
    intro hnot
    rw [mem_futureReceived_iff]
    constructor
    · rintro ⟨before, y, hpre, hopens, -⟩
      exact ⟨before, y, List.nil_prefix, hpre, hopens⟩
    · rintro ⟨before, y, -, hpre, hopens⟩
      refine ⟨before, y, hpre, hopens, ?_⟩
      rintro ⟨mid, z, -, hmid, hpasses⟩
      rw [Passes, ← runState_snoc] at hpasses
      exact hpasses (notPast_at_earlier hwindow hx hnot hmid)
  constructor
  · rintro ⟨expected, he, hseen, hforward, hmissing, hfuture⟩
    have hnot : (runState observe new (first :: later)).NotPast x := ⟨expected, he, hforward⟩
    rw [hearly hnot] at hfuture
    refine ⟨?_, hfuture, hnot⟩
    obtain ⟨before, y, hpre, rfl, hkept⟩ :=
      (received_notMem_missing_iff hwindow hx hnot).mp ⟨hseen, hmissing⟩
    have hafter := notPast_at_earlier hwindow hx hnot hpre
    refine ⟨before, y, hpre, ⟨rfl, ?_⟩, hkept⟩
    cases before with
    | nil =>
        obtain rfl := (List.cons_prefix_cons.mp hpre).1
        exact absurd hafter (first_passed y)
    | cons z before =>
        obtain ⟨rfl, htail⟩ := List.cons_prefix_cons.mp hpre
        obtain ⟨cursor, h⟩ := Covers.run fun v hv =>
          hwindow v (htail.subset (List.mem_append_left _ hv))
        rw [List.cons_append, ← List.cons_append, runState_snoc] at hafter
        refine (h.fills_or_opens hx hafter).resolve_right fun hopens => hfuture ?_
        exact ⟨z :: before, y, List.nil_prefix, hpre, rfl, hopens⟩
  · rintro ⟨⟨before, y, hpre, ⟨rfl, hfills⟩, hkept⟩, hearlier, hnot⟩
    obtain ⟨hseen, hmissing⟩ := (received_notMem_missing_iff hwindow hx hnot).mpr
      ⟨before, y, hpre, rfl, hkept⟩
    have hnot' := hnot
    obtain ⟨expected, he, hforward⟩ := hnot'
    exact ⟨expected, he, hseen, hforward, hmissing, mt (hearly hnot).mp hearlier⟩

end Run

end Covers

namespace SequenceTracker

/-- **When the flag is right.**  On every run of a fresh tracker within 4096 numbers ahead of the
first one, a call flags its number exactly when it was received before or a serially later one
was, unless and only unless the calls before it left the number unrecorded. -/
theorem observe_flag_exact_iff (first : UInt32) (later : List UInt32)
    (hwindow : ∀ sequence ∈ later, ahead first sequence ≤ 4096) :
    EveryStep observe new (first :: later) fun past t sequence =>
      t.FlagsExactly past sequence ↔ ¬ LeftUnrecorded past sequence := by
  intro past sequence hpre
  cases past with
  | nil =>
      refine iff_of_true ?_ ?_
      · simp [FlagsExactly, SeenOrPassed, observe, place, new]
      · rintro ⟨hfilled, -, -⟩
        exact not_heldSince_nil hfilled
  | cons x past =>
      rw [List.cons_append] at hpre
      obtain ⟨hx, htail⟩ := List.cons_prefix_cons.mp hpre
      subst hx
      have hpast : ∀ y ∈ past, ahead x y ≤ 4096 := fun y hy =>
        hwindow y (htail.subset (List.mem_append_left _ hy))
      have hq := hwindow sequence (htail.subset (by simp))
      obtain ⟨expected, h⟩ := Covers.run hpast
      rw [h.flagsExactly_iff hq, Covers.forgets_iff hpast hq]

/-- Of the numbers 11 and 12 between 10 and 13 the tracker sees 12, twice, and then 11: the calls
leave 12 unrecorded, but not 11. -/
theorem observe_flag_exact_iff_gap :
    LeftUnrecorded [10, 13, 12] 12 ∧ ¬ LeftUnrecorded [10, 13, 12, 12] 11 := by
  have hrun := observe_flag_exact_iff 10 [13, 12, 12, 11] (by simp [ahead])
  constructor
  · by_contra hno
    have hexact := (hrun [10, 13, 12] 12 ⟨[11], rfl⟩).mpr hno
    have hseen : SeenOrPassed [10, 13, 12] 12 := Or.inl (by simp)
    exact absurd (hexact.mpr hseen) (by decide)
  · refine (hrun [10, 13, 12, 12] 11 (List.prefix_refl _)).mp ?_
    have hpassed : SeenOrPassed [10, 13, 12, 12] 11 :=
      Or.inr ⟨13, by simp, by decide, by decide⟩
    exact iff_of_true (by decide) hpassed

/-- Of the numbers 11 and 12 between 10 and 13 the tracker sees 12, twice; the repetition is not
flagged. -/
theorem observe_misses_repeated :
    ¬ ∀ (first : UInt32) (later : List UInt32),
      (∀ sequence ∈ later, ahead first sequence ≤ 4096) →
        EveryStep observe new (first :: later) fun past t sequence =>
          t.FlagsExactly past sequence := by
  intro hall
  have hflag := hall 10 [13, 12, 12] (by simp [ahead]) [10, 13, 12] 12 (by simp)
  have hseen : SeenOrPassed [10, 13, 12] 12 := Or.inl (by simp)
  exact absurd (hflag.mpr hseen) (by decide)

end SequenceTracker

end RaptorFec
