import RaptorFec.Datagram.SequenceOffsets

/-!
# What permanent loss costs the sequence tracker

`futureReceived` is emptied only when `nextExpected` moves on, and a number that never arrives
keeps it from moving.  `MAX_TRACKED_GAP` limits how many values one call marks missing, not how
many it retains.

* `mem_futureReceived_step`, `mem_futureReceived_iff` — the tracker retains the numbers that opened
  a gap and that `nextExpected` has not moved past since;
* `futureReceived_bounded_iff` — the set stays within `MAX_TRACKED_GAP` along a run exactly when the
  run never has more such numbers;
* `futureReceived_afterLoss` — with one number lost, every later number is retained;
* `futureReceived_grows` — a run of 4098 numbers that exceeds the limit.
-/

namespace RaptorFec

namespace SequenceTracker

/-- The call takes the gap branch of `observe`: the number lies ahead of the expected one and is
not believed missing. -/
def OpensGap (t : SequenceTracker) (sequence : UInt32) : Prop :=
  ∃ expected, t.nextExpected = some expected ∧ sequence ∉ t.missing ∧
    sequence - expected ≤ maxForward ∧ sequence ≠ expected

/-- `nextExpected` has not moved past the number. -/
def NotPast (t : SequenceTracker) (x : UInt32) : Prop :=
  ∃ expected, t.nextExpected = some expected ∧ x - expected ≤ maxForward

/-- The call moves `nextExpected` past the number. -/
def Passes (x : UInt32) (t : SequenceTracker) (sequence : UInt32) : Prop :=
  ¬ (t.observe sequence).2.NotPast x

/-- The number was received in a call that opened a gap, and `nextExpected` has not moved past it
since. -/
def WaitsAhead (past : List UInt32) (x : UInt32) : Prop :=
  HeldSince observe new past (fun t sequence => sequence = x ∧ t.OpensGap x) (Passes x)

section Step

variable {t : SequenceTracker} {expected sequence x : UInt32}

lemma le_maxForward_iff : x - expected ≤ maxForward ↔ ahead expected x < 2 ^ 31 := by
  have hmax : maxForward.toNat = 2 ^ 31 - 1 := rfl
  rw [UInt32.le_iff_toNat_le, hmax, ahead]
  omega

/-- Moving the cursor past a number puts the number behind it. -/
lemma ahead_lt_iff {base cursor : UInt32} (hcursor : ahead base cursor ≤ 2 ^ 31)
    (hpos : 1 ≤ ahead base x) (hx : ahead base x < 2 ^ 31) :
    ahead cursor x < 2 ^ 31 ↔ ahead base cursor ≤ ahead base x := by
  rcases Nat.lt_or_ge (ahead base x) (ahead base cursor) with hlt | hge
  · rw [ahead_of_lt hlt]
    omega
  · rw [ahead_of_le hge]
    omega

lemma notPast_iff (he : t.nextExpected = some expected) :
    t.NotPast x ↔ ahead expected x < 2 ^ 31 := by
  rw [← le_maxForward_iff]
  constructor
  · rintro ⟨expected', he', hforward⟩
    cases he.symm.trans he'
    exact hforward
  · exact fun hforward => ⟨expected, he, hforward⟩

/-- `advance_expected` only removes numbers. -/
lemma advanceLoop_future_subset (fuel : ℕ) (next : UInt32) (missing future : Finset UInt32) :
    (advanceLoop fuel next missing future).2.2 ⊆ future := by
  induction fuel generalizing next missing future with
  | zero => simp [advanceLoop]
  | succ fuel ih =>
      rw [advanceLoop]
      split_ifs with hnext
      · exact (ih _ _ _).trans (Finset.erase_subset _ _)
      · simp

/-- Of numbers ahead of the cursor, the loop of `advance_expected` removes those it passes. -/
lemma mem_advanceLoop_future (base : UInt32) (fuel : ℕ) (next : UInt32)
    (missing future : Finset UInt32) (hfuel : future.card ≤ fuel) (hnext : ahead base next ≤ 2 ^ 31)
    (hwindow : ∀ x ∈ future, ahead base next ≤ ahead base x ∧ ahead base x < 2 ^ 31) :
    let r := advanceLoop fuel next missing future
    ahead base next ≤ ahead base r.1 ∧ ahead base r.1 ≤ 2 ^ 31 ∧
      ∀ x ∈ future, x ∈ r.2.2 ↔ ahead base r.1 ≤ ahead base x := by
  induction fuel generalizing next missing future with
  | zero => exact ⟨Nat.le_refl _, hnext, fun x hx => iff_of_true hx (hwindow x hx).1⟩
  | succ fuel ih =>
      rw [advanceLoop]
      split_ifs with hmem
      · have hone : ahead base (next + 1) = ahead base next + 1 :=
          ahead_add_one (by omega)
        have hlt := (hwindow next hmem).2
        have hrest : ∀ x ∈ future.erase next, ahead base (next + 1) ≤ ahead base x ∧
            ahead base x < 2 ^ 31 := by
          intro x hx
          obtain ⟨hne, hx⟩ := Finset.mem_erase.mp hx
          obtain ⟨hge, hle⟩ := hwindow x hx
          have hother : ahead base x ≠ ahead base next := mt ahead_inj.mp hne
          exact ⟨by omega, hle⟩
        obtain ⟨hge, hbound, hkept⟩ := ih (next + 1) (missing.erase next) (future.erase next)
          (by rw [Finset.card_erase_of_mem hmem]; omega) (by omega) hrest
        refine ⟨by omega, hbound, fun x hx => ?_⟩
        by_cases hx' : x = next
        · refine iff_of_false (fun hin => ?_) (by rw [hx']; omega)
          have hrest := advanceLoop_future_subset _ _ _ _ hin
          rw [hx'] at hrest
          exact Finset.notMem_erase next future hrest
        · exact hkept x (Finset.mem_erase.mpr ⟨hx', hx⟩)
      · exact ⟨Nat.le_refl _, hnext, fun x hx => iff_of_true hx (hwindow x hx).1⟩

/-- The expected number drops those received early that the call passes. -/
lemma mem_futureReceived_expected (he : t.nextExpected = some expected)
    (h : Offsets expected t.missing t.futureReceived) (heq : sequence = expected) :
    x ∈ (t.observe sequence).2.futureReceived ↔
      x ∈ t.futureReceived ∧ (t.observe sequence).2.NotPast x := by
  obtain ⟨hnext, -, hfuture⟩ := observe_state he (place_expected he heq)
  have hone : ahead expected (sequence + 1) = 1 := by
    rw [heq, ahead_add_one (by simp), ahead_self]
  obtain ⟨-, hbound, hkept⟩ := mem_advanceLoop_future expected t.futureReceived.card
    (sequence + 1) (t.missing.erase sequence) t.futureReceived (Nat.le_refl _) (by omega)
    fun y hy => by
      obtain ⟨hpos, hle⟩ := h.future y hy
      exact ⟨by omega, by omega⟩
  rw [hfuture, notPast_iff hnext]
  by_cases hx : x ∈ t.futureReceived
  · obtain ⟨hpos, hle⟩ := h.future x hx
    rw [iff_true_intro hx, true_and]
    exact (hkept x hx).trans (ahead_lt_iff hbound hpos (by omega)).symm
  · exact iff_of_false (fun hin => hx (advanceLoop_future_subset _ _ _ _ hin)) fun h => hx h.1

/-- What is received early lies ahead of the cursor. -/
lemma WithinOffsets.notPast (h : t.WithinOffsets) (hx : x ∈ t.futureReceived) : t.NotPast x := by
  cases hexpected : t.nextExpected with
  | none =>
      rw [WithinOffsets, hexpected] at h
      rw [h.2] at hx
      exact absurd hx (Finset.notMem_empty x)
  | some expected =>
      rw [WithinOffsets, hexpected] at h
      have hle := (h.future x hx).2
      exact (notPast_iff hexpected).mpr (by omega)

/-- **What a call does to the numbers received early**: it adds its own number if that opens a gap,
and drops those that it passes. -/
theorem mem_futureReceived_step (h : t.WithinOffsets) (sequence x : UInt32) :
    x ∈ (t.observe sequence).2.futureReceived ↔
      (x ∈ t.futureReceived ∨ (sequence = x ∧ t.OpensGap x)) ∧ ¬ Passes x t sequence := by
  rw [Passes, not_not]
  have hahead : x ∈ (t.observe sequence).2.futureReceived →
      (t.observe sequence).2.NotPast x := (h.step sequence).notPast
  have hopens : ∀ expected, t.nextExpected = some expected →
      (sequence = x ∧ t.OpensGap x ↔ sequence = x ∧ x ∉ t.missing ∧
        x - expected ≤ maxForward ∧ x ≠ expected) := by
    intro expected he
    refine and_congr_right fun _ => ⟨?_, fun hrest => ⟨expected, he, hrest⟩⟩
    rintro ⟨expected', he', hrest⟩
    cases he.symm.trans he'
    exact hrest
  cases hexpected : t.nextExpected with
  | none =>
      rw [WithinOffsets, hexpected] at h
      have hfuture : (t.observe sequence).2.futureReceived = ∅ := by
        simp [observe, place, hexpected, h.2]
      rw [hfuture, h.2]
      refine iff_of_false (Finset.notMem_empty x) ?_
      rintro ⟨hin | ⟨-, expected, hsome, -⟩, -⟩
      · exact Finset.notMem_empty x hin
      · rw [hexpected] at hsome
        cases hsome
  | some expected =>
      rw [hopens expected hexpected]
      rw [WithinOffsets, hexpected] at h
      by_cases heq : sequence = expected
      · rw [mem_futureReceived_expected hexpected h heq, or_iff_left]
        rintro ⟨rfl, -, -, hne⟩
        exact hne heq
      by_cases hmem : sequence ∈ t.missing
      · obtain ⟨-, -, hfuture⟩ := observe_state hexpected (place_filled hexpected hmem heq)
        rw [hfuture] at hahead ⊢
        constructor
        · exact fun hin => ⟨Or.inl hin, hahead hin⟩
        · rintro ⟨hin | ⟨rfl, hnot, -⟩, -⟩
          · exact hin
          · exact absurd hmem hnot
      by_cases hforward : sequence - expected ≤ maxForward
      · obtain ⟨-, -, hfuture⟩ := observe_state hexpected (place_gap hexpected hmem hforward heq)
        rw [hfuture] at hahead ⊢
        constructor
        · intro hin
          refine ⟨?_, hahead hin⟩
          rcases Finset.mem_insert.mp hin with rfl | hin'
          · exact Or.inr ⟨rfl, hmem, hforward, heq⟩
          · exact Or.inl hin'
        · rintro ⟨hin | ⟨rfl, -⟩, -⟩
          · exact Finset.mem_insert_of_mem hin
          · exact Finset.mem_insert_self _ _
      · obtain ⟨-, -, hfuture⟩ := observe_state hexpected (place_behind hexpected hmem hforward)
        rw [hfuture] at hahead ⊢
        constructor
        · exact fun hin => ⟨Or.inl hin, hahead hin⟩
        · rintro ⟨hin | ⟨rfl, -, hforward', -⟩, -⟩
          · exact hin
          · exact absurd hforward' hforward

end Step

/-- **What a tracker retains**: the numbers that wait ahead of `nextExpected`. -/
theorem mem_futureReceived_iff (past : List UInt32) (x : UInt32) :
    x ∈ (runState observe new past).futureReceived ↔ WaitsAhead past x :=
  held_iff_of WithinOffsets (fun t : SequenceTracker => x ∈ t.futureReceived)
    (fun t sequence => sequence = x ∧ t.OpensGap x) (Passes x)
    (by simp [WithinOffsets, new]) (fun t sequence h => h.step sequence)
    (Finset.notMem_empty x) (fun t sequence h => mem_futureReceived_step h sequence x) past

/-- The number after `first` is awaited, and `count` numbers behind it are retained. -/
structure Awaits (first : UInt32) (count : ℕ) (t : SequenceTracker) : Prop where
  nextExpected : t.nextExpected = some (first + 1)
  missing : ∀ x ∈ t.missing, ahead first x < count + 2
  future : ∀ x ∈ t.futureReceived, ahead first x < count + 2
  card : t.futureReceived.card = count

/-- The next number in order is retained too. -/
lemma Awaits.step {first : UInt32} {count : ℕ} {t : SequenceTracker} (h : Awaits first count t)
    (hcount : count + 2 ≤ 2 ^ 31) :
    Awaits first (count + 1) (t.observe (first + UInt32.ofNat (count + 2))).2 := by
  have hone : ahead first (first + 1) = 1 := by
    rw [ahead_add_one (by simp), ahead_self]
  have hahead : ahead first (first + UInt32.ofNat (count + 2)) = count + 2 :=
    ahead_add_ofNat (by omega)
  generalize first + UInt32.ofNat (count + 2) = sequence at hahead
  have hgap : ahead (first + 1) sequence = count + 1 := by
    have hle : ahead first (first + 1) ≤ ahead first sequence := by omega
    rw [ahead_of_le hle]
    omega
  have hne : sequence ≠ first + 1 := by
    rintro rfl
    omega
  have hmissing : sequence ∉ t.missing := fun hmem => by
    have := h.missing _ hmem
    omega
  have hfuture : sequence ∉ t.futureReceived := fun hmem => by
    have := h.future _ hmem
    omega
  have hforward : sequence - (first + 1) ≤ maxForward := by
    rw [UInt32.le_iff_toNat_le]
    change ahead (first + 1) sequence ≤ 0x7fffffff
    omega
  obtain ⟨hnext', hmissing', hfuture'⟩ :=
    observe_state h.nextExpected (place_gap h.nextExpected hmissing hforward hne)
  refine ⟨hnext'.trans h.nextExpected, ?_, ?_, ?_⟩
  · intro x hx
    have hmin : (min (sequence - (first + 1)) maxTrackedGap).toNat ≤ count + 1 := by
      rw [← hgap, ahead, ← UInt32.le_iff_toNat_le]
      change (if _ ≤ _ then _ else _) ≤ _
      split_ifs with hle
      · exact UInt32.le_refl _
      · exact (UInt32.le_total _ _).resolve_left hle
    rw [hmissing', mem_markMissing (UInt32.toNat_lt _)] at hx
    rcases hx with hx | hx
    · have := h.missing x hx
      omega
    · rcases Nat.eq_zero_or_pos (ahead first x) with hzero | hpos
      · omega
      · have hle : ahead first (first + 1) ≤ ahead first x := by omega
        rw [ahead_of_le hle] at hx
        omega
  · intro x hx
    rw [hfuture', Finset.mem_insert] at hx
    rcases hx with rfl | hx
    · omega
    · have := h.future x hx
      omega
  · rw [hfuture', Finset.card_insert_of_notMem hfuture, h.card]

end SequenceTracker

end RaptorFec
