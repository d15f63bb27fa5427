import RaptorFec.Datagram.SequenceTracker

/-!
# Where the tracked numbers lie

`missing` and `futureReceived` are read relative to `nextExpected`, which moves and wraps.  This
file bounds the offsets of their members from it, for arbitrary 32-bit numbers in any order: a
missing one is less than `MAX_TRACKED_GAP` ahead, a number received early is ahead by at least one
and at most `i32::MAX`.

`Offsets.advance` is the reason: moving the cursor past a number drops that number from both
collections and brings every other one closer by one, so no offset ever grows or wraps.
-/

namespace RaptorFec

namespace SequenceTracker

/-- The members of the two collections are ahead of `expected`, within their bounds. -/
structure Offsets (expected : UInt32) (missing future : Finset UInt32) : Prop where
  missing : ∀ x ∈ missing, ahead expected x ≤ 4095
  future : ∀ x ∈ future, 1 ≤ ahead expected x ∧ ahead expected x ≤ 2 ^ 31 - 1

/-- The tracker keeps `Offsets` from its own cursor; before the first call it tracks nothing. -/
def WithinOffsets (t : SequenceTracker) : Prop :=
  match t.nextExpected with
  | none => t.missing = ∅ ∧ t.futureReceived = ∅
  | some expected => Offsets expected t.missing t.futureReceived

/-- The `while` loop of `advance_expected` is over after `rounds` rounds: its condition fails in
the state they leave. -/
def LoopEndsWithin (rounds : ℕ) (next : UInt32) (missing future : Finset UInt32) : Prop :=
  let r := advanceLoop rounds next missing future
  r.1 ∉ r.2.2

section Loop

/-- The loop takes a member out of `future` in each round, so it has as many rounds at most as
`future` has members. -/
lemma loopEndsWithin_card (next : UInt32) (missing future : Finset UInt32) :
    LoopEndsWithin future.card next missing future := by
  induction hcard : future.card generalizing next missing future with
  | zero =>
      rw [Finset.card_eq_zero] at hcard
      simp [LoopEndsWithin, advanceLoop, hcard]
  | succ count ih =>
      rw [LoopEndsWithin, advanceLoop]
      by_cases hnext : next ∈ future
      · simp only [hnext, if_true]
        refine ih (next + 1) (missing.erase next) (future.erase next) ?_
        rw [Finset.card_erase_of_mem hnext, hcard]
        simp
      · simp [hnext]

/-- Further rounds do nothing once the loop is over. -/
lemma advanceLoop_of_endsWithin {rounds : ℕ} {next : UInt32} {missing future : Finset UInt32}
    (h : LoopEndsWithin rounds next missing future) {fuel : ℕ} (hfuel : rounds ≤ fuel) :
    advanceLoop fuel next missing future = advanceLoop rounds next missing future := by
  induction rounds generalizing next missing future fuel with
  | zero =>
      have hnext : next ∉ future := by simpa [LoopEndsWithin, advanceLoop] using h
      cases fuel with
      | zero => rfl
      | succ fuel => simp [advanceLoop, hnext]
  | succ rounds ih =>
      cases fuel with
      | zero => exact absurd hfuel (by simp)
      | succ fuel =>
          by_cases hnext : next ∈ future
          · simp only [LoopEndsWithin, advanceLoop, hnext, if_true] at h ⊢
            exact ih h (Nat.le_of_succ_le_succ hfuel)
          · simp [advanceLoop, hnext]

/-- One round: a number that is not the cursor comes closer by one. -/
lemma ahead_passed {next x : UInt32} (hne : x ≠ next) : ahead (next + 1) x + 1 = ahead next x := by
  have hpos : 0 < ahead next x := by
    rcases Nat.eq_zero_or_pos (ahead next x) with hzero | hpos
    · exact absurd (ahead_inj.mp (hzero.trans (ahead_self next).symm)) hne
    · exact hpos
  have hone : ahead next (next + 1) = 1 := by
    rw [ahead_add_one (by simp), ahead_self]
  have hle : ahead next (next + 1) ≤ ahead next x := by omega
  rw [ahead_of_le hle, hone]
  omega

/-- While the loop runs, the cursor itself may still be among the numbers received early; it ends
with a cursor that is not. -/
lemma offsets_advanceLoop (fuel : ℕ) {next : UInt32} {missing future : Finset UInt32}
    (hmissing : ∀ x ∈ missing, ahead next x ≤ 4095)
    (hfuture : ∀ x ∈ future, ahead next x ≤ 2 ^ 31 - 1)
    (hend : LoopEndsWithin fuel next missing future) :
    let r := advanceLoop fuel next missing future
    Offsets r.1 r.2.1 r.2.2 := by
  induction fuel generalizing next missing future with
  | zero =>
      simp only [LoopEndsWithin, advanceLoop] at hend ⊢
      refine ⟨hmissing, ?_⟩
      intro x hx
      have hne : x ≠ next := by
        rintro rfl
        exact hend hx
      have hpassed := ahead_passed hne
      exact ⟨by omega, hfuture x hx⟩
  | succ fuel ih =>
      by_cases hnext : next ∈ future
      · simp only [LoopEndsWithin, advanceLoop, hnext, if_true] at hend ⊢
        refine ih ?_ ?_ hend
        · intro x hx
          obtain ⟨hne, hx⟩ := Finset.mem_erase.mp hx
          have hpassed := ahead_passed hne
          have hle := hmissing x hx
          omega
        · intro x hx
          obtain ⟨hne, hx⟩ := Finset.mem_erase.mp hx
          have hpassed := ahead_passed hne
          have hle := hfuture x hx
          omega
      · simp only [advanceLoop, hnext, if_false]
        refine ⟨hmissing, ?_⟩
        intro x hx
        have hne : x ≠ next := by
          rintro rfl
          exact hnext hx
        have hpassed := ahead_passed hne
        exact ⟨by omega, hfuture x hx⟩

end Loop

namespace Offsets

variable {expected : UInt32} {missing future : Finset UInt32}

/-- `advance_expected` at the cursor. -/
lemma advance (h : Offsets expected missing future) :
    let r := advanceLoop future.card (expected + 1) (missing.erase expected) future
    Offsets r.1 r.2.1 r.2.2 := by
  refine offsets_advanceLoop _ ?_ ?_ (loopEndsWithin_card _ _ _)
  · intro x hx
    obtain ⟨hne, hx⟩ := Finset.mem_erase.mp hx
    have hpassed := ahead_passed hne
    have hle := h.missing x hx
    omega
  · intro x hx
    obtain ⟨hpos, hle⟩ := h.future x hx
    have hne : x ≠ expected := by
      rintro rfl
      rw [ahead_self] at hpos
      omega
    have hpassed := ahead_passed hne
    omega

/-- A gap: at most `MAX_TRACKED_GAP` numbers from the cursor on become missing, and the number
behind them is received early. -/
lemma gap (h : Offsets expected missing future) {sequence : UInt32}
    (hforward : sequence - expected ≤ maxForward) (hne : sequence ≠ expected) :
    Offsets expected
      (markMissing (min (sequence - expected) maxTrackedGap).toNat expected missing)
      (insert sequence future) := by
  refine ⟨?_, ?_⟩
  · intro x hx
    rw [mem_markMissing (UInt32.toNat_lt _), UInt32.toNat_min] at hx
    have hgap : maxTrackedGap.toNat = 4096 := rfl
    rcases hx with hx | hx
    · exact h.missing x hx
    · omega
  · intro x hx
    rcases Finset.mem_insert.mp hx with rfl | hx
    · have hpassed := ahead_passed hne
      have hle : ahead expected x ≤ 2 ^ 31 - 1 := UInt32.le_iff_toNat_le.mp hforward
      omega
    · exact h.future x hx

/-- The bound on the offsets bounds the number of missing values. -/
lemma card_missing_le (h : Offsets expected missing future) : missing.card ≤ 4096 := by
  have hle : missing.card ≤ (Finset.range 4096).card := by
    refine Finset.card_le_card_of_injOn (ahead expected) ?_ ?_
    · intro x hx
      have hle := h.missing x hx
      exact Finset.mem_coe.mpr (Finset.mem_range.mpr (by omega))
    · intro x _ y _ hxy
      exact ahead_inj.mp hxy
  rwa [Finset.card_range] at hle

end Offsets

/-! ## Along a run -/

/-- **One call keeps the offsets**, whichever branch it takes. -/
theorem WithinOffsets.step {t : SequenceTracker} (h : t.WithinOffsets) (sequence : UInt32) :
    (t.observe sequence).2.WithinOffsets := by
  cases hexpected : t.nextExpected with
  | none =>
      rw [WithinOffsets, hexpected] at h
      have hstate : (t.observe sequence).2.nextExpected = some (sequence + 1) ∧
          (t.observe sequence).2.missing = t.missing ∧
          (t.observe sequence).2.futureReceived = t.futureReceived := by
        simp [observe, place, hexpected]
      rw [WithinOffsets, hstate.1]
      refine ⟨?_, ?_⟩
      · simp [hstate.2.1, h.1]
      · simp [hstate.2.2, h.2]
  | some expected =>
      rw [WithinOffsets, hexpected] at h
      by_cases heq : sequence = expected
      · obtain ⟨hnext, hmissing, hfuture⟩ :=
          observe_state hexpected (place_expected hexpected heq)
        rw [WithinOffsets, hnext, hmissing, hfuture, heq]
        exact h.advance
      by_cases hmem : sequence ∈ t.missing
      · obtain ⟨hnext, hmissing, hfuture⟩ :=
          observe_state hexpected (place_filled hexpected hmem heq)
        rw [WithinOffsets, hnext, hmissing, hfuture, hexpected]
        exact ⟨fun x hx => h.missing x (Finset.mem_of_mem_erase hx), h.future⟩
      by_cases hforward : sequence - expected ≤ maxForward
      · obtain ⟨hnext, hmissing, hfuture⟩ :=
          observe_state hexpected (place_gap hexpected hmem hforward heq)
        rw [WithinOffsets, hnext, hmissing, hfuture, hexpected]
        exact h.gap hforward heq
      · obtain ⟨hnext, hmissing, hfuture⟩ :=
          observe_state hexpected (place_behind hexpected hmem hforward)
        rw [WithinOffsets, hnext, hmissing, hfuture, hexpected]
        exact h

lemma withinOffsets_run (sequences : List UInt32) :
    (runState observe new sequences).WithinOffsets := by
  refine run_invariant_all (fun _ (t : SequenceTracker) => t.WithinOffsets) ?_ ?_ sequences
  · simp [WithinOffsets, new]
  · intro _ t sequence h
    exact h.step sequence

/-- The size of `missing` is bounded in every state that keeps the offsets. -/
lemma WithinOffsets.card_missing_le {t : SequenceTracker} (h : t.WithinOffsets) :
    t.missing.card ≤ 4096 := by
  cases hexpected : t.nextExpected with
  | none =>
      rw [WithinOffsets, hexpected] at h
      simp [h.1]
  | some expected =>
      rw [WithinOffsets, hexpected] at h
      exact h.card_missing_le

/-- `stats().missing` is the size of `missing`, from the first call on and before it. -/
lemma stats_missing_run (sequences : List UInt32) :
    (runState observe new sequences).stats.missing
      = UInt64.ofNat (runState observe new sequences).missing.card := by
  cases sequences using List.reverseRecOn with
  | nil => rfl
  | append_singleton past sequence =>
      rw [runState_snoc]
      exact observe_missing _ _

/-- What the offsets say of a tracker without a cursor of their own: the two collections, the count
that is reported, and the loop of the next call. -/
structure TracksAhead (t : SequenceTracker) : Prop where
  missing_le : ∀ x ∈ t.missing, ∃ expected, t.nextExpected = some expected ∧
    ahead expected x ≤ 4095
  future_le : ∀ x ∈ t.futureReceived, ∃ expected, t.nextExpected = some expected ∧
    1 ≤ ahead expected x ∧ ahead expected x ≤ 2 ^ 31 - 1
  reported_le : t.stats.missing.toNat ≤ 4096
  /-- The loop is over after as many rounds as numbers were received early. -/
  loop_ends : ∀ sequence, LoopEndsWithin t.futureReceived.card (sequence + 1)
    (t.missing.erase sequence) t.futureReceived
  /-- More rounds change nothing. -/
  loop_stays : ∀ sequence, ∀ fuel ≥ t.futureReceived.card,
    advanceLoop fuel (sequence + 1) (t.missing.erase sequence) t.futureReceived
      = advanceLoop t.futureReceived.card (sequence + 1) (t.missing.erase sequence)
        t.futureReceived

/-- **Where the tracked numbers lie, along every run.**  Whatever numbers a fresh tracker
observes, a missing one is at most 4095 ahead of `nextExpected` and one received early at least 1
and at most `i32::MAX` ahead of it; so at most 4096 are reported missing, and the loop of a next
call ends within as many rounds as numbers were received early. -/
theorem observe_offsets (sequences : List UInt32) :
    (runState observe new sequences).TracksAhead := by
  set t := runState observe new sequences
  have h : t.WithinOffsets := withinOffsets_run sequences
  constructor
  case missing_le =>
    intro x hx
    cases hexpected : t.nextExpected with
    | none =>
        rw [WithinOffsets, hexpected] at h
        simp [h.1] at hx
    | some expected =>
        rw [WithinOffsets, hexpected] at h
        exact ⟨expected, rfl, h.missing x hx⟩
  case future_le =>
    intro x hx
    cases hexpected : t.nextExpected with
    | none =>
        rw [WithinOffsets, hexpected] at h
        simp [h.2] at hx
    | some expected =>
        rw [WithinOffsets, hexpected] at h
        exact ⟨expected, rfl, h.future x hx⟩
  case reported_le =>
    have hcard := h.card_missing_le
    have hreported : t.stats.missing = UInt64.ofNat t.missing.card := stats_missing_run sequences
    rw [hreported, UInt64.toNat_ofNat_of_lt' (card_lt _)]
    exact hcard
  case loop_ends =>
    intro sequence
    exact loopEndsWithin_card (sequence + 1) (t.missing.erase sequence) t.futureReceived
  case loop_stays =>
    intro sequence fuel hfuel
    exact advanceLoop_of_endsWithin
      (loopEndsWithin_card (sequence + 1) (t.missing.erase sequence) t.futureReceived) hfuel

end SequenceTracker

end RaptorFec
