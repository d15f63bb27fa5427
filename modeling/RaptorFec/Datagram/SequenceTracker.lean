import Mathlib.Data.Finset.Card
import Mathlib.Data.Finset.Image
import Mathlib.Order.Interval.Finset.Nat
import RaptorFec.Library.Runs
import RaptorFec.Library.Words

/-!
# The sequence tracker

`SequenceTracker` turns the packet sequence numbers of a flow into loss statistics.  Its state is
split in three: `nextExpected`, the numbers believed `missing`, and the numbers received ahead of
`nextExpected` (`futureReceived`).

**What `missing` counts.**  `observe_missing_exact_iff` compares `stats.missing` with the number
of values between the first and the highest one that were never received.  The two agree after
every call exactly as long as no call *jumps over* a value it has already seen: the gap branch
marks the whole stretch from `nextExpected` up to the new value as missing, received or not.
-/

namespace RaptorFec

/-- How many values of one gap are recorded as missing. -/
def maxTrackedGap : UInt32 := 4096

/-- `i32::MAX as u32`: a difference up to here counts as forward. -/
def maxForward : UInt32 := 0x7fffffff

structure SequenceObservation where
  sequence : UInt32
  expected : UInt32
  missingBefore : UInt32
  duplicateOrReordered : Bool
  deriving DecidableEq, Repr

structure SequenceStats where
  received : UInt64 := 0
  missing : UInt64 := 0
  duplicateOrReordered : UInt64 := 0
  highestSeen : Option UInt32 := none
  deriving DecidableEq, Repr

structure SequenceTracker where
  nextExpected : Option UInt32 := none
  missing : Finset UInt32 := ∅
  futureReceived : Finset UInt32 := ∅
  stats : SequenceStats := {}
  deriving DecidableEq

namespace SequenceTracker

/-- `SequenceTracker::new`. -/
def new : SequenceTracker := {}

/-- The loop of `advance_expected`: while `next` was received early, drop it from both sets and
move on.  Each round removes one member of `future`, so `future.card` rounds are enough. -/
def advanceLoop : ℕ → UInt32 → Finset UInt32 → Finset UInt32 →
    UInt32 × Finset UInt32 × Finset UInt32
  | 0, next, missing, future => (next, missing, future)
  | fuel + 1, next, missing, future =>
      if next ∈ future then
        advanceLoop fuel (next + 1) (missing.erase next) (future.erase next)
      else (next, missing, future)

/-- `SequenceTracker::advance_expected`. -/
def advanceExpected (t : SequenceTracker) (sequence : UInt32) : SequenceTracker :=
  let r := advanceLoop t.futureReceived.card (sequence + 1) (t.missing.erase sequence)
    t.futureReceived
  { t with nextExpected := some r.1, missing := r.2.1, futureReceived := r.2.2 }

/-- The gap loop of `observe`: insert `count` consecutive values from `value` on. -/
def markMissing : ℕ → UInt32 → Finset UInt32 → Finset UInt32
  | 0, _, missing => missing
  | count + 1, value, missing => markMissing count (value + 1) (insert value missing)

/-- The update of `stats.highest_seen`. -/
def highestAfter (highest : Option UInt32) (sequence : UInt32) : UInt32 :=
  match highest with
  | none => sequence
  | some highest => if sequence - highest ≤ maxForward then sequence else highest

/-- The branch of `observe` that updates the three sets; the flag says that this branch found the
value to be a duplicate or reordered. -/
def place (t : SequenceTracker) (sequence expected diff : UInt32) (forward : Bool) :
    Bool × SequenceTracker :=
  if t.nextExpected = none then
    (false, { t with nextExpected := some (sequence + 1) })
  else if sequence ∈ t.missing then
    let t := { t with missing := t.missing.erase sequence }
    (true, if sequence = expected then t.advanceExpected sequence else t)
  else if forward then
    if diff = 0 then
      (false, t.advanceExpected sequence)
    else
      (decide (sequence ∈ t.futureReceived),
        { t with
          missing := markMissing (min diff maxTrackedGap).toNat expected t.missing
          futureReceived := insert sequence t.futureReceived })
  else
    (false, t)

/-- `SequenceTracker::observe`. -/
def observe (t : SequenceTracker) (sequence : UInt32) : SequenceObservation × SequenceTracker :=
  let expected := t.nextExpected.getD sequence
  let diff := sequence - expected
  let forward := t.nextExpected.isNone || decide (diff ≤ maxForward)
  let stats := { t.stats with
    received := satAdd t.stats.received 1
    highestSeen := some (highestAfter t.stats.highestSeen sequence) }
  let r := place { t with stats } sequence expected diff forward
  let duplicateOrReordered := !forward || r.1
  let stats := { r.2.stats with
    missing := UInt64.ofNat r.2.missing.card
    duplicateOrReordered :=
      if duplicateOrReordered then satAdd r.2.stats.duplicateOrReordered 1
      else r.2.stats.duplicateOrReordered }
  ({ sequence, expected, missingBefore := if forward then diff else 0, duplicateOrReordered },
    { r.2 with stats })

/-! ## What each part of a call does -/

lemma mem_markMissing {count : ℕ} {value x : UInt32} {missing : Finset UInt32}
    (h : count < 2 ^ 32) :
    x ∈ markMissing count value missing ↔ x ∈ missing ∨ ahead value x < count := by
  induction count generalizing value missing with
  | zero => simp [markMissing]
  | succ count ih =>
      have hstep : x ≠ value → (ahead value x < count + 1 ↔ ahead (value + 1) x < count) := by
        intro hne
        have hpos : 0 < ahead value x := by
          rcases Nat.eq_zero_or_pos (ahead value x) with h0 | hpos
          · exact absurd (ahead_inj.mp (h0.trans (ahead_self value).symm)) hne
          · exact hpos
        have h1 : ahead value (value + 1) = 1 := by
          rw [ahead_add_one (by simp), ahead_self]
        have h2 : ahead (value + 1) x = ahead value x - ahead value (value + 1) :=
          ahead_of_le (by omega)
        rw [h2, h1]
        omega
      rw [markMissing, ih (by omega), Finset.mem_insert]
      by_cases hx : x = value
      · subst hx
        simp
      · rw [hstep hx]
        simp [hx]

/-- Within a window of `4096` values ahead of `base`, the serial maximum is the plain one. -/
lemma ahead_highestAfter {base highest sequence : UInt32} (hh : ahead base highest ≤ 4096)
    (hs : ahead base sequence ≤ 4096) :
    ahead base (highestAfter (some highest) sequence)
      = max (ahead base highest) (ahead base sequence) := by
  have hdiff : (sequence - highest ≤ maxForward) ↔ ahead base highest ≤ ahead base sequence := by
    rw [UInt32.le_iff_toNat_le]
    change ahead highest sequence ≤ 0x7fffffff ↔ _
    rcases Nat.lt_or_ge (ahead base sequence) (ahead base highest) with hlt | hge
    · rw [ahead_of_lt hlt]
      omega
    · rw [ahead_of_le hge]
      omega
  simp only [highestAfter, hdiff]
  split <;> omega

end SequenceTracker

/-! ## The received set behind the three collections -/

/-- The number of values strictly between `first` and `highest` that are not in `seen`. -/
def unreceivedBetween (first highest : UInt32) (seen : List UInt32) : ℕ :=
  ((Finset.Ioo 0 (ahead first highest)).filter
    fun o => first + UInt32.ofNat o ∉ seen).card

/-- The tracker describes exactly the values `seen` since `first`: everything below `expected` was
received, `missing` holds what was not received below `highest`. -/
structure Tracks (first : UInt32) (seen : List UInt32) (t : SequenceTracker)
    (expected highest : UInt32) : Prop where
  first_mem : first ∈ seen
  window : ∀ x ∈ seen, ahead first x ≤ 4096
  nextExpected : t.nextExpected = some expected
  highestSeen : t.stats.highestSeen = some highest
  highest_mem : highest ∈ seen
  le_highest : ∀ x ∈ seen, ahead first x ≤ ahead first highest
  expected_pos : 0 < ahead first expected
  expected_le : ahead first expected ≤ ahead first highest + 1
  settled : ∀ x, ahead first x < ahead first expected → x ∈ seen
  future : ∀ x ∈ t.futureReceived, x ∈ seen
  missing : ∀ x, x ∈ t.missing ↔ ahead first x < ahead first highest ∧ x ∉ seen

/-- The next call takes the gap branch of `observe`, and one of the values that branch marks as
missing is in `seen`. -/
def SequenceTracker.JumpsOver (t : SequenceTracker) (seen : List UInt32) (sequence : UInt32) :
    Prop :=
  ∃ expected, t.nextExpected = some expected ∧ sequence ∉ t.missing ∧
    sequence - expected ≤ maxForward ∧
    ∃ k < (min (sequence - expected) maxTrackedGap).toNat, expected + UInt32.ofNat k ∈ seen

namespace Tracks

variable {first expected highest : UInt32} {seen : List UInt32} {t : SequenceTracker}

/-- The size of `missing` is the number of values not received. -/
lemma card_missing (h : Tracks first seen t expected highest) :
    t.missing.card = unreceivedBetween first highest seen := by
  refine Finset.card_nbij (ahead first) ?_ ?_ ?_
  · intro x hx
    obtain ⟨hlt, hnot⟩ := (h.missing x).mp hx
    have hpos : 0 < ahead first x := by
      refine Nat.pos_of_ne_zero fun h0 => hnot ?_
      rw [ahead_inj.mp (h0.trans (ahead_self first).symm)]
      exact h.first_mem
    rw [Finset.mem_coe, Finset.mem_filter, Finset.mem_Ioo, add_ofNat_ahead]
    exact ⟨⟨hpos, hlt⟩, hnot⟩
  · exact fun x _ y _ hxy => ahead_inj.mp hxy
  · intro o ho
    rw [Finset.mem_coe, Finset.mem_filter, Finset.mem_Ioo] at ho
    obtain ⟨⟨_, hlt⟩, hnot⟩ := ho
    have hahead : ahead first (first + UInt32.ofNat o) = o :=
      ahead_add_ofNat (by have := ahead_lt first highest; omega)
    exact ⟨first + UInt32.ofNat o, (h.missing _).mpr ⟨by omega, hnot⟩, hahead⟩

/-- A value behind `expected` is a wrapping difference above `i32::MAX`. -/
lemma forward_iff (h : Tracks first seen t expected highest) {sequence : UInt32}
    (hq : ahead first sequence ≤ 4096) :
    sequence - expected ≤ maxForward ↔ ahead first expected ≤ ahead first sequence := by
  have hmax := h.window highest h.highest_mem
  have hle := h.expected_le
  rw [UInt32.le_iff_toNat_le]
  change ahead expected sequence ≤ 0x7fffffff ↔ _
  rcases Nat.lt_or_ge (ahead first sequence) (ahead first expected) with hlt | hge
  · rw [ahead_of_lt hlt]
    omega
  · rw [ahead_of_le hge]
    omega

end Tracks

namespace SequenceTracker

/-- The loop of `advance_expected` moves on through received values only, so it keeps `missing`
and stops at a point below which everything was received. -/
lemma advanceLoop_spec (first top : UInt32) {seen : List UInt32}
    (htop : ∀ x ∈ seen, ahead first x ≤ ahead first top) (htop' : ahead first top ≤ 4096) :
    ∀ (fuel : ℕ) (next : UInt32) (missing future : Finset UInt32),
      (∀ x ∈ future, x ∈ seen) → (∀ x ∈ missing, x ∉ seen) →
      (∀ x, ahead first x < ahead first next → x ∈ seen) →
      0 < ahead first next → ahead first next ≤ ahead first top + 1 →
      let r := advanceLoop fuel next missing future
      r.2.1 = missing ∧ (∀ x ∈ r.2.2, x ∈ seen) ∧
        (∀ x, ahead first x < ahead first r.1 → x ∈ seen) ∧
        0 < ahead first r.1 ∧ ahead first r.1 ≤ ahead first top + 1
  | 0, next, missing, future, hf, _, hs, hpos, hle => ⟨rfl, hf, hs, hpos, hle⟩
  | fuel + 1, next, missing, future, hf, hm, hs, hpos, hle => by
      rw [advanceLoop]
      split
      next hnext =>
        have hseen := hf next hnext
        have hone : ahead first (next + 1) = ahead first next + 1 := ahead_add_one (by omega)
        have herase : missing.erase next = missing :=
          Finset.erase_eq_of_notMem fun hmem => hm next hmem hseen
        rw [herase]
        refine advanceLoop_spec first top htop htop' fuel (next + 1) missing (future.erase next)
          (fun x hx => hf x (Finset.mem_of_mem_erase hx)) hm ?_ (by omega) ?_
        · intro x hx
          rcases Nat.lt_or_ge (ahead first x) (ahead first next) with hlt | hge
          · exact hs x hlt
          · have : x = next := ahead_inj.mp (by omega : ahead first x = ahead first next)
            exact this ▸ hseen
        · have := htop next hseen
          omega
      next => exact ⟨rfl, hf, hs, hpos, hle⟩

section Place

variable {t : SequenceTracker} {sequence expected : UInt32}

/-- The expected value: advance, whether or not it had been marked missing. -/
lemma place_expected (he : t.nextExpected = some expected) (heq : sequence = expected) :
    (place t sequence expected (sequence - expected)
      (decide (sequence - expected ≤ maxForward))).2 = t.advanceExpected sequence := by
  have hfwd : (0 : UInt32) ≤ maxForward := by decide
  subst heq
  by_cases hmem : sequence ∈ t.missing
  · simp [place, he, hmem, advanceExpected]
  · simp [place, he, hmem, hfwd]

/-- A missing value other than the expected one: it is no longer missing. -/
lemma place_filled (he : t.nextExpected = some expected) (hmem : sequence ∈ t.missing)
    (hne : sequence ≠ expected) :
    (place t sequence expected (sequence - expected)
      (decide (sequence - expected ≤ maxForward))).2
      = { t with missing := t.missing.erase sequence } := by
  simp [place, he, hmem, hne]

/-- A value beyond the expected one: the stretch between them is marked missing. -/
lemma place_gap (he : t.nextExpected = some expected) (hmem : sequence ∉ t.missing)
    (hfwd : sequence - expected ≤ maxForward) (hne : sequence ≠ expected) :
    (place t sequence expected (sequence - expected)
      (decide (sequence - expected ≤ maxForward))).2
      = { t with
          missing := markMissing (min (sequence - expected) maxTrackedGap).toNat expected t.missing
          futureReceived := insert sequence t.futureReceived } := by
  simp [place, he, hmem, hfwd, sub_eq_zero, hne]

/-- A value behind the expected one: nothing changes. -/
lemma place_behind (he : t.nextExpected = some expected) (hmem : sequence ∉ t.missing)
    (hfwd : ¬ sequence - expected ≤ maxForward) :
    (place t sequence expected (sequence - expected)
      (decide (sequence - expected ≤ maxForward))).2 = t := by
  simp [place, he, hmem, hfwd]

/-- The three collections after a call are those `place` leaves; the statistics report the
highest value and the size of `missing`. -/
lemma observe_state (he : t.nextExpected = some expected) {p : SequenceTracker}
    (hp : (place t sequence expected (sequence - expected)
      (decide (sequence - expected ≤ maxForward))).2 = p) :
    let t' := (observe t sequence).2
    t'.nextExpected = p.nextExpected ∧ t'.missing = p.missing ∧
      t'.futureReceived = p.futureReceived := by
  subst hp
  simp only [observe, place, he, Option.getD_some, Option.isNone_some, Bool.false_or,
    reduceCtorEq, if_false]
  split_ifs <;> simp [advanceExpected, he]

variable (sequence) in
lemma observe_highestSeen (he : t.nextExpected = some expected) :
    (observe t sequence).2.stats.highestSeen
      = some (highestAfter t.stats.highestSeen sequence) := by
  simp only [observe, place, he, Option.getD_some, Option.isNone_some, Bool.false_or,
    reduceCtorEq, if_false]
  split_ifs <;> simp [advanceExpected]

end Place

/-- The reported count is the size of `missing`. -/
lemma observe_missing (t : SequenceTracker) (sequence : UInt32) :
    (observe t sequence).2.stats.missing = UInt64.ofNat (observe t sequence).2.missing.card := rfl

end SequenceTracker

namespace Tracks

variable {first expected highest sequence : UInt32} {seen : List UInt32} {t : SequenceTracker}

open SequenceTracker

/-- The two statistics facts and the monotone facts that hold whatever branch is taken. -/
lemma highest_step (h : Tracks first seen t expected highest)
    (hq : ahead first sequence ≤ 4096) :
    let highest' := highestAfter (some highest) sequence
    ahead first highest' = max (ahead first highest) (ahead first sequence) ∧
      highest' ∈ seen ++ [sequence] ∧
      ∀ x ∈ seen ++ [sequence], ahead first x ≤ ahead first highest' := by
  have hmax := ahead_highestAfter (h.window highest h.highest_mem) hq
  refine ⟨hmax, ?_, ?_⟩
  · simp only [highestAfter]
    split
    · simp
    · exact List.mem_append_left _ h.highest_mem
  · intro x hx
    rw [hmax]
    rcases List.mem_append.mp hx with hx | hx
    · have := h.le_highest x hx
      omega
    · rw [List.mem_singleton.mp hx]
      omega

/-- Assemble the description of the state after a call from what the taken branch did to the
three collections. -/
lemma step (h : Tracks first seen t expected highest) (hq : ahead first sequence ≤ 4096)
    {t' : SequenceTracker} {expected' : UInt32}
    (hhigh : t'.stats.highestSeen = some (highestAfter (some highest) sequence))
    (hexp : t'.nextExpected = some expected') (hpos : 0 < ahead first expected')
    (hle : ahead first expected' ≤ max (ahead first highest) (ahead first sequence) + 1)
    (hset : ∀ x, ahead first x < ahead first expected' → x ∈ seen ++ [sequence])
    (hfut : ∀ x ∈ t'.futureReceived, x ∈ seen ++ [sequence])
    (hmiss : ∀ x, x ∈ t'.missing ↔
      ahead first x < max (ahead first highest) (ahead first sequence) ∧
        x ∉ seen ++ [sequence]) :
    Tracks first (seen ++ [sequence]) t' expected' (highestAfter (some highest) sequence) := by
  obtain ⟨hmax, hmem, hle'⟩ := h.highest_step hq
  refine ⟨List.mem_append_left _ h.first_mem, ?_, hexp, hhigh, hmem, hle', hpos, ?_, hset, hfut,
    ?_⟩
  · intro x hx
    rcases List.mem_append.mp hx with hx | hx
    · exact h.window x hx
    · rw [List.mem_singleton.mp hx]
      exact hq
  · rw [hmax]
    exact hle
  · intro x
    rw [hmax]
    exact hmiss x

/-- The expected value arrives, marked missing or not. -/
lemma step_expected (h : Tracks first seen t expected highest)
    (hq : ahead first sequence ≤ 4096) (heq : sequence = expected) :
    ∃ expected', Tracks first (seen ++ [sequence]) (t.observe sequence).2 expected'
      (highestAfter (some highest) sequence) := by
  obtain ⟨hexp', hmiss', hfut'⟩ :=
    observe_state h.nextExpected (place_expected h.nextExpected heq)
  have hhigh := observe_highestSeen sequence h.nextExpected
  rw [h.highestSeen] at hhigh
  obtain ⟨hmax, hmem, hle'⟩ := h.highest_step hq
  have hepos := h.expected_pos
  have hele := h.expected_le
  have htop : ahead first highest ≤ 4096 := h.window highest h.highest_mem
  have hone : ahead first (sequence + 1) = ahead first sequence + 1 := ahead_add_one (by omega)
  have hseen : ∀ x, ahead first x < ahead first (sequence + 1) → x ∈ seen ++ [sequence] := by
    intro x hx
    rcases Nat.lt_or_ge (ahead first x) (ahead first sequence) with hlt | hge
    · exact List.mem_append_left _ (h.settled x (heq ▸ hlt))
    · have hxq : x = sequence := ahead_inj.mp (by omega : ahead first x = ahead first sequence)
      simp [hxq]
  have hunseen : ∀ x, x ∈ t.missing.erase sequence → x ∉ seen ++ [sequence] := by
    intro x hx
    obtain ⟨hne, hx⟩ := Finset.mem_erase.mp hx
    simp [((h.missing x).mp hx).2, hne]
  obtain ⟨hm, hf, hs, hpos, hle⟩ := advanceLoop_spec first
    (highestAfter (some highest) sequence) hle' (by omega) t.futureReceived.card
    (sequence + 1) (t.missing.erase sequence) t.futureReceived
    (fun x hx => List.mem_append_left _ (h.future x hx)) hunseen hseen (by omega) (by omega)
  refine ⟨_, h.step hq hhigh hexp' hpos (by omega) hs (hfut' ▸ hf) fun x => ?_⟩
  rw [hmiss', advanceExpected]
  simp only [hm, Finset.mem_erase, h.missing, List.mem_append, List.mem_singleton, not_or]
  constructor
  · rintro ⟨hne, hlt, hnot⟩
    exact ⟨by omega, hnot, hne⟩
  · rintro ⟨hlt, hnot, hne⟩
    refine ⟨hne, ?_, hnot⟩
    -- below the new maximum but not the old one: then `x` lies below `expected`
    by_contra hge
    exact hnot (h.settled x (by rw [← heq]; omega))

/-- A missing value other than the expected one arrives. -/
lemma step_filled (h : Tracks first seen t expected highest)
    (hq : ahead first sequence ≤ 4096) (hmem : sequence ∈ t.missing)
    (hne : sequence ≠ expected) :
    Tracks first (seen ++ [sequence]) (t.observe sequence).2 expected
      (highestAfter (some highest) sequence) := by
  obtain ⟨hexp', hmiss', hfut'⟩ :=
    observe_state h.nextExpected (place_filled h.nextExpected hmem hne)
  have hhigh := observe_highestSeen sequence h.nextExpected
  rw [h.highestSeen] at hhigh
  have hele := h.expected_le
  obtain ⟨hlt, hnot⟩ := (h.missing sequence).mp hmem
  refine h.step hq hhigh (hexp'.trans h.nextExpected) h.expected_pos (by omega)
    (fun x hx => List.mem_append_left _ (h.settled x hx))
    (fun x hx => List.mem_append_left _ (h.future x (hfut' ▸ hx))) fun x => ?_
  rw [hmiss', Finset.mem_erase, h.missing, Nat.max_eq_left (by omega)]
  simp only [List.mem_append, List.mem_singleton]
  tauto

/-- A value behind the expected one arrives again. -/
lemma step_behind (h : Tracks first seen t expected highest)
    (hq : ahead first sequence ≤ 4096) (hmem : sequence ∉ t.missing)
    (hfwd : ¬ sequence - expected ≤ maxForward) :
    Tracks first (seen ++ [sequence]) (t.observe sequence).2 expected
      (highestAfter (some highest) sequence) := by
  obtain ⟨hexp', hmiss', hfut'⟩ :=
    observe_state h.nextExpected (place_behind h.nextExpected hmem hfwd)
  have hhigh := observe_highestSeen sequence h.nextExpected
  rw [h.highestSeen] at hhigh
  have hele := h.expected_le
  have hlt : ahead first sequence < ahead first expected := by
    have := mt (h.forward_iff hq).mpr hfwd
    omega
  have hseen : sequence ∈ seen := h.settled sequence hlt
  have hle := h.le_highest sequence hseen
  refine h.step hq hhigh (hexp'.trans h.nextExpected) h.expected_pos (by omega)
    (fun x hx => List.mem_append_left _ (h.settled x hx))
    (fun x hx => List.mem_append_left _ (h.future x (hfut' ▸ hx))) fun x => ?_
  rw [hmiss', h.missing, Nat.max_eq_left hle]
  simp only [List.mem_append, List.mem_singleton]
  exact ⟨fun ⟨h1, h2⟩ => ⟨h1, by rintro (h3 | rfl) <;> contradiction⟩,
    fun ⟨h1, h2⟩ => ⟨h1, fun h3 => h2 (Or.inl h3)⟩⟩

/-- Within the window the gap is never longer than `MAX_TRACKED_GAP`. -/
lemma toNat_gap (h : Tracks first seen t expected highest) (hq : ahead first sequence ≤ 4096)
    (hfwd : sequence - expected ≤ maxForward) :
    (min (sequence - expected) maxTrackedGap).toNat
      = ahead first sequence - ahead first expected := by
  have hge := (h.forward_iff hq).mp hfwd
  have hpos := h.expected_pos
  have hgap : (sequence - expected).toNat = ahead first sequence - ahead first expected :=
    ahead_of_le hge
  have hmin : min (sequence - expected) maxTrackedGap = sequence - expected := by
    refine if_pos ?_
    rw [UInt32.le_iff_toNat_le, hgap]
    change _ ≤ 4096
    omega
  rw [hmin, hgap]

/-- A value lies in the stretch from `expected` up to `sequence` iff it is fewer than the gap
ahead of `expected`. -/
lemma ahead_expected_lt_iff (hle : ahead first expected ≤ ahead first sequence) (x : UInt32) :
    ahead expected x < ahead first sequence - ahead first expected ↔
      ahead first expected ≤ ahead first x ∧ ahead first x < ahead first sequence := by
  have hs := ahead_lt first sequence
  rcases Nat.lt_or_ge (ahead first x) (ahead first expected) with hlt | hge
  · rw [ahead_of_lt hlt]
    omega
  · rw [ahead_of_le hge]
    omega

/-- What the gap branch leaves in `missing`: what was missing, and the whole stretch from the
expected value up to the new one. -/
lemma mem_missing_gap (h : Tracks first seen t expected highest)
    (hq : ahead first sequence ≤ 4096) (hmem : sequence ∉ t.missing)
    (hfwd : sequence - expected ≤ maxForward) (hne : sequence ≠ expected) (x : UInt32) :
    x ∈ (t.observe sequence).2.missing ↔
      x ∈ t.missing ∨
        (ahead first expected ≤ ahead first x ∧ ahead first x < ahead first sequence) := by
  obtain ⟨-, hmiss', -⟩ :=
    observe_state h.nextExpected (place_gap h.nextExpected hmem hfwd hne)
  rw [hmiss']
  simp only []
  rw [h.toNat_gap hq hfwd, mem_markMissing (by have := ahead_lt first sequence; omega),
    ahead_expected_lt_iff ((h.forward_iff hq).mp hfwd)]

/-- A forward value jumps over a received one iff one lies in the stretch up to it. -/
lemma jumpsOver_iff (h : Tracks first seen t expected highest)
    (hq : ahead first sequence ≤ 4096) (hmem : sequence ∉ t.missing)
    (hfwd : sequence - expected ≤ maxForward) :
    t.JumpsOver seen sequence ↔
      ∃ x ∈ seen, ahead first expected ≤ ahead first x ∧
        ahead first x < ahead first sequence := by
  have hle := (h.forward_iff hq).mp hfwd
  constructor
  · rintro ⟨e, he, -, -, k, hk, hseen⟩
    cases h.nextExpected.symm.trans he
    rw [h.toNat_gap hq hfwd] at hk
    refine ⟨_, hseen, (ahead_expected_lt_iff hle _).mp ?_⟩
    rwa [ahead_add_ofNat (by have := ahead_lt first sequence; omega)]
  · rintro ⟨x, hseen, hx⟩
    refine ⟨expected, h.nextExpected, hmem, hfwd, ahead expected x, ?_, ?_⟩
    · rw [h.toNat_gap hq hfwd]
      exact (ahead_expected_lt_iff hle x).mpr hx
    · rwa [add_ofNat_ahead]

/-- A value ahead of the expected one arrives, with nothing received in between. -/
lemma step_gap (h : Tracks first seen t expected highest)
    (hq : ahead first sequence ≤ 4096) (hmem : sequence ∉ t.missing)
    (hfwd : sequence - expected ≤ maxForward) (hne : sequence ≠ expected)
    (hok : ¬ t.JumpsOver seen sequence) :
    Tracks first (seen ++ [sequence]) (t.observe sequence).2 expected
      (highestAfter (some highest) sequence) := by
  obtain ⟨hexp', -, hfut'⟩ :=
    observe_state h.nextExpected (place_gap h.nextExpected hmem hfwd hne)
  have hhigh := observe_highestSeen sequence h.nextExpected
  rw [h.highestSeen] at hhigh
  have hle := (h.forward_iff hq).mp hfwd
  have hele := h.expected_le
  have hnone : ∀ x ∈ seen, ¬ (ahead first expected ≤ ahead first x ∧
      ahead first x < ahead first sequence) :=
    fun x hx hxq => hok ((h.jumpsOver_iff hq hmem hfwd).mpr ⟨x, hx, hxq⟩)
  refine h.step hq hhigh (hexp'.trans h.nextExpected) h.expected_pos (by omega)
    (fun x hx => List.mem_append_left _ (h.settled x hx)) (fun x hx => ?_) fun x => ?_
  · rw [hfut'] at hx
    rcases Finset.mem_insert.mp hx with rfl | hx
    · simp
    · exact List.mem_append_left _ (h.future x hx)
  · rw [h.mem_missing_gap hq hmem hfwd hne, h.missing]
    simp only [List.mem_append, List.mem_singleton, not_or]
    have hseq : x = sequence → ahead first x = ahead first sequence := fun hx => hx ▸ rfl
    constructor
    · rintro (⟨hlt, hnot⟩ | ⟨hge, hlt⟩)
      · exact ⟨by omega, hnot, fun hx => hmem ((h.missing sequence).mpr ⟨hx ▸ hlt, hx ▸ hnot⟩)⟩
      · exact ⟨by omega, fun hx => hnone x hx ⟨hge, hlt⟩, fun hx => by have := hseq hx; omega⟩
    · rintro ⟨hlt, hnot, hne'⟩
      have hge : ahead first expected ≤ ahead first x := by
        by_contra hge
        exact hnot (h.settled x (by omega))
      have hxq : ahead first x ≠ ahead first sequence := fun hx => hne' (ahead_inj.mp hx)
      by_cases hhi : ahead first x < ahead first highest
      · exact Or.inl ⟨hhi, hnot⟩
      · exact Or.inr ⟨hge, by omega⟩

/-- **A call that jumps over nothing received keeps the description exact.** -/
theorem step_of_not_jumpsOver (h : Tracks first seen t expected highest)
    (hq : ahead first sequence ≤ 4096) (hok : ¬ t.JumpsOver seen sequence) :
    ∃ expected', Tracks first (seen ++ [sequence]) (t.observe sequence).2 expected'
      (highestAfter (some highest) sequence) := by
  by_cases heq : sequence = expected
  · exact h.step_expected hq heq
  by_cases hmem : sequence ∈ t.missing
  · exact ⟨_, h.step_filled hq hmem heq⟩
  by_cases hfwd : sequence - expected ≤ maxForward
  · exact ⟨_, h.step_gap hq hmem hfwd heq hok⟩
  · exact ⟨_, h.step_behind hq hmem hfwd⟩

/-- **A call that jumps over a received value overcounts.** -/
theorem overcounts_of_jumpsOver (h : Tracks first seen t expected highest)
    (hq : ahead first sequence ≤ 4096) (hjump : t.JumpsOver seen sequence) :
    unreceivedBetween first (highestAfter (some highest) sequence) (seen ++ [sequence])
      < (t.observe sequence).2.missing.card := by
  obtain ⟨e, he, hmem, hfwd, k, hk, hk'⟩ := hjump
  cases h.nextExpected.symm.trans he
  obtain ⟨x, hx, hge, hlt⟩ := (h.jumpsOver_iff hq hmem hfwd).mp
    ⟨_, he, hmem, hfwd, k, hk, hk'⟩
  have hne : sequence ≠ expected := fun heq => by rw [heq] at hlt; omega
  obtain ⟨hmax, -, -⟩ := h.highest_step hq
  have hmiss := h.mem_missing_gap hq hmem hfwd hne
  -- the offsets of `missing` contain every unreceived one, and that of the received `x`
  rw [← Finset.card_image_of_injective _ fun a b hab => ahead_inj.mp hab]
  refine Finset.card_lt_card ((Finset.ssubset_iff_of_subset fun o ho => ?_).mpr
    ⟨ahead first x, ?_, ?_⟩)
  · rw [Finset.mem_filter, Finset.mem_Ioo, hmax] at ho
    obtain ⟨⟨hpos, hlt'⟩, hnot⟩ := ho
    simp only [List.mem_append, not_or, List.mem_singleton] at hnot
    have ho : ahead first (first + UInt32.ofNat o) = o :=
      ahead_add_ofNat (by have := ahead_lt first highest; have := ahead_lt first sequence; omega)
    refine Finset.mem_image.mpr ⟨first + UInt32.ofNat o, (hmiss _).mpr ?_, ho⟩
    have hge' : ahead first expected ≤ o := by
      by_contra hlo
      exact hnot.1 (h.settled _ (by omega))
    by_cases hhi : o < ahead first highest
    · exact Or.inl ((h.missing _).mpr ⟨by omega, hnot.1⟩)
    · exact Or.inr (by omega)
  · exact Finset.mem_image.mpr ⟨x, (hmiss x).mpr (Or.inr ⟨hge, hlt⟩), rfl⟩
  · rw [Finset.mem_filter, add_ofNat_ahead]
    exact fun hmem' => hmem'.2 (List.mem_append_left _ hx)

/-- The first call. -/
lemma observe_first (first : UInt32) :
    Tracks first [first] (new.observe first).2 (first + 1) first := by
  have hone : ahead first (first + 1) = 1 := by
    rw [ahead_add_one (by simp), ahead_self]
  refine ⟨by simp, by simp, rfl, rfl, by simp, by simp, by omega, by simp [hone], ?_, ?_, ?_⟩
  · intro x hx
    have hx0 : ahead first x = ahead first first := by
      rw [ahead_self]
      omega
    simp [ahead_inj.mp hx0]
  · intro x hx
    exact absurd hx (Finset.notMem_empty x)
  · intro x
    rw [ahead_self]
    exact ⟨fun hx => absurd hx (Finset.notMem_empty x), fun hx => absurd hx.1 (Nat.not_lt_zero _)⟩

end Tracks

/-! ## The missing count along a run -/

namespace SequenceTracker

open Tracks

/-- The count `stats().missing` reports is the number of values strictly between `first` and the
highest one seen that are not in `seen`. -/
def MissingExact (first : UInt32) (seen : List UInt32) (t : SequenceTracker) : Prop :=
  ∃ highest, t.stats.highestSeen = some highest ∧
    t.stats.missing.toNat = unreceivedBetween first highest seen

/-- A set of 32-bit values has a size that fits a 64-bit counter. -/
lemma card_lt (s : Finset UInt32) : s.card < UInt64.size := by
  have hle : s.card ≤ (Finset.range (2 ^ 32)).card :=
    Finset.card_le_card_of_injOn UInt32.toNat
      (fun x _ => Finset.mem_coe.mpr (Finset.mem_range.mpr x.toNat_lt))
      (fun x _ y _ hxy => UInt32.toNat_inj.mp hxy)
  rw [Finset.card_range] at hle
  have hsize : 2 ^ 32 < UInt64.size := by decide
  omega

/-- **When the missing count is exact.**  Over every run inside a window of `4096` values ahead of
the first one, `stats().missing` counts the unreceived values after every call exactly when no
call jumps over a value received before it. -/
theorem observe_missing_exact_iff (first : UInt32) (later : List UInt32)
    (hwindow : ∀ sequence ∈ later, ahead first sequence ≤ 4096) :
    EveryState observe (new.observe first).2 later
        (fun past t => t.MissingExact first (first :: past))
      ↔ EveryStep observe (new.observe first).2 later
        (fun past t sequence => ¬ t.JumpsOver (first :: past) sequence) := by
  refine everyState_iff_everyStep
    (fun past t => (∃ expected highest, Tracks first (first :: past) t expected highest) ∧
      t.stats.missing = UInt64.ofNat t.missing.card)
    (D := fun sequence => ahead first sequence ≤ 4096) ?_ ?_ ?_ ?_ hwindow
  · exact ⟨⟨_, _, observe_first first⟩, rfl⟩
  · rintro past t ⟨⟨expected, highest, h⟩, hstat⟩
    refine ⟨highest, h.highestSeen, ?_⟩
    rw [hstat, UInt64.toNat_ofNat_of_lt' (card_lt _), h.card_missing]
  · rintro past t sequence hq ⟨⟨expected, highest, h⟩, -⟩ hok
    obtain ⟨expected', h'⟩ := h.step_of_not_jumpsOver hq hok
    exact ⟨⟨expected', _, h'⟩, rfl⟩
  · rintro past t sequence hq ⟨⟨expected, highest, h⟩, -⟩ hjump ⟨highest', hhigh', hexact⟩
    have hhigh := observe_highestSeen sequence h.nextExpected
    rw [h.highestSeen] at hhigh
    cases hhigh.symm.trans hhigh'
    have hover := h.overcounts_of_jumpsOver hq (not_not.mp hjump)
    rw [observe_missing, UInt64.toNat_ofNat_of_lt' (card_lt _)] at hexact
    exact absurd hexact (Nat.ne_of_gt hover)

/-- One gap, filled out of order. -/
theorem observe_missing_exact_iff_three :
    EveryState observe (new.observe 10).2 [13, 12]
        (fun past t => t.MissingExact 10 (10 :: past))
      ↔ EveryStep observe (new.observe 10).2 [13, 12]
        (fun past t sequence => ¬ t.JumpsOver (10 :: past) sequence) :=
  observe_missing_exact_iff 10 [13, 12] (by simp [ahead])

/-- Receiving `10`, `13` and `15` leaves `11`, `12` and `14` missing; the tracker counts `13` as
well. -/
theorem missing_counts_received :
    ¬ EveryState observe (new.observe 10).2 [13, 15]
        (fun past t => t.MissingExact 10 (10 :: past)) := by
  intro h
  obtain ⟨highest, hhigh, hexact⟩ := h [13, 15] (List.prefix_refl _)
  have hrun : (runState observe (new.observe 10).2 [13, 15]).stats
      = ⟨3, 4, 0, some 15⟩ := by decide
  rw [hrun] at hhigh hexact
  cases hhigh
  exact absurd hexact (by decide)

end SequenceTracker

end RaptorFec
