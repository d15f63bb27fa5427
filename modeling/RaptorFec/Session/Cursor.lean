import RaptorFec.Library.Runs
import RaptorFec.Session.Playout

/-!
# The playout cursor

The playout buffer remembers the time that was asked for last, and refuses epochs up to it as late.

* `PlayoutOp`, `step` — the calls on a buffer;
* `Ordered` — all epochs of the buffer are later than its cursor, and there are not too many: kept
  by every call (`Ordered.step`);
* `Forward` — the call does not ask for a time before the cursor;
* `cursorSound_iff` — the cursor never moves back, and no time is played twice, in the runs of calls
  that go forward.  `take_for_playout` sets the cursor to the time it is asked for without comparing
  them.
-/

namespace RaptorFec

/-- The calls on a playout buffer. -/
inductive PlayoutOp where
  | insert (epoch : DecodedMultichannelAudioEpoch)
  | take (ptsSamples : UInt64)
  | expire (ptsSamples : UInt64)
  deriving DecidableEq, Repr

/-- What a call returns. -/
inductive PlayoutOutput where
  | inserted (outcome : InsertEpochOutcome)
  | read (read : MultichannelAudioPlayoutRead)
  | expired (count : ℕ)
  deriving DecidableEq, Repr

/-- The time of an epoch that was played. -/
def PlayoutOutput.played : PlayoutOutput → Option UInt64
  | .read (.exact epoch) => some epoch.ptsSamples
  | _ => none

namespace ExactMultichannelAudioPlayoutBuffer

/-- One call. -/
def step (self : ExactMultichannelAudioPlayoutBuffer) :
    PlayoutOp → PlayoutOutput × ExactMultichannelAudioPlayoutBuffer
  | .insert epoch => Prod.map .inserted id (self.insert epoch)
  | .take ptsSamples => Prod.map .read id (self.takeForPlayout ptsSamples)
  | .expire ptsSamples => Prod.map .expired id (self.expireBefore ptsSamples)

/-- A buffer without epochs, as `new` and `default` make it. -/
def fresh (maxBufferedEpochs : ℕ) : ExactMultichannelAudioPlayoutBuffer :=
  ⟨.empty, maxBufferedEpochs, none⟩

/-- The epochs lie behind the cursor, each under its own time, and there are not too many. -/
structure Ordered (buffer : ExactMultichannelAudioPlayoutBuffer) : Prop where
  key_eq : ∀ entry ∈ buffer.epochs.entries, entry.1 = entry.2.ptsSamples
  after : ∀ entry ∈ buffer.epochs.entries, ∀ last ∈ buffer.lastPlayedPts, last < entry.1
  len_le : buffer.epochs.len ≤ buffer.maxBufferedEpochs

variable {self : ExactMultichannelAudioPlayoutBuffer}

/-! ## What the calls do to the buffer -/

lemma ordered_fresh (maxBufferedEpochs : ℕ) : (fresh maxBufferedEpochs).Ordered where
  key_eq _ hentry := absurd hentry List.not_mem_nil
  after _ hentry := absurd hentry List.not_mem_nil
  len_le := Nat.zero_le _

lemma lookup_eq_none_of_mem {ptsSamples : UInt64} (h : self.epochs.lookup ptsSamples = none)
    {entry : UInt64 × DecodedMultichannelAudioEpoch} (hentry : entry ∈ self.epochs.entries) :
    entry.1 ≠ ptsSamples := by
  intro heq
  have hsome := BTreeMap.lookup_isSome.mpr ⟨entry, hentry, heq⟩
  rw [h] at hsome
  cases hsome

/-- An insertion leaves the cursor. -/
lemma lastPlayedPts_insert (self : ExactMultichannelAudioPlayoutBuffer)
    (epoch : DecodedMultichannelAudioEpoch) :
    (self.insert epoch).2.lastPlayedPts = self.lastPlayedPts ∧
      (self.insert epoch).2.maxBufferedEpochs = self.maxBufferedEpochs := by
  rw [insert]
  split_ifs
  · exact ⟨rfl, rfl⟩
  · simp only
    split_ifs
    · exact ⟨rfl, rfl⟩
    · exact ⟨rfl, rfl⟩

lemma Ordered.insert (h : self.Ordered) (epoch : DecodedMultichannelAudioEpoch) :
    (self.insert epoch).2.Ordered := by
  obtain ⟨hcursor, hmax⟩ := lastPlayedPts_insert self epoch
  by_cases hrefused : self.isLate epoch.ptsSamples ∨ (self.epochs.lookup epoch.ptsSamples).isSome
  · rw [ExactMultichannelAudioPlayoutBuffer.insert, if_pos hrefused]
    exact h
  have hlate : ∀ last ∈ self.lastPlayedPts, last < epoch.ptsSamples := by
    intro last hlast
    have hnot := (not_or.mp hrefused).1
    rw [isLate, hlast, Option.any_some, decide_eq_true_eq] at hnot
    exact UInt64.not_le.mp hnot
  refine ⟨fun entry hentry => ?_, fun entry hentry last hlast => ?_, ?_⟩
  · rcases mem_of_mem_insert hentry with rfl | hold
    · rfl
    · exact h.key_eq entry hold
  · rw [hcursor] at hlast
    rcases mem_of_mem_insert hentry with rfl | hold
    · exact hlate last hlast
    · exact h.after entry hold last hlast
  · rw [ExactMultichannelAudioPlayoutBuffer.insert, if_neg hrefused]
    simp only
    split_ifs with hroom
    · exact hroom
    · -- what does not fit is evicted
      change (BTreeMap.removeAll _ _).len ≤ self.maxBufferedEpochs
      rw [BTreeMap.len_removeAll_take]
      omega

lemma Ordered.expireBefore (h : self.Ordered) (ptsSamples : UInt64) :
    (self.expireBefore ptsSamples).2.Ordered where
  key_eq entry hentry := h.key_eq entry (mem_of_mem_expireBefore hentry)
  after entry hentry := h.after entry (mem_of_mem_expireBefore hentry)
  len_le := by
    have hlen := BTreeMap.len_expire self.epochs ptsSamples
    exact Nat.le_trans (Nat.le_of_add_right_le (Nat.le_of_eq hlen)) h.len_le

/-- A read moves the cursor to the time it is asked for. -/
lemma lastPlayedPts_takeForPlayout (self : ExactMultichannelAudioPlayoutBuffer)
    (ptsSamples : UInt64) :
    (self.takeForPlayout ptsSamples).2.lastPlayedPts = some ptsSamples ∧
      (self.takeForPlayout ptsSamples).2.maxBufferedEpochs = self.maxBufferedEpochs := by
  rw [takeForPlayout]
  split
  · exact ⟨rfl, rfl⟩
  · exact ⟨rfl, rfl⟩

/-- What a read leaves in the buffer is later than the time it is asked for. -/
lemma lt_of_mem_takeForPlayout {ptsSamples : UInt64}
    {entry : UInt64 × DecodedMultichannelAudioEpoch}
    (h : entry ∈ (self.takeForPlayout ptsSamples).2.epochs.entries) : ptsSamples < entry.1 := by
  have hparts : ¬ entry.1 < ptsSamples ∧ entry.1 ≠ ptsSamples := by
    rw [takeForPlayout] at h
    split at h
    · obtain ⟨hmem, hne⟩ := BTreeMap.mem_remove.mp h
      exact ⟨(BTreeMap.mem_expire.mp hmem).2, hne⟩
    · rename_i hnone
      exact ⟨(BTreeMap.mem_expire.mp h).2, lookup_eq_none_of_mem hnone h⟩
  exact UInt64.lt_of_le_of_ne (UInt64.not_lt.mp hparts.1) hparts.2.symm

lemma Ordered.takeForPlayout (h : self.Ordered) (ptsSamples : UInt64) :
    (self.takeForPlayout ptsSamples).2.Ordered := by
  obtain ⟨hcursor, hmax⟩ := lastPlayedPts_takeForPlayout self ptsSamples
  have hmem := (takeForPlayout_spec self ptsSamples).2
  refine ⟨fun entry hentry => h.key_eq entry (hmem entry hentry), ?_, ?_⟩
  · intro entry hentry last hlast
    rw [hcursor] at hlast
    cases hlast
    exact lt_of_mem_takeForPlayout hentry
  · have hexpired := (h.expireBefore ptsSamples).len_le
    rw [hmax]
    refine Nat.le_trans ?_ hexpired
    rw [ExactMultichannelAudioPlayoutBuffer.takeForPlayout]
    split
    · exact List.length_filter_le _ _
    · exact Nat.le_refl _

/-- **Every call keeps the buffer behind its cursor**, and small. -/
theorem Ordered.step (h : self.Ordered) (op : PlayoutOp) : (self.step op).2.Ordered := by
  cases op with
  | insert epoch => exact h.insert epoch
  | take ptsSamples => exact h.takeForPlayout ptsSamples
  | expire ptsSamples => exact h.expireBefore ptsSamples

/-- The cursor after a call. -/
lemma lastPlayedPts_step (self : ExactMultichannelAudioPlayoutBuffer) (op : PlayoutOp) :
    (self.step op).2.lastPlayedPts =
      match op with
      | .take ptsSamples => some ptsSamples
      | _ => self.lastPlayedPts := by
  cases op with
  | insert epoch => exact (lastPlayedPts_insert self epoch).1
  | take ptsSamples => exact (lastPlayedPts_takeForPlayout self ptsSamples).1
  | expire ptsSamples => rfl

lemma maxBufferedEpochs_step (self : ExactMultichannelAudioPlayoutBuffer) (op : PlayoutOp) :
    (self.step op).2.maxBufferedEpochs = self.maxBufferedEpochs := by
  cases op with
  | insert epoch => exact (lastPlayedPts_insert self epoch).2
  | take ptsSamples => exact (lastPlayedPts_takeForPlayout self ptsSamples).2
  | expire ptsSamples => rfl

/-- What is played was asked for, and lies behind the cursor. -/
lemma Ordered.played (h : self.Ordered) {op : PlayoutOp} {ptsSamples : UInt64}
    (hplayed : (self.step op).1.played = some ptsSamples) :
    op = .take ptsSamples ∧ ∀ last ∈ self.lastPlayedPts, last < ptsSamples := by
  cases op with
  | insert epoch => cases hplayed
  | expire pts => cases hplayed
  | take pts =>
      rcases (takeForPlayout_spec self pts).1 with hread | ⟨epoch, hread, hentry⟩
      · rw [ExactMultichannelAudioPlayoutBuffer.step, Prod.map_fst, hread] at hplayed
        cases hplayed
      · rw [ExactMultichannelAudioPlayoutBuffer.step, Prod.map_fst, hread] at hplayed
        obtain rfl : epoch.ptsSamples = ptsSamples := Option.some.inj hplayed
        obtain rfl : pts = epoch.ptsSamples := h.key_eq _ hentry
        exact ⟨rfl, h.after _ hentry⟩

/-! ## Runs -/

/-- The times of the epochs that the calls of a run return. -/
def played (start : ExactMultichannelAudioPlayoutBuffer) (ops : List PlayoutOp) : List UInt64 :=
  (runOutputs step start ops).filterMap PlayoutOutput.played

lemma played_snoc (start : ExactMultichannelAudioPlayoutBuffer) (ops : List PlayoutOp)
    (op : PlayoutOp) :
    played start (ops ++ [op])
      = played start ops ++ ((runState step start ops).step op).1.played.toList := by
  rw [played, runOutputs_snoc, List.filterMap_append, played]
  cases hlast : ((runState step start ops).step op).1.played <;> simp [hlast]

end ExactMultichannelAudioPlayoutBuffer

/-- The call does not ask for a time before the cursor. -/
def PlayoutOp.Forward (self : ExactMultichannelAudioPlayoutBuffer) : PlayoutOp → Prop
  | .take ptsSamples => ∀ last ∈ self.lastPlayedPts, last ≤ ptsSamples
  | _ => True

namespace ExactMultichannelAudioPlayoutBuffer

/-- The cursor never moves back along a run, no time is played twice, and in every state the buffer
lies behind the cursor and is small. -/
structure CursorSound (start : ExactMultichannelAudioPlayoutBuffer) (ops : List PlayoutOp) :
    Prop where
  monotone : EveryStep step start ops fun _ self op =>
    ∀ last ∈ self.lastPlayedPts, ∃ next ∈ (self.step op).2.lastPlayedPts, last ≤ next
  once : (played start ops).Nodup
  after : EveryState step start ops fun _ self =>
    ∀ entry ∈ self.epochs.entries, ∀ last ∈ self.lastPlayedPts, last < entry.2.ptsSamples
  len_le : EveryState step start ops fun _ self => self.epochs.len ≤ start.maxBufferedEpochs

/-- What holds after calls that went forward. -/
structure PlayedOnce (start : ExactMultichannelAudioPlayoutBuffer) (past : List PlayoutOp)
    (buffer : ExactMultichannelAudioPlayoutBuffer) : Prop where
  reached : buffer = runState step start past
  ordered : buffer.Ordered
  nodup : (played start past).Nodup
  before : ∀ ptsSamples ∈ played start past, ∃ last ∈ buffer.lastPlayedPts, ptsSamples ≤ last

lemma PlayedOnce.step {start self : ExactMultichannelAudioPlayoutBuffer} {past : List PlayoutOp}
    {op : PlayoutOp} (h : PlayedOnce start past self) (hforward : op.Forward self) :
    PlayedOnce start (past ++ [op]) (self.step op).2 := by
  have hplayed := played_snoc start past op
  rw [← h.reached] at hplayed
  -- an epoch that was played before lies at or before the cursor, which has not moved back
  have hbefore : ∀ ptsSamples ∈ played start past,
      ∃ last ∈ (self.step op).2.lastPlayedPts, ptsSamples ≤ last := by
    intro ptsSamples hmem
    obtain ⟨last, hlast, hle⟩ := h.before ptsSamples hmem
    rw [lastPlayedPts_step]
    cases op with
    | insert epoch => exact ⟨last, hlast, hle⟩
    | expire pts => exact ⟨last, hlast, hle⟩
    | take pts => exact ⟨pts, rfl, UInt64.le_trans hle (hforward last hlast)⟩
  refine ⟨by rw [runState_snoc, ← h.reached], h.ordered.step op, ?_, ?_⟩
  · rw [hplayed]
    cases hlast : (self.step op).1.played with
    | none => simpa using h.nodup
    | some ptsSamples =>
        obtain ⟨-, hnew⟩ := h.ordered.played hlast
        rw [Option.toList_some, ← List.concat_eq_append]
        refine h.nodup.concat fun hmem => ?_
        obtain ⟨last, hlast, hle⟩ := h.before ptsSamples hmem
        exact UInt64.not_le.mpr (hnew last hlast) hle
  · intro ptsSamples hmem
    rw [hplayed] at hmem
    rcases List.mem_append.mp hmem with hold | hnew
    · exact hbefore ptsSamples hold
    · obtain ⟨rfl, -⟩ := h.ordered.played (Option.mem_toList.mp hnew)
      exact ⟨ptsSamples, (lastPlayedPts_takeForPlayout self ptsSamples).1, UInt64.le_refl _⟩

/-- In every state of a run the buffer lies behind its cursor. -/
lemma everyState_ordered (maxBufferedEpochs : ℕ) (ops : List PlayoutOp) :
    EveryState step (fresh maxBufferedEpochs) ops fun _ self =>
      self.Ordered ∧ self.maxBufferedEpochs = maxBufferedEpochs := by
  intro past _
  refine run_invariant_all
    (fun (_ : List PlayoutOp) (self : ExactMultichannelAudioPlayoutBuffer) =>
      self.Ordered ∧ self.maxBufferedEpochs = maxBufferedEpochs)
    ⟨ordered_fresh maxBufferedEpochs, rfl⟩ (fun past self op h => ?_) past
  exact ⟨h.1.step op, (maxBufferedEpochs_step self op).trans h.2⟩

/-- **The runs in which nothing is played twice**, and the cursor never moves back, are those that
never ask for a time before the cursor. -/
theorem cursorSound_iff (maxBufferedEpochs : ℕ) (ops : List PlayoutOp) :
    CursorSound (fresh maxBufferedEpochs) ops
      ↔ EveryStep step (fresh maxBufferedEpochs) ops fun _ self op => op.Forward self := by
  constructor
  · intro hsound past op hpre
    have hmonotone := hsound.monotone past op hpre
    cases op with
    | insert epoch => trivial
    | expire ptsSamples => trivial
    | take ptsSamples =>
        intro last hlast
        obtain ⟨next, hnext, hle⟩ := hmonotone last hlast
        rw [lastPlayedPts_step] at hnext
        cases hnext
        exact hle
  · intro hforward
    have honce : PlayedOnce (fresh maxBufferedEpochs) ops
        (runState step (fresh maxBufferedEpochs) ops) :=
      run_invariant (PlayedOnce (fresh maxBufferedEpochs)) (fun _ self op => op.Forward self)
        ⟨rfl, ordered_fresh maxBufferedEpochs, List.nodup_nil, by simp [played]⟩
        (fun _ _ _ h hop => h.step hop) hforward
    have hordered := everyState_ordered maxBufferedEpochs ops
    refine ⟨fun past op hpre last hlast => ?_, honce.nodup, fun past hpre entry hentry => ?_,
      fun past hpre => ?_⟩
    · rw [lastPlayedPts_step]
      have hop := hforward past op hpre
      cases op with
      | insert epoch => exact ⟨last, hlast, UInt64.le_refl _⟩
      | expire pts => exact ⟨last, hlast, UInt64.le_refl _⟩
      | take pts => exact ⟨pts, rfl, hop last hlast⟩
    · have h := (hordered past hpre).1
      rw [← h.key_eq entry hentry]
      exact h.after entry hentry
    · have h := hordered past hpre
      exact Nat.le_trans h.1.len_le (Nat.le_of_eq h.2)

/-- The epoch of time 5 is played, then time 3 is asked for; the epoch arrives once more, and is
played once more. -/
theorem not_cursorSound_five :
    let five : DecodedMultichannelAudioEpoch := ⟨7, 1, 5, 5, 48000, 1, []⟩
    let ops : List PlayoutOp := [.insert five, .take 5, .take 3, .insert five, .take 5]
    played (new 4) ops = [5, 5] ∧ ¬ CursorSound (new 4) ops := by
  have hplayed : played (new 4) [.insert ⟨7, 1, 5, 5, 48000, 1, []⟩, .take 5, .take 3,
      .insert ⟨7, 1, 5, 5, 48000, 1, []⟩, .take 5] = [5, 5] := by
    decide +kernel
  refine ⟨hplayed, fun hsound => ?_⟩
  have honce := hsound.once
  rw [hplayed] at honce
  exact absurd honce (by decide)

end ExactMultichannelAudioPlayoutBuffer

end RaptorFec
