import RaptorFec.Library.BTreeMap
import RaptorFec.Session.Assembly

/-!
# The playout buffer

`ExactMultichannelAudioPlayoutBuffer` holds complete epochs by the time at which they are played.
-/

namespace RaptorFec

inductive MultichannelAudioPlayoutRead where
  | exact (epoch : DecodedMultichannelAudioEpoch)
  | missing (ptsSamples : UInt64)
  deriving DecidableEq, Repr

inductive InsertEpochOutcome where
  | inserted
  | duplicateOrLate
  | evictedStale (count : ℕ)
  deriving DecidableEq, Repr

structure ExactMultichannelAudioPlayoutBuffer where
  epochs : BTreeMap UInt64 DecodedMultichannelAudioEpoch
  maxBufferedEpochs : ℕ
  lastPlayedPts : Option UInt64

namespace ExactMultichannelAudioPlayoutBuffer

/-- `ExactMultichannelAudioPlayoutBuffer::new`. -/
def new (maxBufferedEpochs : ℕ) : ExactMultichannelAudioPlayoutBuffer :=
  ⟨.empty, max maxBufferedEpochs 1, none⟩

variable (self : ExactMultichannelAudioPlayoutBuffer)

/-- The time is not after the one played last. -/
def isLate (ptsSamples : UInt64) : Bool := self.lastPlayedPts.any fun last => ptsSamples ≤ last

def insert (epoch : DecodedMultichannelAudioEpoch) :
    InsertEpochOutcome × ExactMultichannelAudioPlayoutBuffer :=
  if self.isLate epoch.ptsSamples ∨ (self.epochs.lookup epoch.ptsSamples).isSome then
    (.duplicateOrLate, self)
  else
    let epochs := self.epochs.insert epoch.ptsSamples epoch
    if epochs.len ≤ self.maxBufferedEpochs then (.inserted, { self with epochs := epochs })
    else
      let overflow := epochs.len - self.maxBufferedEpochs
      (.evictedStale overflow, { self with epochs := epochs.removeAll (epochs.keys.take overflow) })

/-- `expire_before`. -/
def expireBefore (ptsSamples : UInt64) : ℕ × ExactMultichannelAudioPlayoutBuffer :=
  let stale := self.epochs.keys.takeWhile fun pts => pts < ptsSamples
  (stale.length, { self with epochs := self.epochs.removeAll stale })

/-- `take_for_playout`. -/
def takeForPlayout (ptsSamples : UInt64) :
    MultichannelAudioPlayoutRead × ExactMultichannelAudioPlayoutBuffer :=
  let self := { self with lastPlayedPts := some ptsSamples }
  let self := (self.expireBefore ptsSamples).2
  match self.epochs.lookup ptsSamples with
  | some epoch => (.exact epoch, { self with epochs := self.epochs.remove ptsSamples })
  | none => (.missing ptsSamples, self)

variable {self} {epoch : DecodedMultichannelAudioEpoch} {ptsSamples : UInt64}
  {entry : UInt64 × DecodedMultichannelAudioEpoch}

/-- What is in the buffer after an insertion was there before, or is the new epoch under its own
time. -/
lemma mem_of_mem_insert (h : entry ∈ (self.insert epoch).2.epochs.entries) :
    entry = (epoch.ptsSamples, epoch) ∨ entry ∈ self.epochs.entries := by
  rw [insert] at h
  split_ifs at h
  · exact Or.inr h
  · simp only at h
    split_ifs at h
    · exact BTreeMap.mem_of_mem_insert h
    · exact BTreeMap.mem_of_mem_insert (BTreeMap.mem_of_mem_removeAll h)

/-- **An insertion leaves an epoch in the buffer**, the new one or another, when few of the times
there are later. -/
lemma mem_insert {later : Finset UInt64} (hroom : later.card < self.maxBufferedEpochs)
    (hlater : ∀ entry ∈ self.epochs.entries, ptsSamples < entry.1 → entry.1 ∈ later)
    (hepoch : ptsSamples < epoch.ptsSamples → epoch.ptsSamples ∈ later)
    (h : (∃ held, (ptsSamples, held) ∈ self.epochs.entries) ∨
      epoch.ptsSamples = ptsSamples ∧ self.isLate ptsSamples = false) :
    ∃ held, (ptsSamples, held) ∈ (self.insert epoch).2.epochs.entries := by
  by_cases hrefused : self.isLate epoch.ptsSamples ∨ (self.epochs.lookup epoch.ptsSamples).isSome
  · rw [insert, if_pos hrefused]
    rcases h with hheld | ⟨rfl, hearly⟩
    · exact hheld
    · rw [hearly] at hrefused
      obtain ⟨entry, hentry, hkey⟩ :=
        BTreeMap.lookup_isSome.mp (hrefused.resolve_left Bool.false_ne_true)
      exact ⟨entry.2, hkey ▸ hentry⟩
  · obtain ⟨held, hheld⟩ : ∃ held,
        (ptsSamples, held) ∈ (self.epochs.insert epoch.ptsSamples epoch).entries := by
      rcases h with ⟨held, hheld⟩ | ⟨rfl, -⟩
      · refine ⟨held, BTreeMap.mem_insert_of_mem hheld fun heq => (not_or.mp hrefused).2 ?_⟩
        exact BTreeMap.lookup_isSome.mpr ⟨_, hheld, heq⟩
      · exact ⟨epoch, BTreeMap.mem_insert_self _ _ _⟩
    have hbehind : ∀ other ∈ (self.epochs.insert epoch.ptsSamples epoch).entries,
        ptsSamples < other.1 → other.1 ∈ later := by
      intro other hother hlt
      rcases BTreeMap.mem_of_mem_insert hother with rfl | hold
      · exact hepoch hlt
      · exact hlater other hold hlt
    rw [insert, if_neg hrefused]
    simp only
    split_ifs
    · exact ⟨held, hheld⟩
    · exact ⟨held, BTreeMap.mem_removeAll_take hheld hbehind hroom⟩

lemma mem_of_mem_expireBefore (h : entry ∈ (self.expireBefore ptsSamples).2.epochs.entries) :
    entry ∈ self.epochs.entries :=
  BTreeMap.mem_of_mem_removeAll h

/-- Only earlier epochs expire. -/
lemma mem_expireBefore (h : entry ∈ self.epochs.entries) (hle : ptsSamples ≤ entry.1) :
    entry ∈ (self.expireBefore ptsSamples).2.epochs.entries :=
  BTreeMap.mem_expire.mpr ⟨h, UInt64.not_lt.mpr hle⟩

/-- A read leaves later epochs in the buffer. -/
lemma mem_takeForPlayout (h : entry ∈ self.epochs.entries) (hlt : ptsSamples < entry.1) :
    entry ∈ (self.takeForPlayout ptsSamples).2.epochs.entries := by
  have hexpired := mem_expireBefore h (UInt64.le_of_lt hlt)
  rw [takeForPlayout]
  split
  · exact BTreeMap.mem_remove.mpr ⟨hexpired, (UInt64.ne_of_lt hlt).symm⟩
  · exact hexpired

/-- An epoch of the time that is asked for is played. -/
lemma takeForPlayout_of_mem (h : (ptsSamples, epoch) ∈ self.epochs.entries) :
    ∃ played, (self.takeForPlayout ptsSamples).1 = .exact played := by
  have hexpired : (ptsSamples, epoch) ∈
      ({ self with lastPlayedPts := some ptsSamples }.expireBefore ptsSamples).2.epochs.entries :=
    mem_expireBefore h (UInt64.le_refl ptsSamples)
  have hsome := BTreeMap.lookup_isSome.mpr ⟨_, hexpired, rfl⟩
  rw [takeForPlayout]
  split
  · exact ⟨_, rfl⟩
  · rename_i hnone
    rw [hnone] at hsome
    cases hsome

/-- What is played was in the buffer under its time, and nothing is added. -/
lemma takeForPlayout_spec (self : ExactMultichannelAudioPlayoutBuffer) (ptsSamples : UInt64) :
    ((self.takeForPlayout ptsSamples).1 = .missing ptsSamples ∨
      ∃ epoch, (self.takeForPlayout ptsSamples).1 = .exact epoch ∧
        (ptsSamples, epoch) ∈ self.epochs.entries) ∧
    ∀ entry ∈ (self.takeForPlayout ptsSamples).2.epochs.entries, entry ∈ self.epochs.entries := by
  rw [takeForPlayout]
  split
  · rename_i epoch hlookup
    exact ⟨Or.inr ⟨epoch, rfl, mem_of_mem_expireBefore (BTreeMap.mem_of_lookup hlookup)⟩,
      fun entry hentry => mem_of_mem_expireBefore (BTreeMap.mem_remove.mp hentry).1⟩
  · exact ⟨Or.inl rfl, fun entry hentry => mem_of_mem_expireBefore hentry⟩

end ExactMultichannelAudioPlayoutBuffer

end RaptorFec
