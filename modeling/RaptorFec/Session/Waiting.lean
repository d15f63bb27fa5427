import RaptorFec.Audio.Followed
import RaptorFec.Session.Bounded
import RaptorFec.Session.Cursor
import RaptorFec.Session.Exact
import RaptorFec.Session.Gathered

/-!
# An epoch in flight among others

The receiver gives up the epoch that has been in flight for longest when there are too many.  An
epoch stays in flight while the blocks that come behind it are few.

* `Exact.pushShard_cases` — what a shard of one of the blocks does to the receiver;
* `Waits` — the block is not ignored, not late, and what is behind it is in a small set;
  `Waits.filed`, `Waits.settled`, `Waits.dropInflight` keep this.
-/

namespace RaptorFec

namespace MultichannelAudioReceiver

variable {X : Crates} {self next : MultichannelAudioReceiver X}

/-- The receiver without its counters. -/
def uncounted (self : MultichannelAudioReceiver X) : MultichannelAudioReceiver X :=
  { self with stats := .default }

@[simp] lemma uncounted_countShard (recovery : MultichannelAudioRecovery) :
    (self.countShard recovery).uncounted = self.uncounted := by
  cases recovery <;> rfl

@[simp] lemma uncounted_countGroup (group : Option DecodedMultichannelAudioGroup) :
    (self.countGroup group).uncounted = self.uncounted := by
  cases group <;> rfl

/-- A complete epoch leaves the epochs in flight, and is offered to the playout buffer. -/
def settled (self : MultichannelAudioReceiver X) (blockId : UInt32)
    (epoch : DecodedMultichannelAudioEpoch) : MultichannelAudioReceiver X :=
  { self with
    inflight := self.inflight.erase blockId
    inflightOrder := self.inflightOrder.filter (· ≠ blockId)
    playout := (self.playout.insert epoch).2 }

/-- **What a shard of one of the blocks does**, up to the counters. -/
theorem Exact.pushShard_cases {code : X.Sound} {A : AudioBlockSet} {cutOf : AudioBlock → EpochCut}
    (hcuts : Cuts A cutOf) (h : Exact code A cutOf self) {block : AudioBlock} (hblock : block ∈ A)
    {shard : DecodedMultichannelAudioShard} (hshard : block.HasShard shard)
    (outcome : MultichannelAudioReceiveOutcome) :
    (self.Ignores shard ∧ (self.pushShard outcome shard).2.uncounted = self.uncounted) ∨
    (¬ self.Ignores shard ∧ ((self.assemblyFor shard).push shard).2.isComplete = false ∧
      (self.pushShard outcome shard).2.uncounted = (self.filed shard).uncounted) ∨
    (¬ self.Ignores shard ∧ ∃ epoch, epoch.plain = (cutOf block).epoch.exact ∧
      (self.pushShard outcome shard).2.uncounted
        = ((self.filed shard).settled shard.blockId epoch).uncounted) := by
  by_cases hignores : self.Ignores shard
  · rw [pushShard_of_ignores hignores]
    exact Or.inl ⟨hignores, uncounted_countShard _⟩
  obtain ⟨hassembles, group, hresult, -⟩ := h.pushAssembly hcuts hblock hshard
  rw [pushShard_eq hignores, hresult]
  simp only
  split_ifs with hcomplete
  · obtain ⟨epoch, hfinish, hexact⟩ := hassembles.finish hcomplete
    refine Or.inr (Or.inr ⟨hignores, epoch, hexact, ?_⟩)
    rw [MultichannelAudioReceiver.completeEpoch, hfinish]
    cases group <;> rfl
  · exact Or.inr (Or.inl ⟨hignores, Bool.eq_false_iff.mpr hcomplete, uncounted_countGroup _⟩)

/-! ## Staying in flight -/

/-- The block is not ignored and its epoch is not late, and when it is in flight, what is behind it
is in `s`, a set that is within the limit. -/
structure Waits (s : Finset UInt32) (blockId : UInt32) (ptsSamples : UInt64)
    (maxInflight maxIgnored : ℕ) (receiver : MultichannelAudioReceiver X) : Prop
    extends receiver.Bounded maxInflight maxIgnored where
  few : s.card ≤ maxInflight
  notIgnored : blockId ∉ receiver.ignoredBlocks
  early : receiver.isLate ptsSamples = false
  queued : blockId ∈ receiver.inflight → BehindIn s blockId receiver.inflightOrder

section Waits

variable {s : Finset UInt32} {blockId other : UInt32} {ptsSamples : UInt64}
  {maxInflight maxIgnored : ℕ} {shard : DecodedMultichannelAudioShard}

/-- Only the queues and the cursor matter. -/
lemma Waits.of_eq (h : self.Waits s blockId ptsSamples maxInflight maxIgnored)
    (hqueues : next.queues = self.queues) (hearly : next.isLate ptsSamples = false) :
    next.Waits s blockId ptsSamples maxInflight maxIgnored := by
  have hbounded := h.toBounded.of_eq hqueues
  simp only [queues, Prod.mk.injEq] at hqueues
  obtain ⟨hinflight, horder, hignored, -⟩ := hqueues
  refine ⟨hbounded, h.few, ?_, hearly, ?_⟩
  · rw [hignored]
    exact h.notIgnored
  · rw [hinflight, horder]
    exact h.queued

/-- What does not depend on the counters. -/
lemma eq_of_uncounted (h : next.uncounted = self.uncounted) :
    next.decoder = self.decoder ∧ next.playout = self.playout ∧ next.inflight = self.inflight := by
  have hdecoder : next.uncounted.decoder = self.uncounted.decoder := by rw [h]
  have hplayout : next.uncounted.playout = self.uncounted.playout := by rw [h]
  have hinflight : next.uncounted.inflight = self.uncounted.inflight := by rw [h]
  exact ⟨hdecoder, hplayout, hinflight⟩

/-- The counters do not matter. -/
lemma Waits.congr (h : self.Waits s blockId ptsSamples maxInflight maxIgnored)
    (heq : next.uncounted = self.uncounted) :
    next.Waits s blockId ptsSamples maxInflight maxIgnored ∧ next.inflight = self.inflight := by
  obtain ⟨-, hplayout, hinflight⟩ := eq_of_uncounted heq
  have hqueues : next.uncounted.queues = self.uncounted.queues := by rw [heq]
  refine ⟨h.of_eq hqueues ?_, hinflight⟩
  rw [isLate, hplayout]
  exact h.early

/-- The oldest epoch in flight is given up, which is another one. -/
lemma Bounded.dropOldest_other (h : self.Bounded maxInflight maxIgnored) {oldest : UInt32}
    {rest : List UInt32} (horder : self.inflightOrder = oldest :: rest) (hne : oldest ≠ blockId)
    (hnot : blockId ∉ self.ignoredBlocks) :
    (self.dropOldest oldest rest).inflight.lookup blockId = self.inflight.lookup blockId ∧
      blockId ∉ (self.dropOldest oldest rest).ignoredBlocks := by
  have hlist := h.inflightOrder
  rw [horder] at hlist
  have hmem : oldest ∈ self.inflight :=
    Finmap.mem_keys.mp ((hlist.mem_iff oldest).mp List.mem_cons_self)
  have herased : Bounded maxInflight maxIgnored (countDropped { self with
      inflight := self.inflight.erase oldest, inflightOrder := rest }) :=
    (h.erase hlist.tail).of_eq rfl
  obtain ⟨-, hinflight, -, hignored⟩ := herased.rememberIgnored (Finmap.notMem_erase_self)
  rw [MultichannelAudioReceiver.dropOldest, if_pos hmem, hinflight]
  refine ⟨Finmap.lookup_erase_ne hne.symm, fun hin => ?_⟩
  rcases hignored blockId hin with hsame | hold
  · exact hne hsame.symm
  · exact hnot hold

/-- **The loop that makes room** for another epoch does not give up an epoch with few behind it. -/
lemma Bounded.dropWhileFull_behind (h : self.Bounded maxInflight maxIgnored)
    (hfew : s.card ≤ maxInflight) (hother : other ∉ self.inflight) (hin : blockId ∈ s)
    (hbehind : BehindIn s blockId (self.inflightOrder ++ [other]))
    (hnot : blockId ∉ self.ignoredBlocks) :
    let room := MultichannelAudioReceiver.dropWhileFull self.inflightOrder self
    room.inflight.lookup blockId = self.inflight.lookup blockId ∧
      blockId ∉ room.ignoredBlocks ∧ BehindIn s blockId (room.inflightOrder ++ [other]) := by
  obtain ⟨order, horder⟩ : ∃ order, self.inflightOrder = order := ⟨_, rfl⟩
  simp only [horder] at hbehind ⊢
  induction order generalizing self with
  | nil =>
      rw [MultichannelAudioReceiver.dropWhileFull, horder]
      exact ⟨rfl, hnot, hbehind⟩
  | cons oldest rest ih =>
      rw [MultichannelAudioReceiver.dropWhileFull, h.maxInflightEpochs_eq]
      split_ifs with hfull
      · have hkey : other ∉ self.inflight.keys := fun hmem => hother (Finmap.mem_keys.mp hmem)
        have hnodup := (h.inflightOrder.snoc hkey).nodup
        have hlen := h.inflightOrder.length_eq
        rw [horder, List.cons_append] at hnodup
        rw [horder, List.length_cons] at hlen
        rw [List.cons_append] at hbehind
        have hlong : s.card < (oldest :: (rest ++ [other])).length := by
          rw [List.length_cons, List.length_append, List.length_singleton, hlen]
          exact Nat.lt_succ_of_le (Nat.le_trans hfew hfull)
        have hne := hbehind.oldest_ne hnodup hin hlong
        obtain ⟨hdropped, hrest, -⟩ := h.dropOldest horder
        obtain ⟨hlookup, hnot'⟩ := h.dropOldest_other horder hne hnot
        obtain ⟨hlookup', hrest'⟩ := ih hdropped ((sheds_dropOldest self oldest rest).notMem hother)
          hnot' hrest (hbehind.tail hne)
        exact ⟨hlookup'.trans hlookup, hrest'⟩
      · rw [horder]
        exact ⟨rfl, hnot, hbehind⟩

/-- **A shard is filed**, of the block or of another one that may come behind it. -/
theorem Waits.filed (h : self.Waits s blockId ptsSamples maxInflight maxIgnored)
    (hpos : 0 < maxInflight) (hnot : shard.blockId ∉ self.ignoredBlocks)
    (hlate : shard.blockId = blockId ∨ blockId ∈ self.inflight → shard.blockId ∈ s ∧ blockId ∈ s) :
    (self.filed shard).Waits s blockId ptsSamples maxInflight maxIgnored ∧
      (shard.blockId ≠ blockId →
        (self.filed shard).inflight.lookup blockId = self.inflight.lookup blockId) := by
  have hbounded := h.toBounded.filed hpos hnot
  have hsheds : Sheds self (self.withSlot shard) := sheds_withSlot
  have hearly : (self.filed shard).isLate ptsSamples = false := by
    rw [isLate]
    change (self.withSlot shard).playout.isLate ptsSamples = false
    rw [hsheds.playout]
    exact h.early
  -- what remains is about the slot, and about what is behind the block then
  have hfiled : ∀ room : MultichannelAudioReceiver X, self.withSlot shard = room →
      room.inflight.lookup blockId = self.inflight.lookup blockId ∧
      blockId ∉ room.ignoredBlocks ∧
      (shard.blockId = blockId ∨ blockId ∈ self.inflight → BehindIn s blockId
        (if shard.blockId ∈ room.inflight then room.inflightOrder
          else room.inflightOrder ++ [shard.blockId])) →
      (self.filed shard).Waits s blockId ptsSamples maxInflight maxIgnored ∧
        (shard.blockId ≠ blockId →
          (self.filed shard).inflight.lookup blockId = self.inflight.lookup blockId) := by
    rintro room rfl ⟨hlookup, hnot', hbehind⟩
    refine ⟨⟨hbounded, h.few, hnot', hearly, fun hin => hbehind ?_⟩, fun hne => ?_⟩
    · rcases Finmap.mem_insert.mp hin with hsame | hold
      · exact Or.inl hsame.symm
      · obtain ⟨assembly, hsome⟩ := Finmap.mem_iff.mp hold
        exact Or.inr (Finmap.mem_iff.mpr ⟨assembly, hlookup ▸ hsome⟩)
    · exact (Finmap.lookup_insert_of_ne _ hne.symm).trans hlookup
  obtain ⟨hcounted, hinflight⟩ := h.congr (uncounted_countShard shard.recovery)
  by_cases hin : shard.blockId ∈ self.inflight
  · have hslot : self.withSlot shard = self.countShard shard.recovery := by
      rw [withSlot, ensureInflightSlot, if_pos (by rwa [hinflight])]
    refine hfiled _ hslot ⟨by rw [hinflight], hcounted.notIgnored, fun hflight => ?_⟩
    rw [if_pos (by rwa [hinflight])]
    refine hcounted.queued ?_
    rw [hinflight]
    rcases hflight with rfl | hold
    · exact hin
    · exact hold
  · have hnew : shard.blockId ∉ (self.countShard shard.recovery).inflight := by rwa [hinflight]
    have hslot : self.withSlot shard = dropWhileFull (self.countShard shard.recovery).inflightOrder
        (self.countShard shard.recovery) := by
      rw [withSlot, ensureInflightSlot, if_neg hnew]
    have hstill := hsheds.notMem hin
    refine hfiled _ hslot ?_
    rw [hslot] at hstill
    rw [if_neg hstill]
    by_cases hflight : shard.blockId = blockId ∨ blockId ∈ self.inflight
    · obtain ⟨hs, hs'⟩ := hlate hflight
      have hbehind : BehindIn s blockId
          ((self.countShard shard.recovery).inflightOrder ++ [shard.blockId]) := by
        rcases hflight with rfl | hold
        · exact BehindIn.last s _ _
        · exact (hcounted.queued (by rwa [hinflight])).snoc hs
      obtain ⟨hlookup, hnot', hbehind'⟩ := hcounted.toBounded.dropWhileFull_behind h.few hnew hs'
        hbehind hcounted.notIgnored
      exact ⟨hlookup.trans (by rw [hinflight]), hnot', fun _ => hbehind'⟩
    · have hgone : blockId ∉ self.inflight := fun hmem => hflight (Or.inr hmem)
      obtain ⟨-, -, hback⟩ := hcounted.toBounded.dropWhileFull hpos
      refine ⟨?_, fun hmem => ?_, fun hin' => absurd hin' hflight⟩
      · rw [Finmap.lookup_eq_none.mpr hgone, ← hslot]
        exact Finmap.lookup_eq_none.mpr (hsheds.notMem hgone)
      · rcases hback blockId hmem with hold | hold
        · rw [hinflight] at hold
          exact hgone hold
        · exact hcounted.notIgnored hold

/-- Another epoch is complete. -/
lemma Waits.settled (h : self.Waits s blockId ptsSamples maxInflight maxIgnored)
    (hne : other ≠ blockId) (epoch : DecodedMultichannelAudioEpoch) :
    (self.settled other epoch).Waits s blockId ptsSamples maxInflight maxIgnored ∧
      (self.settled other epoch).inflight.lookup blockId = self.inflight.lookup blockId := by
  have herased := h.toBounded.erase (h.inflightOrder.filter_ne other)
  refine ⟨⟨herased.of_eq rfl, h.few, h.notIgnored, ?_, fun hin => ?_⟩,
    Finmap.lookup_erase_ne hne.symm⟩
  · have hearly := h.early
    rw [isLate, ExactMultichannelAudioPlayoutBuffer.isLate] at hearly ⊢
    change ((self.playout.insert epoch).2.lastPlayedPts.any _) = false
    rw [(ExactMultichannelAudioPlayoutBuffer.lastPlayedPts_insert self.playout epoch).1]
    exact hearly
  · exact (h.queued (Finmap.mem_erase.mp hin).2).filter_ne hne

/-- Another epoch is given up. -/
lemma Waits.dropInflight (h : self.Waits s blockId ptsSamples maxInflight maxIgnored)
    (hne : other ≠ blockId) :
    (self.dropInflight other).Waits s blockId ptsSamples maxInflight maxIgnored ∧
      (self.dropInflight other).inflight.lookup blockId = self.inflight.lookup blockId := by
  have herased := h.toBounded.erase (h.inflightOrder.filter_ne other)
  obtain ⟨hbounded, hinflight, horder, hignored⟩ :=
    herased.rememberIgnored (Finmap.notMem_erase_self)
  have hsheds := sheds_dropInflight self other
  refine ⟨⟨hbounded, h.few, fun hin => ?_, ?_, fun hin => ?_⟩, ?_⟩
  · rcases hignored blockId hin with hsame | hold
    · exact hne hsame.symm
    · exact h.notIgnored hold
  · rw [isLate, hsheds.playout]
    exact h.early
  · rw [MultichannelAudioReceiver.dropInflight, horder]
    rw [MultichannelAudioReceiver.dropInflight, hinflight] at hin
    exact (h.queued (Finmap.mem_erase.mp hin).2).filter_ne hne
  · rw [MultichannelAudioReceiver.dropInflight, hinflight]
    exact Finmap.lookup_erase_ne hne.symm

/-- Other epochs are given up, one after the other. -/
lemma Waits.dropAll {drop : MultichannelAudioReceiver X → UInt32 → MultichannelAudioReceiver X}
    (hdrop : ∀ self other, (drop self other).uncounted = (self.dropInflight other).uncounted)
    (h : self.Waits s blockId ptsSamples maxInflight maxIgnored) {others : List UInt32}
    (hne : ∀ other ∈ others, other ≠ blockId) :
    (others.foldl drop self).Waits s blockId ptsSamples maxInflight maxIgnored ∧
      (others.foldl drop self).inflight.lookup blockId = self.inflight.lookup blockId := by
  induction others generalizing self with
  | nil => exact ⟨h, rfl⟩
  | cons other others ih =>
      obtain ⟨hdropped, hlookup⟩ := h.dropInflight (hne other List.mem_cons_self)
      obtain ⟨hnext, hinflight⟩ := hdropped.congr (hdrop self other)
      obtain ⟨hall, hlookup'⟩ := ih hnext fun y hy => hne y (List.mem_cons_of_mem _ hy)
      exact ⟨hall, hlookup'.trans ((congrArg (Finmap.lookup blockId) hinflight).trans hlookup)⟩

end Waits

end MultichannelAudioReceiver

end RaptorFec
