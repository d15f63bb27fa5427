import RaptorFec.Session.Steps

/-!
# The state of the receiver is bounded

Whatever is pushed, read and expired, the two queues of the receiver list the blocks in flight and
the ignored blocks, within their limits and apart from each other.

* `Bounded` — this invariant, with the limits;
* `rememberIgnored_eq` — what remembering an ignored block does;
* `Bounded.withSlot` — the slot for a block is claimed before its assembly exists: there is room for
  it, and claiming the slot does not make the block itself ignored;
* `Bounded.step`, `receiver_bounded` — every call keeps the bounds, and so does every run.
-/

namespace RaptorFec

namespace MultichannelAudioReceiver

variable {X : Crates}

/-- The two queues list the blocks in flight and the ignored blocks, which stay within their limits
and apart from each other. -/
structure Bounded (maxInflight maxIgnored : ℕ) (receiver : MultichannelAudioReceiver X) : Prop where
  inflightOrder : Enumerates receiver.inflightOrder receiver.inflight.keys
  ignoredOrder : Enumerates receiver.ignoredOrder receiver.ignoredBlocks
  disjoint : Disjoint receiver.inflight.keys receiver.ignoredBlocks
  inflight_le : receiver.inflight.len ≤ maxInflight
  ignored_le : receiver.ignoredOrder.length ≤ maxIgnored
  maxInflightEpochs_eq : receiver.maxInflightEpochs = maxInflight
  maxIgnoredBlocks_eq : receiver.maxIgnoredBlocks = maxIgnored

/-- What the bounds are about. -/
def queues (self : MultichannelAudioReceiver X) :
    HashMap UInt32 EpochAssembly × List UInt32 × Finset UInt32 × List UInt32 × ℕ × ℕ :=
  (self.inflight, self.inflightOrder, self.ignoredBlocks, self.ignoredOrder,
    self.maxInflightEpochs, self.maxIgnoredBlocks)

variable {self next : MultichannelAudioReceiver X} {blockId : UInt32} {maxInflight maxIgnored : ℕ}

/-- The bounds do not depend on the rest of the state. -/
lemma Bounded.of_eq (h : self.Bounded maxInflight maxIgnored) (hqueues : next.queues = self.queues) :
    next.Bounded maxInflight maxIgnored := by
  simp only [queues, Prod.mk.injEq] at hqueues
  obtain ⟨hinflight, horder, hignored, hignoredOrder, hmaxInflight, hmaxIgnored⟩ := hqueues
  constructor
  · rw [horder, hinflight]
    exact h.inflightOrder
  · rw [hignoredOrder, hignored]
    exact h.ignoredOrder
  · rw [hinflight, hignored]
    exact h.disjoint
  · rw [hinflight]
    exact h.inflight_le
  · rw [hignoredOrder]
    exact h.ignored_le
  · rw [hmaxInflight]
    exact h.maxInflightEpochs_eq
  · rw [hmaxIgnored]
    exact h.maxIgnoredBlocks_eq

/-! ## What is ignored is remembered -/

section Remember

variable (self)

lemma trimIgnored_eq (h : Enumerates self.ignoredOrder self.ignoredBlocks) :
    ∃ ignored, Enumerates (trim self.maxIgnoredBlocks self.ignoredOrder) ignored ∧
      trimIgnored self.ignoredOrder self = { self with
        ignoredBlocks := ignored
        ignoredOrder := trim self.maxIgnoredBlocks self.ignoredOrder } :=
  trim_loop trimIgnored
    (fun order ignored => { self with ignoredBlocks := ignored, ignoredOrder := order })
    (fun _ => rfl) (fun _ _ _ => rfl) h

/-- **What `remember_ignored` does**: it remembers the block in the queue of ignored blocks. -/
theorem rememberIgnored_eq (h : Enumerates self.ignoredOrder self.ignoredBlocks)
    (blockId : UInt32) :
    ∃ ignored, Enumerates (remember self.maxIgnoredBlocks self.ignoredOrder blockId) ignored ∧
      self.rememberIgnored blockId = { self with
        ignoredBlocks := ignored
        ignoredOrder := remember self.maxIgnoredBlocks self.ignoredOrder blockId } := by
  rw [rememberIgnored, remember]
  by_cases hmem : blockId ∈ self.ignoredBlocks
  · rw [if_pos hmem, if_pos ((h.mem_iff _).mpr hmem)]
    exact self.trimIgnored_eq h
  · rw [if_neg hmem, if_neg fun hin => hmem ((h.mem_iff _).mp hin)]
    exact trimIgnored_eq { self with
      ignoredBlocks := insert blockId self.ignoredBlocks
      ignoredOrder := self.ignoredOrder ++ [blockId] } (h.snoc hmem)

end Remember

/-- A block that is not in flight can be ignored. -/
lemma Bounded.rememberIgnored (h : self.Bounded maxInflight maxIgnored)
    (hnot : blockId ∉ self.inflight) :
    (self.rememberIgnored blockId).Bounded maxInflight maxIgnored ∧
      (self.rememberIgnored blockId).inflight = self.inflight ∧
      (self.rememberIgnored blockId).inflightOrder = self.inflightOrder ∧
      ∀ id ∈ (self.rememberIgnored blockId).ignoredBlocks,
        id = blockId ∨ id ∈ self.ignoredBlocks := by
  obtain ⟨ignored, horder, hremember⟩ := self.rememberIgnored_eq h.ignoredOrder blockId
  have hnotKey : blockId ∉ self.inflight.keys := fun hkey => hnot (Finmap.mem_keys.mp hkey)
  rw [hremember]
  refine ⟨⟨h.inflightOrder, horder, disjoint_remember h.disjoint h.ignoredOrder horder hnotKey,
    h.inflight_le, ?_, h.maxInflightEpochs_eq, h.maxIgnoredBlocks_eq⟩, rfl, rfl, fun id hid => ?_⟩
  · exact Nat.le_trans (length_remember_le _ _ _) (Nat.le_of_eq h.maxIgnoredBlocks_eq)
  · rcases mem_of_mem_remember ((horder.mem_iff id).mpr hid) with rfl | hold
    · exact Or.inl rfl
    · exact Or.inr ((h.ignoredOrder.mem_iff id).mp hold)

/-! ## Blocks that are given up -/

lemma len_erase_le (map : HashMap UInt32 EpochAssembly) (blockId : UInt32) :
    HashMap.len (map.erase blockId) ≤ map.len := by
  rw [HashMap.len, Finmap.keys_erase]
  exact Finset.card_erase_le

/-- A block leaves the blocks in flight. -/
lemma Bounded.erase (h : self.Bounded maxInflight maxIgnored) {order : List UInt32}
    (horder : Enumerates order (self.inflight.keys.erase blockId)) :
    Bounded maxInflight maxIgnored { self with
      inflight := self.inflight.erase blockId, inflightOrder := order } where
  inflightOrder := by
    rw [Finmap.keys_erase]
    exact horder
  ignoredOrder := h.ignoredOrder
  disjoint := by
    rw [Finmap.keys_erase]
    exact h.disjoint.mono_left (Finset.erase_subset _ _)
  inflight_le := Nat.le_trans (len_erase_le _ _) h.inflight_le
  ignored_le := h.ignored_le
  maxInflightEpochs_eq := h.maxInflightEpochs_eq
  maxIgnoredBlocks_eq := h.maxIgnoredBlocks_eq

lemma Bounded.dropInflight (h : self.Bounded maxInflight maxIgnored) (blockId : UInt32) :
    (self.dropInflight blockId).Bounded maxInflight maxIgnored := by
  have herased := h.erase (h.inflightOrder.filter_ne blockId)
  exact (herased.rememberIgnored (Finmap.notMem_erase_self)).1

/-- The oldest block in flight is given up, and ignored. -/
lemma Bounded.dropOldest (h : self.Bounded maxInflight maxIgnored) {oldest : UInt32}
    {rest : List UInt32} (horder : self.inflightOrder = oldest :: rest) :
    (self.dropOldest oldest rest).Bounded maxInflight maxIgnored ∧
      (self.dropOldest oldest rest).inflightOrder = rest ∧
      ∀ id ∈ (self.dropOldest oldest rest).ignoredBlocks,
        id ∈ self.inflight ∨ id ∈ self.ignoredBlocks := by
  have hlist := h.inflightOrder
  rw [horder] at hlist
  have hmem : oldest ∈ self.inflight :=
    Finmap.mem_keys.mp ((hlist.mem_iff oldest).mp List.mem_cons_self)
  have herased : Bounded maxInflight maxIgnored (countDropped { self with
      inflight := self.inflight.erase oldest, inflightOrder := rest }) :=
    (h.erase hlist.tail).of_eq rfl
  obtain ⟨hbounded, -, hrest, hignored⟩ := herased.rememberIgnored (Finmap.notMem_erase_self)
  rw [MultichannelAudioReceiver.dropOldest, if_pos hmem]
  refine ⟨hbounded, hrest, fun id hid => ?_⟩
  rcases hignored id hid with rfl | hold
  · exact Or.inl hmem
  · exact Or.inr hold

/-- **The loop of `ensure_inflight_slot`** makes room for one block, and only blocks that were in
flight become ignored. -/
lemma Bounded.dropWhileFull (h : self.Bounded maxInflight maxIgnored) (hpos : 0 < maxInflight) :
    (dropWhileFull self.inflightOrder self).Bounded maxInflight maxIgnored ∧
      (dropWhileFull self.inflightOrder self).inflight.len < maxInflight ∧
      ∀ id ∈ (dropWhileFull self.inflightOrder self).ignoredBlocks,
        id ∈ self.inflight ∨ id ∈ self.ignoredBlocks := by
  obtain ⟨order, horder⟩ : ∃ order, self.inflightOrder = order := ⟨_, rfl⟩
  rw [horder]
  induction order generalizing self with
  | nil =>
      have hlen := h.inflightOrder.length_eq
      rw [horder] at hlen
      exact ⟨h, Nat.lt_of_le_of_lt (Nat.le_of_eq hlen.symm) hpos, fun id hid => Or.inr hid⟩
  | cons oldest rest ih =>
      rw [MultichannelAudioReceiver.dropWhileFull, h.maxInflightEpochs_eq]
      by_cases hfull : maxInflight ≤ self.inflight.len
      · rw [if_pos hfull]
        obtain ⟨hdropped, hrest, hignored⟩ := h.dropOldest horder
        obtain ⟨hbounded, hroom, hback⟩ := ih hdropped hrest
        refine ⟨hbounded, hroom, fun id hid => ?_⟩
        rcases hback id hid with hin | hold
        · obtain ⟨assembly, hlookup⟩ := Finmap.mem_iff.mp hin
          exact Or.inl (Finmap.mem_iff.mpr ⟨assembly,
            (sheds_dropOldest self oldest rest).inflight id assembly hlookup⟩)
        · exact hignored id hold
      · rw [if_neg hfull]
        exact ⟨h, Nat.lt_of_not_le hfull, fun id hid => Or.inr hid⟩

/-! ## Pushes -/

/-- **A slot is claimed**: the block is in flight or there is room for it, and it is not ignored
unless it was. -/
lemma Bounded.withSlot (h : self.Bounded maxInflight maxIgnored) (hpos : 0 < maxInflight)
    {shard : DecodedMultichannelAudioShard} (hnot : shard.blockId ∉ self.ignoredBlocks) :
    (self.withSlot shard).Bounded maxInflight maxIgnored ∧
      shard.blockId ∉ (self.withSlot shard).ignoredBlocks ∧
      (shard.blockId ∈ (self.withSlot shard).inflight ∨
        (self.withSlot shard).inflight.len < maxInflight) := by
  have hcounted : (self.countShard shard.recovery).Bounded maxInflight maxIgnored := by
    refine h.of_eq ?_
    cases shard.recovery <;> rfl
  have hignored : (self.countShard shard.recovery).ignoredBlocks = self.ignoredBlocks := by
    cases shard.recovery <;> rfl
  rw [MultichannelAudioReceiver.withSlot, ensureInflightSlot]
  by_cases hin : shard.blockId ∈ (self.countShard shard.recovery).inflight
  · rw [if_pos hin, hignored]
    exact ⟨hcounted, hnot, Or.inl hin⟩
  · rw [if_neg hin]
    obtain ⟨hbounded, hroom, hback⟩ := hcounted.dropWhileFull hpos
    refine ⟨hbounded, fun hmem => ?_, Or.inr hroom⟩
    rcases hback _ hmem with hold | hold
    · exact hin hold
    · rw [hignored] at hold
      exact hnot hold

/-- The assembly is entered into the slot. -/
lemma Bounded.filed (h : self.Bounded maxInflight maxIgnored) (hpos : 0 < maxInflight)
    {shard : DecodedMultichannelAudioShard} (hnot : shard.blockId ∉ self.ignoredBlocks) :
    (self.filed shard).Bounded maxInflight maxIgnored := by
  obtain ⟨hslot, hnotIgnored, hroom⟩ := h.withSlot hpos hnot
  have hdisjoint : Disjoint (insert shard.blockId (self.withSlot shard).inflight.keys)
      (self.withSlot shard).ignoredBlocks :=
    Finset.disjoint_insert_left.mpr ⟨hnotIgnored, hslot.disjoint⟩
  by_cases hin : shard.blockId ∈ (self.withSlot shard).inflight
  · have hkey : insert shard.blockId (self.withSlot shard).inflight.keys
        = (self.withSlot shard).inflight.keys :=
      Finset.insert_eq_of_mem (Finmap.mem_keys.mpr hin)
    rw [MultichannelAudioReceiver.filed, if_pos hin]
    refine ⟨?_, hslot.ignoredOrder, ?_, ?_, hslot.ignored_le, hslot.maxInflightEpochs_eq,
      hslot.maxIgnoredBlocks_eq⟩
    · rw [HashMap.keys_insert, hkey]
      exact hslot.inflightOrder
    · rw [HashMap.keys_insert]
      exact hdisjoint
    · rw [HashMap.len, HashMap.keys_insert, hkey]
      exact hslot.inflight_le
  · have hkey : shard.blockId ∉ (self.withSlot shard).inflight.keys :=
      fun hmem => hin (Finmap.mem_keys.mp hmem)
    rw [MultichannelAudioReceiver.filed, if_neg hin]
    refine ⟨?_, hslot.ignoredOrder, ?_, ?_, hslot.ignored_le, hslot.maxInflightEpochs_eq,
      hslot.maxIgnoredBlocks_eq⟩
    · rw [HashMap.keys_insert]
      exact hslot.inflightOrder.snoc hkey
    · rw [HashMap.keys_insert]
      exact hdisjoint
    · rw [HashMap.len, HashMap.keys_insert, Finset.card_insert_of_notMem hkey]
      exact hroom.resolve_left hin

lemma Bounded.completeEpoch (h : self.Bounded maxInflight maxIgnored) (blockId : UInt32)
    (assembly : EpochAssembly) (outcome : MultichannelAudioReceiveOutcome) :
    (self.completeEpoch blockId assembly outcome).2.Bounded maxInflight maxIgnored := by
  have herased := h.erase (h.inflightOrder.filter_ne blockId)
  rw [MultichannelAudioReceiver.completeEpoch]
  cases assembly.finish with
  | error error => exact herased
  | ok epoch => exact herased.of_eq rfl

lemma Bounded.pushShard (h : self.Bounded maxInflight maxIgnored) (hpos : 0 < maxInflight)
    (outcome : MultichannelAudioReceiveOutcome) (shard : DecodedMultichannelAudioShard) :
    (self.pushShard outcome shard).2.Bounded maxInflight maxIgnored := by
  by_cases hignores : self.Ignores shard
  · rw [pushShard_of_ignores hignores]
    refine h.of_eq ?_
    cases shard.recovery <;> rfl
  · have hfiled := h.filed hpos (not_or.mp hignores).1
    rw [pushShard_eq hignores]
    cases ((self.assemblyFor shard).push shard).1 with
    | none => exact hfiled
    | some result =>
        cases result with
        | error error => exact hfiled
        | ok group =>
            have hcounted : ((self.filed shard).countGroup group).Bounded maxInflight maxIgnored := by
              refine hfiled.of_eq ?_
              cases group <;> rfl
            simp only
            split_ifs
            · exact hcounted.completeEpoch _ _ _
            · exact hcounted

lemma Bounded.pushShards (h : self.Bounded maxInflight maxIgnored) (hpos : 0 < maxInflight)
    (shards : List DecodedMultichannelAudioShard) (outcome : MultichannelAudioReceiveOutcome) :
    (pushShards shards outcome self).2.Bounded maxInflight maxIgnored := by
  induction shards generalizing self outcome with
  | nil => exact h
  | cons shard shards ih =>
      have hshard := h.pushShard hpos outcome shard
      rw [MultichannelAudioReceiver.pushShards]
      split
      · rename_i outcome' self' hpush
        rw [hpush] at hshard
        exact ih hshard outcome'
      · rename_i result self' _ hpush
        rw [hpush] at hshard
        exact hshard

/-- **A push keeps the bounds**, whatever the datagram is and however the push ends. -/
theorem Bounded.pushDatagram (h : self.Bounded maxInflight maxIgnored) (hpos : 0 < maxInflight)
    (datagram : Bytes) : (self.pushDatagram datagram).2.Bounded maxInflight maxIgnored := by
  rw [MultichannelAudioReceiver.pushDatagram]
  cases hpush : self.decoder.pushDatagram datagram with
  | mk result decoder =>
      cases result with
      | error error => exact h.of_eq rfl
      | ok shards =>
          have hreceived : Bounded maxInflight maxIgnored { self with
              stats := { self.stats with
                datagramsReceived := satAdd self.stats.datagramsReceived 1 }
              decoder := decoder } := h.of_eq rfl
          exact hreceived.pushShards hpos shards _

/-! ## Reads and expiries -/

lemma Bounded.abandonInflightThrough (h : self.Bounded maxInflight maxIgnored)
    (order : HashMap.Iteration UInt32 EpochAssembly) (ptsSamples : UInt64) :
    (self.abandonInflightThrough order ptsSamples).Bounded maxInflight maxIgnored := by
  rw [MultichannelAudioReceiver.abandonInflightThrough]
  generalize self.inflightBlocks order _ = blocks
  induction blocks generalizing self with
  | nil => exact h
  | cons blockId blocks ih =>
      have hdropped : (self.dropInflight blockId).countDropped.Bounded maxInflight maxIgnored :=
        (h.dropInflight blockId).of_eq rfl
      exact ih hdropped

lemma Bounded.takeForPlayout (h : self.Bounded maxInflight maxIgnored)
    (order : HashMap.Iteration UInt32 EpochAssembly) (ptsSamples : UInt64) :
    (self.takeForPlayout order ptsSamples).2.Bounded maxInflight maxIgnored := by
  have habandoned := h.abandonInflightThrough order ptsSamples
  rw [MultichannelAudioReceiver.takeForPlayout]
  simp only
  split
  · exact habandoned.of_eq rfl
  · exact habandoned.of_eq rfl

lemma Bounded.dropAll (h : self.Bounded maxInflight maxIgnored) (blocks : List UInt32) :
    Bounded maxInflight maxIgnored
      (blocks.foldl (fun self blockId => self.dropInflight blockId) self) := by
  induction blocks generalizing self with
  | nil => exact h
  | cons blockId blocks ih => exact ih (h.dropInflight blockId)

lemma Bounded.expireBefore (h : self.Bounded maxInflight maxIgnored)
    (order : HashMap.Iteration UInt32 EpochAssembly) (ptsSamples : UInt64) :
    (self.expireBefore order ptsSamples).2.Bounded maxInflight maxIgnored := by
  have hplayout : Bounded maxInflight maxIgnored
      { self with playout := (self.playout.expireBefore ptsSamples).2 } := h.of_eq rfl
  exact (hplayout.dropAll _).of_eq rfl

/-! ## Runs -/

lemma Bounded.step (h : self.Bounded maxInflight maxIgnored) (hpos : 0 < maxInflight)
    (op : ReceiverOp) : (self.step op).2.Bounded maxInflight maxIgnored := by
  cases op with
  | push datagram => exact h.pushDatagram hpos datagram
  | take order ptsSamples => exact h.takeForPlayout order ptsSamples
  | expire order ptsSamples => exact h.expireBefore order ptsSamples

lemma bounded_new (config : MultichannelAudioSessionConfig) :
    Bounded (max config.maxInflightEpochs 1)
      (max (satMulUsize (max config.maxInflightEpochs 1) 4) 64)
      (new config : MultichannelAudioReceiver X) where
  inflightOrder := Enumerates.empty
  ignoredOrder := Enumerates.empty
  disjoint := Finset.disjoint_empty_right _
  inflight_le := Nat.zero_le _
  ignored_le := Nat.zero_le _
  maxInflightEpochs_eq := rfl
  maxIgnoredBlocks_eq := rfl

/-- **The receiver is bounded** in every state of every run.  Its two queues list the blocks in
flight and the ignored blocks, within their limits and apart from each other. -/
theorem receiver_bounded (config : MultichannelAudioSessionConfig) (ops : List ReceiverOp) :
    EveryState step (new config : MultichannelAudioReceiver X) ops fun _ self =>
      Enumerates self.inflightOrder self.inflight.keys ∧
      self.inflight.len ≤ self.maxInflightEpochs ∧
      Enumerates self.ignoredOrder self.ignoredBlocks ∧
      self.ignoredOrder.length ≤ self.maxIgnoredBlocks ∧
      Disjoint self.inflight.keys self.ignoredBlocks := by
  intro past hpre
  have hpos : 0 < max config.maxInflightEpochs 1 :=
    Nat.lt_of_lt_of_le Nat.one_pos (Nat.le_max_right _ _)
  have hbounded : Bounded (max config.maxInflightEpochs 1)
      (max (satMulUsize (max config.maxInflightEpochs 1) 4) 64)
      (runState step (new config : MultichannelAudioReceiver X) past) :=
    run_invariant_all (fun _ self => Bounded _ _ self) (bounded_new config)
      (fun _ _ op h => h.step hpos op) past
  exact ⟨hbounded.inflightOrder, hbounded.maxInflightEpochs_eq.symm ▸ hbounded.inflight_le,
    hbounded.ignoredOrder, hbounded.maxIgnoredBlocks_eq.symm ▸ hbounded.ignored_le,
    hbounded.disjoint⟩

end MultichannelAudioReceiver

end RaptorFec
