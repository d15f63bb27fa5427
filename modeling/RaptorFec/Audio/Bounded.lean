import RaptorFec.Audio.Decoder

/-!
# The state of the audio decoder is bounded

Whatever datagrams arrive, and whichever blocks are expired, the two queues list their sets, the
sets stay within their limits and apart from each other, and the datagram decoder holds no block
that is not in flight.

* `Bounded` — this invariant;
* `closeBlock_eq`, `observeInFlight_cases` — what closing and observing a block do;
* `Bounded.step` — every operation keeps the bounds;
* `queues_bounded` — they hold in every state of every run.
-/

namespace RaptorFec

variable {X : Crates}

namespace MultichannelAudioFecDecoder

/-! ## What is closed is remembered -/

section Remember

variable (self : MultichannelAudioFecDecoder X)

lemma trimCompleted_eq (h : Enumerates self.completedOrder self.completed) :
    ∃ completed, Enumerates (trim self.maxCompletedBlocks self.completedOrder) completed ∧
      trimCompleted self.completedOrder self = { self with
        completed := completed
        completedOrder := trim self.maxCompletedBlocks self.completedOrder } :=
  trim_loop trimCompleted
    (fun order completed => { self with completed := completed, completedOrder := order })
    (fun _ => rfl) (fun _ _ _ => rfl) h

/-- **What `remember_closed` does**: it remembers the block in the queue of closed blocks. -/
theorem rememberClosed_eq (h : Enumerates self.completedOrder self.completed)
    (blockId : UInt32) :
    ∃ completed,
      Enumerates (remember self.maxCompletedBlocks self.completedOrder blockId) completed ∧
      self.rememberClosed blockId = { self with
        completed := completed
        completedOrder := remember self.maxCompletedBlocks self.completedOrder blockId } := by
  rw [rememberClosed, remember]
  by_cases hmem : blockId ∈ self.completed
  · rw [if_pos hmem, if_pos ((h.mem_iff _).mpr hmem)]
    exact self.trimCompleted_eq h
  · rw [if_neg hmem, if_neg fun hin => hmem ((h.mem_iff _).mp hin)]
    exact trimCompleted_eq { self with
      completed := insert blockId self.completed
      completedOrder := self.completedOrder ++ [blockId] } (h.snoc hmem)

/-- What `close_block` does. -/
lemma closeBlock_eq (h : Enumerates self.completedOrder self.completed) (blockId : UInt32) :
    ∃ completed,
      Enumerates (remember self.maxCompletedBlocks self.completedOrder blockId) completed ∧
      self.closeBlock blockId = { self with
        inFlight := self.inFlight.erase blockId
        inFlightOrder := self.inFlightOrder.filter (· ≠ blockId)
        delivered := self.delivered.erase blockId
        completed := completed
        completedOrder := remember self.maxCompletedBlocks self.completedOrder blockId } :=
  rememberClosed_eq { self with
    inFlight := self.inFlight.erase blockId
    inFlightOrder := self.inFlightOrder.filter (· ≠ blockId)
    delivered := self.delivered.erase blockId } h blockId

end Remember

/-! ## The invariant -/

/-- The two queues list their sets, which stay within their limits and apart from each other. -/
structure Queued (decoder : MultichannelAudioFecDecoder X) : Prop where
  inFlightOrder : Enumerates decoder.inFlightOrder decoder.inFlight
  completedOrder : Enumerates decoder.completedOrder decoder.completed
  disjoint : Disjoint decoder.inFlight decoder.completed
  inFlight_le : decoder.inFlight.card ≤ decoder.maxInFlightBlocks
  completed_le : decoder.completed.card ≤ decoder.maxCompletedBlocks
  maxInFlightBlocks_pos : 0 < decoder.maxInFlightBlocks
  maxCompletedBlocks_pos : 0 < decoder.maxCompletedBlocks

/-- The bounds of the decoder: the datagram decoder holds blocks in flight only. -/
structure Bounded (decoder : MultichannelAudioFecDecoder X) : Prop extends Queued decoder where
  tracked : ∀ id ∈ decoder.fec.blocks, id ∈ decoder.inFlight

namespace Queued

variable {self : MultichannelAudioFecDecoder X} {blockId : UInt32}

/-- The queues do not depend on the datagram decoder and the delivered source indices. -/
lemma withState (h : Queued self) (fec : DatagramFecDecoder X)
    (delivered : HashMap UInt32 (Finset UInt16)) :
    Queued { self with fec := fec, delivered := delivered } :=
  ⟨h.inFlightOrder, h.completedOrder, h.disjoint, h.inFlight_le, h.completed_le,
    h.maxInFlightBlocks_pos, h.maxCompletedBlocks_pos⟩

lemma withFec (h : Queued self) (fec : DatagramFecDecoder X) :
    Queued { self with fec := fec } := h.withState fec self.delivered

lemma setDelivered (h : Queued self) (blockId : UInt32) (delivered : Finset UInt16) :
    Queued (self.setDelivered blockId delivered) := h.withState self.fec _

/-- A block that is not in flight can be remembered. -/
lemma rememberClosed (h : Queued self) (hnot : blockId ∉ self.inFlight) :
    Queued (self.rememberClosed blockId) := by
  obtain ⟨completed, horder, hclosed⟩ := self.rememberClosed_eq h.completedOrder blockId
  rw [hclosed]
  refine ⟨h.inFlightOrder, horder, disjoint_remember h.disjoint h.completedOrder horder hnot,
    h.inFlight_le, ?_, h.maxInFlightBlocks_pos, h.maxCompletedBlocks_pos⟩
  change completed.card ≤ self.maxCompletedBlocks
  rw [← horder.length_eq]
  exact length_remember_le _ _ _

lemma closeBlock (h : Queued self) (blockId : UInt32) : Queued (self.closeBlock blockId) := by
  refine Queued.rememberClosed ⟨h.inFlightOrder.filter_ne blockId, h.completedOrder, ?_, ?_,
    h.completed_le, h.maxInFlightBlocks_pos, h.maxCompletedBlocks_pos⟩ (Finset.notMem_erase _ _)
  · exact h.disjoint.mono_left (Finset.erase_subset _ _)
  · exact Nat.le_trans Finset.card_erase_le h.inFlight_le

end Queued

/-! ## Observing a block -/

section Observe

variable {self : MultichannelAudioFecDecoder X} {blockId : UInt32}

lemma evictOldest_of_le (h : self.inFlight.card ≤ self.maxInFlightBlocks) (order : List UInt32) :
    evictOldest order self = self := by
  cases order with
  | nil => rfl
  | cons oldest rest => rw [evictOldest, if_neg (Nat.not_lt.mpr h)]

/-- The decoder after a block was put in flight and the oldest one expired. -/
def evicted (decoder : MultichannelAudioFecDecoder X) (blockId oldest : UInt32)
    (rest : List UInt32) : MultichannelAudioFecDecoder X :=
  { decoder with
    inFlight := (insert blockId decoder.inFlight).erase oldest
    inFlightOrder := rest ++ [blockId]
    fec := decoder.fec.expireBlock oldest
    delivered := decoder.delivered.erase oldest }

/-- **What `observe_in_flight` does**: nothing for a block in flight; another block is put in
flight, and when that is one too many the oldest one is expired and remembered. -/
theorem observeInFlight_cases (h : Queued self) (blockId : UInt32) :
    (blockId ∈ self.inFlight ∧ self.observeInFlight blockId = self) ∨
    (blockId ∉ self.inFlight ∧ self.inFlight.card < self.maxInFlightBlocks ∧
      self.observeInFlight blockId = { self with
        inFlight := insert blockId self.inFlight
        inFlightOrder := self.inFlightOrder ++ [blockId] }) ∨
    (blockId ∉ self.inFlight ∧ ∃ oldest rest, self.inFlightOrder = oldest :: rest ∧
      self.inFlight.card = self.maxInFlightBlocks ∧
      self.observeInFlight blockId = (self.evicted blockId oldest rest).rememberClosed oldest) := by
  by_cases hmem : blockId ∈ self.inFlight
  · exact Or.inl ⟨hmem, by rw [observeInFlight, if_pos hmem]⟩
  have hcard : (insert blockId self.inFlight).card = self.inFlight.card + 1 :=
    Finset.card_insert_of_notMem hmem
  rcases Nat.lt_or_eq_of_le h.inFlight_le with hlt | heq
  · refine Or.inr (Or.inl ⟨hmem, hlt, ?_⟩)
    rw [observeInFlight, if_neg hmem]
    exact evictOldest_of_le (hcard.trans_le hlt) _
  · refine Or.inr (Or.inr ⟨hmem, ?_⟩)
    have hlen := h.inFlightOrder.length_eq
    have hpos := h.maxInFlightBlocks_pos
    cases hlist : self.inFlightOrder with
    | nil =>
        rw [hlist, List.length_nil] at hlen
        omega
    | cons oldest rest =>
        refine ⟨oldest, rest, rfl, heq, ?_⟩
        have holdest : oldest ∈ insert blockId self.inFlight :=
          Finset.mem_insert_of_mem ((h.inFlightOrder.mem_iff oldest).mp (by simp [hlist]))
        have hone : ((insert blockId self.inFlight).erase oldest).card
            = self.maxInFlightBlocks := by
          rw [Finset.card_erase_of_mem holdest, hcard, heq, Nat.add_sub_cancel]
        obtain ⟨completed, -, hremember⟩ := rememberClosed_eq
          (self.evicted blockId oldest rest) h.completedOrder oldest
        rw [observeInFlight, if_neg hmem]
        simp only [hlist, List.cons_append, evictOldest]
        rw [if_pos (by rw [hcard]; omega), evict]
        simp only [if_pos holdest]
        refine (evictOldest_of_le ?_ _).trans rfl
        change ((self.evicted blockId oldest rest).rememberClosed oldest).inFlight.card
          ≤ ((self.evicted blockId oldest rest).rememberClosed oldest).maxInFlightBlocks
        rw [hremember]
        exact Nat.le_of_eq hone

/-- A block that there is room for is put in flight, and nothing else happens. -/
lemma observeInFlight_of_room (h : Queued self)
    (hroom : (insert blockId self.inFlight).card ≤ self.maxInFlightBlocks) :
    (self.observeInFlight blockId).inFlight = insert blockId self.inFlight ∧
      (self.observeInFlight blockId).fec = self.fec ∧
      (self.observeInFlight blockId).completed = self.completed ∧
      (self.observeInFlight blockId).delivered = self.delivered := by
  rcases observeInFlight_cases h blockId with ⟨hmem, heq⟩ | ⟨-, -, heq⟩ |
    ⟨hnew, oldest, rest, -, hfull, -⟩
  · rw [heq, Finset.insert_eq_of_mem hmem]
    exact ⟨rfl, rfl, rfl, rfl⟩
  · rw [heq]
    exact ⟨rfl, rfl, rfl, rfl⟩
  · rw [Finset.card_insert_of_notMem hnew] at hroom
    omega

/-- A block that is not remembered can be observed. -/
lemma Queued.observeInFlight (h : Queued self) (hnot : blockId ∉ self.completed) :
    Queued (self.observeInFlight blockId) ∧ blockId ∈ (self.observeInFlight blockId).inFlight := by
  rcases observeInFlight_cases h blockId with ⟨hmem, heq⟩ | ⟨hnew, hlt, heq⟩ |
    ⟨hnew, oldest, rest, hlist, hfull, heq⟩
  · rw [heq]
    exact ⟨h, hmem⟩
  · rw [heq]
    refine ⟨⟨h.inFlightOrder.snoc hnew, h.completedOrder, ?_, ?_, h.completed_le,
      h.maxInFlightBlocks_pos, h.maxCompletedBlocks_pos⟩, Finset.mem_insert_self _ _⟩
    · exact Finset.disjoint_insert_left.mpr ⟨hnot, h.disjoint⟩
    · exact Nat.le_trans (Nat.le_of_eq (Finset.card_insert_of_notMem hnew)) hlt
  · have horder := h.inFlightOrder.snoc hnew
    rw [hlist, List.cons_append] at horder
    have holdest : oldest ∈ self.inFlight := (h.inFlightOrder.mem_iff oldest).mp (by simp [hlist])
    have hne : blockId ≠ oldest := by
      rintro rfl
      exact hnew holdest
    have hcard : ((insert blockId self.inFlight).erase oldest).card
        = self.maxInFlightBlocks := by
      rw [Finset.card_erase_of_mem (Finset.mem_insert_of_mem holdest),
        Finset.card_insert_of_notMem hnew, hfull, Nat.add_sub_cancel]
    have hdisjoint : Disjoint ((insert blockId self.inFlight).erase oldest) self.completed :=
      (Finset.disjoint_insert_left.mpr ⟨hnot, h.disjoint⟩).mono_left (Finset.erase_subset _ _)
    have hevicted : Queued (self.evicted blockId oldest rest) :=
      ⟨horder.tail, h.completedOrder, hdisjoint, Nat.le_of_eq hcard, h.completed_le,
        h.maxInFlightBlocks_pos, h.maxCompletedBlocks_pos⟩
    rw [heq]
    refine ⟨hevicted.rememberClosed (Finset.notMem_erase _ _), ?_⟩
    obtain ⟨completed, -, hremember⟩ := rememberClosed_eq
      (self.evicted blockId oldest rest) h.completedOrder oldest
    rw [hremember]
    exact Finset.mem_erase.mpr ⟨hne, Finset.mem_insert_self _ _⟩

end Observe

/-! ## Every step keeps the bounds -/

section Step

variable {self : MultichannelAudioFecDecoder X} {fec : DatagramFecDecoder X} {blockId : UInt32}

lemma Bounded.observeInFlight (h : Bounded self) (hnot : blockId ∉ self.completed)
    (hsub : ∀ id ∈ fec.blocks, id = blockId ∨ id ∈ self.inFlight) :
    Bounded ({ self with fec := fec }.observeInFlight blockId) := by
  obtain ⟨hqueued, hmem⟩ := (h.toQueued.withFec fec).observeInFlight hnot
  refine ⟨hqueued, ?_⟩
  rcases observeInFlight_cases (h.toQueued.withFec fec) blockId with ⟨hin, heq⟩ | ⟨-, -, heq⟩ |
    ⟨-, oldest, rest, -, -, heq⟩
  · rw [heq]
    rintro id hid
    rcases hsub id hid with rfl | hold
    · exact hin
    · exact hold
  · rw [heq]
    intro id hid
    exact Finset.mem_insert.mpr (hsub id hid)
  · obtain ⟨completed, -, hremember⟩ := rememberClosed_eq
      ({ self with fec := fec }.evicted blockId oldest rest) h.completedOrder oldest
    rw [heq, hremember]
    intro id hid
    rw [← Finmap.lookup_isSome] at hid
    change ((fec.expireBlock oldest).blocks.lookup id).isSome at hid
    rw [DatagramFecDecoder.lookup_expireBlock] at hid
    split_ifs at hid with hdropped
    · cases hid
    · rw [Finmap.lookup_isSome] at hid
      refine Finset.mem_erase.mpr ⟨fun hold => hdropped (Or.inl hold), ?_⟩
      exact Finset.mem_insert.mpr (hsub id hid)

/-- A block the datagram decoder dropped can be closed. -/
lemma Bounded.closeBlock (h : Bounded self) (hsub : ∀ id ∈ fec.blocks, id ∈ self.fec.blocks)
    (hnot : blockId ∉ fec.blocks) : Bounded ({ self with fec := fec }.closeBlock blockId) := by
  refine ⟨(h.toQueued.withFec fec).closeBlock blockId, fun id hid => ?_⟩
  obtain ⟨completed, -, hclose⟩ := closeBlock_eq { self with fec := fec } h.completedOrder blockId
  rw [hclose] at hid ⊢
  refine Finset.mem_erase.mpr ⟨?_, h.tracked id (hsub id hid)⟩
  rintro rfl
  exact hnot hid

/-- One operation, with the shards it delivers. -/
def step (self : MultichannelAudioFecDecoder X) :
    FecOp → Except MultichannelAudioFecError (List DecodedMultichannelAudioShard)
      × MultichannelAudioFecDecoder X
  | .push datagram => self.pushDatagram datagram
  | .expire blockId => (.ok [], self.expireBlock blockId)

/-- A rejected object leaves the queues alone. -/
lemma Bounded.completeBlock (h : Bounded self) {header : DatagramFecHeader}
    (hsub : ∀ id ∈ fec.blocks, id ∈ self.fec.blocks) (hnot : header.blockId ∉ fec.blocks)
    (object : Bytes) (delivered : Finset UInt16) (output : List DecodedMultichannelAudioShard) :
    Bounded ({ self with fec := fec }.completeBlock header object delivered output).2 := by
  have hstay : ∀ delivered, Bounded ({ self with fec := fec }.setDelivered header.blockId
      delivered) := fun delivered =>
    ⟨(h.toQueued.withFec fec).setDelivered _ delivered, fun id hid => h.tracked id (hsub id hid)⟩
  rw [MultichannelAudioFecDecoder.completeBlock]
  split_ifs
  · exact hstay delivered
  · split
    · exact hstay _
    · exact Bounded.closeBlock (hstay _) (fun id hid => hid) hnot

/-- **The step lemma**: every operation keeps the bounds, and the limits. -/
theorem Bounded.step (h : Bounded self) (op : FecOp) :
    Bounded (self.step op).2 := by
  cases op with
  | expire blockId =>
      obtain ⟨hnot, hsub⟩ := self.fec.blocks_expireBlock blockId
      exact h.closeBlock hsub hnot
  | push datagram =>
      rw [MultichannelAudioFecDecoder.step]
      rcases self.pushDatagram_cases datagram with (⟨error, hpush⟩ | hpush) |
        ⟨header, packet, candidate, hreads, ⟨error, fec, hfec, hpush⟩ | ⟨fec, hfec, hpush⟩ |
          ⟨object, fec, hfec, hpush⟩⟩
      · rw [hpush]
        exact h
      · rw [hpush]
        exact h
      · rw [hpush]
        have hsub := DatagramFecDecoder.blocks_of_error hreads.toOpens hfec
        exact ⟨h.toQueued.withFec fec, fun id hid => h.tracked id (hsub id hid)⟩
      · rw [hpush]
        have hsub := DatagramFecDecoder.blocks_of_waits hreads.toOpens hfec
        have hnext := h.observeInFlight hreads.notClosed fun id hid =>
          (hsub id hid).imp_right (h.tracked id)
        exact ⟨hnext.toQueued.setDelivered _ _, hnext.tracked⟩
      · rw [hpush]
        obtain ⟨hnot, hsub⟩ := DatagramFecDecoder.blocks_of_returns hreads.toOpens hfec
        exact h.completeBlock hsub hnot object _ _

/-- The two limits. -/
def limits (decoder : MultichannelAudioFecDecoder X) : ℕ × ℕ :=
  (decoder.maxInFlightBlocks, decoder.maxCompletedBlocks)

lemma limits_closeBlock (h : Queued self) (blockId : UInt32) :
    (self.closeBlock blockId).limits = self.limits := by
  obtain ⟨completed, -, hclose⟩ := self.closeBlock_eq h.completedOrder blockId
  rw [hclose]
  rfl

lemma limits_observeInFlight (h : Queued self) (blockId : UInt32) :
    (self.observeInFlight blockId).limits = self.limits := by
  rcases observeInFlight_cases h blockId with ⟨-, heq⟩ | ⟨-, -, heq⟩ |
    ⟨-, oldest, rest, -, -, heq⟩
  · rw [heq]
  · rw [heq]
    rfl
  · obtain ⟨completed, -, hremember⟩ :=
      rememberClosed_eq (self.evicted blockId oldest rest) h.completedOrder oldest
    rw [heq, hremember]
    rfl

/-- The limits never change. -/
lemma limits_step (h : Queued self) (op : FecOp) : (self.step op).2.limits = self.limits := by
  cases op with
  | expire blockId => exact limits_closeBlock (h.withFec _) blockId
  | push datagram =>
      rw [step]
      rcases self.pushDatagram_cases datagram with (⟨error, hpush⟩ | hpush) |
        ⟨header, packet, candidate, hreads, ⟨error, fec, hfec, hpush⟩ | ⟨fec, hfec, hpush⟩ |
          ⟨object, fec, hfec, hpush⟩⟩
      · rw [hpush]
      · rw [hpush]
      · rw [hpush]
        rfl
      · rw [hpush]
        exact limits_observeInFlight (h.withFec fec) header.blockId
      · rw [hpush, completeBlock]
        split_ifs
        · rfl
        · split
          · rfl
          · exact limits_closeBlock ((h.withFec fec).setDelivered _ _) header.blockId

end Step

/-! ## Every run keeps the bounds -/

/-- The calls that set a limit. -/
inductive Limit where
  | inFlight (maxInFlightBlocks : ℕ)
  | completed (maxCompletedBlocks : ℕ)

/-- A limit is set. -/
def configure (self : MultichannelAudioFecDecoder X) : Limit → MultichannelAudioFecDecoder X
  | .inFlight maxInFlightBlocks => self.withInFlightLimit maxInFlightBlocks
  | .completed maxCompletedBlocks => self.withCompletedWindow maxCompletedBlocks

/-- A new decoder with its limits set. -/
def configured (limits : List Limit) : MultichannelAudioFecDecoder X := limits.foldl configure new

/-- Setting limits on a new decoder sets limits only, and positive ones. -/
lemma configured_eq (limits : List Limit) :
    ∃ maxInFlightBlocks maxCompletedBlocks, 0 < maxInFlightBlocks ∧ 0 < maxCompletedBlocks ∧
      (configured limits : MultichannelAudioFecDecoder X)
        = { new with
            maxInFlightBlocks := maxInFlightBlocks
            maxCompletedBlocks := maxCompletedBlocks } := by
  induction limits using List.reverseRecOn with
  | nil => exact ⟨128, 128, by simp, by simp, rfl⟩
  | append_singleton limits limit ih =>
      obtain ⟨maxInFlightBlocks, maxCompletedBlocks, hflight, hcompleted, heq⟩ := ih
      rw [configured, List.foldl_append, List.foldl_cons, List.foldl_nil]
      rw [configured] at heq
      rw [heq]
      cases limit with
      | inFlight limit => exact ⟨max limit 1, _, by simp, hcompleted, rfl⟩
      | completed limit => exact ⟨_, max limit 1, hflight, by simp, rfl⟩

lemma bounded_configured (limits : List Limit) :
    Bounded (configured limits : MultichannelAudioFecDecoder X) := by
  obtain ⟨maxInFlightBlocks, maxCompletedBlocks, hflight, hcompleted, heq⟩ :=
    configured_eq (X := X) limits
  rw [heq]
  exact ⟨⟨Enumerates.empty, Enumerates.empty, Finset.disjoint_empty_left _, Nat.zero_le _,
    Nat.zero_le _, hflight, hcompleted⟩, fun id hid => absurd hid Finmap.notMem_empty⟩

/-- Every state a run from a configured decoder passes through is bounded, by the limits that were
set. -/
lemma bounded_run (limits : List Limit) (ops : List FecOp) :
    Bounded (runState step (configured limits : MultichannelAudioFecDecoder X) ops) ∧
      (runState step (configured limits : MultichannelAudioFecDecoder X) ops).limits
        = (configured limits : MultichannelAudioFecDecoder X).limits :=
  run_invariant_all
    (fun _ decoder => Bounded decoder ∧
      decoder.limits = (configured limits : MultichannelAudioFecDecoder X).limits)
    ⟨bounded_configured limits, rfl⟩
    (fun _ _ op h => ⟨h.1.step op, (limits_step h.1.toQueued op).trans h.2⟩) ops

/-- A map whose keys lie in a set has no more entries than the set has elements. -/
lemma len_le_card {α : Type} {map : HashMap UInt32 α} {s : Finset UInt32}
    (h : ∀ id ∈ map, id ∈ s) : map.len ≤ s.card :=
  Finset.card_le_card fun id hid => h id (Finmap.mem_keys.mp hid)

/-- **The bounds hold throughout.**  In every state of every run of pushes of arbitrary byte strings
and expiries, the two queues list their sets, the sets are disjoint and within their limits, and
the datagram decoder holds state of blocks in flight only, and of no more than may be in flight. -/
theorem queues_bounded (limits : List Limit) (ops : List FecOp) :
    EveryState step (configured limits : MultichannelAudioFecDecoder X) ops fun _ decoder =>
      Enumerates decoder.inFlightOrder decoder.inFlight ∧
      Enumerates decoder.completedOrder decoder.completed ∧
      Disjoint decoder.inFlight decoder.completed ∧
      decoder.inFlight.card ≤ decoder.maxInFlightBlocks ∧
      decoder.completed.card ≤ decoder.maxCompletedBlocks ∧
      (∀ id ∈ decoder.fec.blocks, id ∈ decoder.inFlight) ∧
      decoder.fec.inFlightBlockCount ≤ decoder.maxInFlightBlocks := by
  intro past _
  obtain ⟨h, -⟩ := bounded_run (X := X) limits past
  exact ⟨h.inFlightOrder, h.completedOrder, h.disjoint, h.inFlight_le, h.completed_le, h.tracked,
    Nat.le_trans (len_le_card h.tracked) h.inFlight_le⟩

end MultichannelAudioFecDecoder

end RaptorFec
