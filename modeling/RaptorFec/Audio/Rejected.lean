import RaptorFec.Audio.Delivered

/-!
# What a rejected datagram leaves behind

A datagram that is rejected for its bytes, its shard or its packet changes nothing but the sequence
statistics.  Two kinds of rejected datagrams do more: one whose header announces another geometry
than the live block of its id makes the datagram decoder drop that block, and one that completes
its block with an object that is no list of shards leaves the block closed in the datagram decoder,
its symbols lost.

* `rejected_unchanged_iff` — these are the only ones, in every reachable state;
* `rejected_drops_live_block` — a datagram of the first kind.
-/

namespace RaptorFec

variable {X : Crates}

namespace MultichannelAudioFecDecoder

/-- The two decoders agree on everything but the sequence statistics. -/
structure Unchanged (decoder next : MultichannelAudioFecDecoder X) : Prop where
  inFlight : next.inFlight = decoder.inFlight
  inFlightOrder : next.inFlightOrder = decoder.inFlightOrder
  delivered : next.delivered = decoder.delivered
  completed : next.completed = decoder.completed
  completedOrder : next.completedOrder = decoder.completedOrder
  blocks : next.fec.blocks = decoder.fec.blocks
  fecCompleted : next.fec.completed = decoder.fec.completed

/-- The datagram gets to the datagram decoder, where it conflicts with the live block of its id. -/
def ReadsConflict (decoder : MultichannelAudioFecDecoder X) (datagram : Bytes) : Prop :=
  ∃ header packet candidate, Reads decoder datagram header packet candidate ∧
    decoder.fec.ConflictsLive header packet

/-- The datagram completes its block with an object that is rejected. -/
def ReadsRejected (decoder : MultichannelAudioFecDecoder X) (datagram : Bytes) : Prop :=
  ∃ header packet candidate object, Reads decoder datagram header packet candidate ∧
    header.blockId ∉ decoder.fec.completed ∧ decoder.fec.Accepts header packet ∧
    (X.decode (decoder.fec.blockFor header).decoder packet).1 = some object ∧
    RejectsObject header object
      (deliverCandidate (decoder.deliveredOf header.blockId) candidate).1

section Rejected

variable {self : MultichannelAudioFecDecoder X} {datagram : Bytes} {header : DatagramFecHeader}
  {packet : EncodingPacket} {candidate : Option DecodedMultichannelAudioShard}

lemma Unchanged.refl (decoder : MultichannelAudioFecDecoder X) : Unchanged decoder decoder :=
  ⟨rfl, rfl, rfl, rfl, rfl, rfl, rfl⟩

lemma readsConflict_iff (h : Reads self datagram header packet candidate) :
    self.ReadsConflict datagram ↔ self.fec.ConflictsLive header packet := by
  constructor
  · rintro ⟨header', packet', candidate', hreads, hconflict⟩
    obtain ⟨rfl, rfl⟩ := h.toOpens.unique hreads.toOpens
    exact hconflict
  · exact fun hconflict => ⟨header, packet, candidate, h, hconflict⟩

lemma readsRejected_iff (h : Reads self datagram header packet candidate) :
    self.ReadsRejected datagram ↔ ∃ object,
      (self.fec.pushDatagram datagram).1 = .ok (some object) ∧
      RejectsObject header object
        (deliverCandidate (self.deliveredOf header.blockId) candidate).1 := by
  constructor
  · rintro ⟨header', packet', candidate', object, hreads, hopen, haccepts, hdecoded, hrejects⟩
    obtain ⟨rfl, rfl⟩ := h.toOpens.unique hreads.toOpens
    obtain rfl := Except.ok.inj (h.reads.symm.trans hreads.reads)
    exact ⟨object, (self.fec.pushDatagram_returns_iff h.toOpens).mpr
      ⟨hopen, haccepts, hdecoded⟩, hrejects⟩
  · rintro ⟨object, hobject, hrejects⟩
    obtain ⟨hopen, haccepts, hdecoded⟩ :=
      (self.fec.pushDatagram_returns_iff h.toOpens).mp hobject
    exact ⟨header, packet, candidate, object, h, hopen, haccepts, hdecoded, hrejects⟩

/-- A datagram the datagram decoder rejects conflicts with a live block, or changes nothing. -/
lemma unchanged_of_fec_error (h : Reads self datagram header packet candidate)
    {error : DatagramFecError} {fec : DatagramFecDecoder X}
    (hfec : self.fec.pushDatagram datagram = (.error error, fec)) :
    Unchanged self { self with fec := fec } ↔
      ¬ (self.ReadsConflict datagram ∨ self.ReadsRejected datagram) := by
  have hno : ¬ self.ReadsRejected datagram := by
    rw [readsRejected_iff h, hfec]
    rintro ⟨object, hobject, -⟩
    cases hobject
  rw [or_iff_left hno, readsConflict_iff h,
    ← DatagramFecDecoder.unchanged_of_error_iff h.toOpens hfec]
  constructor
  · exact fun hsame => ⟨hsame.blocks, hsame.fecCompleted⟩
  · exact fun hsame => ⟨rfl, rfl, rfl, rfl, rfl, hsame.1, hsame.2⟩

/-- An object that is rejected closes its block in the datagram decoder. -/
lemma changed_of_rejected (h : Reads self datagram header packet candidate) {object : Bytes}
    {fec : DatagramFecDecoder X}
    (hfec : self.fec.pushDatagram datagram = (.ok (some object), fec)) :
    header.blockId ∉ self.fec.completed ∧ header.blockId ∈ fec.completed := by
  obtain ⟨hopen, -, -⟩ :=
    (self.fec.pushDatagram_returns_iff h.toOpens).mp (congrArg Prod.fst hfec)
  refine ⟨hopen, ?_⟩
  rcases self.fec.pushDatagram_cases h.toOpens with ⟨_, heq⟩ | ⟨_, -, -, heq⟩ | ⟨-, heq⟩ |
    ⟨_, heq⟩ | ⟨-, -, _, heq⟩
  · cases heq.symm.trans hfec
  · cases heq.symm.trans hfec
  · cases heq.symm.trans hfec
  · cases heq.symm.trans hfec
  · cases heq.symm.trans hfec
    rw [DatagramFecDecoder.mem_expireBlock_completed]
    exact ⟨Or.inl rfl, retained_self _⟩

/-- The exact condition, in any state. -/
lemma unchanged_iff (self : MultichannelAudioFecDecoder X) (datagram : Bytes) :
    ((∃ error, (self.pushDatagram datagram).1 = .error error) →
      Unchanged self (self.pushDatagram datagram).2) ↔
    ¬ (self.ReadsConflict datagram ∨ self.ReadsRejected datagram) := by
  by_cases hreads : ∃ header packet candidate, Reads self datagram header packet candidate
  swap
  · have hno : ¬ (self.ReadsConflict datagram ∨ self.ReadsRejected datagram) := by
      rintro (⟨header, packet, candidate, h, -⟩ | ⟨header, packet, candidate, object, h, -⟩)
      · exact hreads ⟨header, packet, candidate, h⟩
      · exact hreads ⟨header, packet, candidate, h⟩
    refine iff_of_true (fun _ => ?_) hno
    rcases self.pushDatagram_cases datagram with (⟨error, hpush⟩ | hpush) |
      ⟨header, packet, candidate, h, -⟩
    · rw [hpush]
      exact Unchanged.refl self
    · rw [hpush]
      exact Unchanged.refl self
    · exact absurd ⟨header, packet, candidate, h⟩ hreads
  obtain ⟨header, packet, candidate, h⟩ := hreads
  rcases self.pushDatagram_cases_of_reads h with ⟨error, fec, hfec, hpush⟩ | ⟨fec, hfec, hpush⟩ |
    ⟨object, fec, hfec, hpush⟩
  · rw [← unchanged_of_fec_error h hfec, hpush]
    exact ⟨fun hsame => hsame ⟨_, rfl⟩, fun hsame _ => hsame⟩
  · refine iff_of_true (fun herror => ?_) ?_
    · rw [hpush] at herror
      obtain ⟨error, herror⟩ := herror
      cases herror
    · rw [readsConflict_iff h, readsRejected_iff h, hfec]
      rintro (hconflict | ⟨object, hobject, -⟩)
      · cases (DatagramFecDecoder.pushDatagram_of_conflict h.toOpens hconflict).symm.trans hfec
      · cases hobject
  · have hnoconflict : ¬ self.ReadsConflict datagram := by
      rw [readsConflict_iff h]
      intro hconflict
      cases (DatagramFecDecoder.pushDatagram_of_conflict h.toOpens hconflict).symm.trans hfec
    have hvalid := (DatagramFecHeader.decode_eq_ok_iff.mp h.decode).1
    have hok := completeBlock_ok_iff { self with fec := fec } hvalid.geometry.symbolSize_pos object
      (deliverCandidate (self.deliveredOf header.blockId) candidate).1
      (deliverCandidate (self.deliveredOf header.blockId) candidate).2
    rw [← hpush] at hok
    rw [or_iff_right hnoconflict]
    obtain ⟨hopen, hclosed⟩ := changed_of_rejected h hfec
    have hrejected : self.ReadsRejected datagram ↔ RejectsObject header object
        (deliverCandidate (self.deliveredOf header.blockId) candidate).1 := by
      rw [readsRejected_iff h, hfec]
      constructor
      · rintro ⟨object', hobject, hrejects⟩
        obtain rfl := Option.some.inj (Except.ok.inj hobject)
        exact hrejects
      · exact fun hrejects => ⟨object, rfl, hrejects⟩
    rw [hrejected, ← hok]
    rcases completeBlock_cases { self with fec := fec } object (newShards_deliverCandidate h.reads
      (self.deliveredOf header.blockId)) with ⟨error, delivered', -, heq⟩ | ⟨output', _, -, heq⟩
    · rw [hpush, heq]
      refine iff_of_false (fun hsame => ?_) ?_
      · have hfecCompleted := (hsame ⟨error, rfl⟩).fecCompleted
        change fec.completed = self.fec.completed at hfecCompleted
        rw [hfecCompleted] at hclosed
        exact hopen hclosed
      · rintro ⟨output', houtput⟩
        cases houtput
    · rw [hpush, heq]
      refine iff_of_true ?_ ⟨output', rfl⟩
      rintro ⟨error, herror⟩
      cases herror

/-- **When a rejected datagram leaves no trace.**  In every reachable state, a datagram changes nothing
but the sequence statistics if it is rejected, exactly when it neither conflicts with the live
block of its id nor completes its block with an object that is rejected. -/
theorem rejected_unchanged_iff (limits : List Limit) (ops : List FecOp) (datagram : Bytes) :
    let decoder := runState step (configured limits : MultichannelAudioFecDecoder X) ops
    ((∃ error, (decoder.pushDatagram datagram).1 = .error error) →
      Unchanged decoder (decoder.pushDatagram datagram).2) ↔
    ¬ (decoder.ReadsConflict datagram ∨ decoder.ReadsRejected datagram) :=
  unchanged_iff _ datagram

end Rejected

/-! ### A live block is dropped -/

/-- The first of two source datagrams of a block. -/
def openingDatagram (blockId : UInt32) : Bytes :=
  let shard := { lonelyShard with sourceCount := 2 }
  let payload := repetition.serialize ⟨0, 0, shard.headerBytes⟩
  (DatagramFecHeader.sealed repetition blockId 144 0 2 72 payload).headerBytes ++ payload

/-- **A rejected datagram destroys live recovery state.**  After the first of two source datagrams of
a block, a datagram of the same id with another geometry is rejected, and the block is gone. -/
theorem rejected_drops_live_block :
    ¬ ∀ (X : Crates) (_ : X.Ideal) (limits : List Limit) (ops : List FecOp) (datagram : Bytes),
      let decoder := runState step (configured limits : MultichannelAudioFecDecoder X) ops
      (∃ error, (decoder.pushDatagram datagram).1 = .error error) →
        Unchanged decoder (decoder.pushDatagram datagram).2 := by
  intro hall
  have hgone : ∀ decoder next : MultichannelAudioFecDecoder repetition,
      (decoder.fec.blocks.lookup 0).isSome → (next.fec.blocks.lookup 0).isNone →
      ¬ Unchanged decoder next := by
    intro decoder next hlive hnone hsame
    rw [hsame.blocks] at hnone
    cases hlookup : decoder.fec.blocks.lookup 0 with
    | none =>
        rw [hlookup] at hlive
        cases hlive
    | some block =>
        rw [hlookup] at hnone
        cases hnone
  let decoder := runState step (configured [] : MultichannelAudioFecDecoder repetition)
    [.push (openingDatagram 0)]
  refine hgone decoder (decoder.pushDatagram (truncatedDatagram 0)).2 (by decide +kernel)
    (by decide +kernel) (hall repetition repetitionIdeal [] [.push (openingDatagram 0)]
      (truncatedDatagram 0) ⟨.fec (.inconsistentBlockGeometry 0), ?_⟩)
  decide +kernel

end MultichannelAudioFecDecoder

end RaptorFec
