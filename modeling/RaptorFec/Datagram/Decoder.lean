import RaptorFec.Datagram.Header
import RaptorFec.Datagram.SequenceTracker
import RaptorFec.Library.HashMap

/-!
# The datagram decoder

`DatagramFecDecoder` keeps a `raptorq` decoder for every incomplete block, the ids of the blocks
closed lately, and the sequence tracker.  A block is closed when its decoder returns the object
or when the caller expires it; closing a block also forgets the blocks and the closed ids that
lie more than `COMPLETED_WINDOW` ids before it.

`pushDatagram` is split where the source stops looking at bytes:

* `Opens` says that the checks on the bytes pass and which header and packet they find; a
  datagram that does not open is rejected in every state alike (`rejected_or_opens`);
* `pushPacket_cases` lists everything the packet can do to the two maps; the invariants of the
  decoder are proved from it.
-/

namespace RaptorFec

/-- Number of completed block ids retained for duplicate suppression. -/
def completedWindow : UInt32 := 64

structure BlockState (X : Crates) where
  decoder : X.Decoder
  transferLength : UInt32
  sourceSymbols : UInt16
  symbolSize : UInt16

/-- Stateful decoder for one ordered datagram flow. -/
structure DatagramFecDecoder (X : Crates) where
  blocks : HashMap UInt32 (BlockState X)
  completed : Finset UInt32
  sequenceTracker : SequenceTracker

/-- The ids that closing `current` retains.  The comparison is of plain numbers. -/
def Retained (current id : UInt32) : Prop :=
  current < completedWindow ∨ current - completedWindow ≤ id

instance (current : UInt32) : DecidablePred (Retained current) := fun id =>
  inferInstanceAs (Decidable (current < completedWindow ∨ current - completedWindow ≤ id))

variable {X : Crates}

/-- The state the first packet of a block starts from. -/
def BlockState.new (header : DatagramFecHeader) : BlockState X :=
  ⟨X.newDecoder header.oti, header.transferLength, header.sourceSymbols, header.symbolSize⟩

/-- The header announces another geometry than the block was started with. -/
def BlockState.Conflicts (block : BlockState X) (header : DatagramFecHeader) : Prop :=
  block.transferLength ≠ header.transferLength ∨ block.sourceSymbols ≠ header.sourceSymbols ∨
    block.symbolSize ≠ header.symbolSize

instance (block : BlockState X) (header : DatagramFecHeader) :
    Decidable (block.Conflicts header) :=
  inferInstanceAs (Decidable (_ ∨ _ ∨ _))

namespace DatagramFecDecoder

/-- `DatagramFecDecoder::new`. -/
def new : DatagramFecDecoder X := ⟨∅, ∅, SequenceTracker.new⟩

variable (self : DatagramFecDecoder X)

def prune (currentBlockId : UInt32) : DatagramFecDecoder X :=
  { self with
    blocks := self.blocks.retain (Retained currentBlockId)
    completed := self.completed.filter (Retained currentBlockId) }

/-- `expire_block`. -/
def expireBlock (blockId : UInt32) : DatagramFecDecoder X :=
  { self with
    blocks := self.blocks.erase blockId
    completed := insert blockId self.completed : DatagramFecDecoder X }.prune blockId

/-- `in_flight_block_count`. -/
def inFlightBlockCount : ℕ := self.blocks.len

/-- `sequence_stats`. -/
def sequenceStats : SequenceStats := self.sequenceTracker.stats

/-- The statistics after a packet with the given sequence number. -/
def observe (sequence : UInt32) : DatagramFecDecoder X :=
  { self with sequenceTracker := (self.sequenceTracker.observe sequence).2 }

/-- The part of `push_datagram` behind the completed check. -/
def pushPacket (header : DatagramFecHeader) (packet : EncodingPacket) :
    Except DatagramFecError (Option Bytes) × DatagramFecDecoder X :=
  if packet.sourceBlockNumber ≠ 0 then
    (.error (.unsupportedSourceBlockNumber packet.sourceBlockNumber), self)
  else if packet.data.length ≠ header.symbolSize.toNat then
    (.error (.symbolSizeMismatch header.symbolSize.toNat packet.data.length), self)
  else if ∃ block ∈ self.blocks.lookup header.blockId, block.Conflicts header then
    (.error (.inconsistentBlockGeometry header.blockId),
      { self with blocks := self.blocks.erase header.blockId })
  else
    let block := (self.blocks.lookup header.blockId).getD (BlockState.new header)
    match X.decode block.decoder packet with
    | (none, decoder) =>
        (.ok none,
          { self with
            blocks := self.blocks.insert header.blockId { block with decoder := decoder } })
    | (some decoded, _) =>
        (.ok (some decoded),
          { self with
            blocks := self.blocks.erase header.blockId
            completed := insert header.blockId self.completed :
              DatagramFecDecoder X }.prune header.blockId)

/-- `push_datagram`, with the decoder after the call. -/
def pushDatagram (datagram : Bytes) :
    Except DatagramFecError (Option Bytes) × DatagramFecDecoder X :=
  if datagram.length < headerLen + encodingPacketHeaderLen then
    (.error (.packetTooShort datagram.length), self)
  else
    match DatagramFecHeader.decode datagram with
    | .error error => (.error error, self)
    | .ok header =>
        match header.payload X datagram with
        | .error error => (.error error, self)
        | .ok payload =>
            if payload.length < encodingPacketHeaderLen then
              (.error (.packetTooShort datagram.length), self)
            else
              let self := self.observe header.packetSequence
              if header.blockId ∈ self.completed then (.ok none, self)
              else self.pushPacket header (X.deserialize payload)

end DatagramFecDecoder

/-! ## What a push can do -/

variable (X) in
/-- The checks on the bytes of a datagram pass, and find this header and this packet. -/
structure Opens (datagram : Bytes) (header : DatagramFecHeader) (packet : EncodingPacket) :
    Prop where
  decode : DatagramFecHeader.decode datagram = .ok header
  payload : ∃ payload, header.payload X datagram = .ok payload ∧
    encodingPacketHeaderLen ≤ payload.length ∧ packet = X.deserialize payload

/-- A datagram opens in one way only. -/
lemma Opens.unique {datagram : Bytes} {header header' : DatagramFecHeader}
    {packet packet' : EncodingPacket} (h : Opens X datagram header packet)
    (h' : Opens X datagram header' packet') : header = header' ∧ packet = packet' := by
  obtain rfl := Except.ok.inj (h.decode.symm.trans h'.decode)
  obtain ⟨payload, hpayload, -, rfl⟩ := h.payload
  obtain ⟨payload', hpayload', -, rfl⟩ := h'.payload
  obtain rfl := Except.ok.inj (hpayload.symm.trans hpayload')
  exact ⟨rfl, rfl⟩

namespace DatagramFecDecoder

variable {self : DatagramFecDecoder X} {datagram : Bytes} {header : DatagramFecHeader}
  {packet : EncodingPacket}

variable (self) in
lemma pushDatagram_of_opens (h : Opens X datagram header packet) :
    self.pushDatagram datagram
      = if header.blockId ∈ self.completed then (.ok none, self.observe header.packetSequence)
        else (self.observe header.packetSequence).pushPacket header packet := by
  obtain ⟨payload, hpayload, hlong, rfl⟩ := h.payload
  have hlen := DatagramFecHeader.length_of_payload hpayload
  rw [pushDatagram, if_neg (by omega), h.decode]
  simp only [hpayload, if_neg (Nat.not_lt.mpr hlong)]
  rfl

/-- What does not open is rejected, whatever the state, and leaves it unchanged. -/
lemma rejected_or_opens (X : Crates) (datagram : Bytes) :
    (∃ header packet, Opens X datagram header packet) ∨
      ∃ error, ∀ self : DatagramFecDecoder X, self.pushDatagram datagram = (.error error, self) := by
  by_cases hshort : datagram.length < headerLen + encodingPacketHeaderLen
  · refine Or.inr ⟨.packetTooShort datagram.length, fun self => ?_⟩
    rw [pushDatagram, if_pos hshort]
  cases hdecode : DatagramFecHeader.decode datagram with
  | error error =>
      refine Or.inr ⟨error, fun self => ?_⟩
      rw [pushDatagram, if_neg hshort, hdecode]
  | ok header =>
      cases hpayload : header.payload X datagram with
      | error error =>
          refine Or.inr ⟨error, fun self => ?_⟩
          rw [pushDatagram, if_neg hshort, hdecode]
          simp only [hpayload]
      | ok payload =>
          by_cases hlong : payload.length < encodingPacketHeaderLen
          · refine Or.inr ⟨.packetTooShort datagram.length, fun self => ?_⟩
            rw [pushDatagram, if_neg hshort, hdecode]
            simp only [hpayload, if_pos hlong]
          · exact Or.inl ⟨header, _, hdecode, payload, hpayload, Nat.not_lt.mp hlong, rfl⟩

variable (self header packet) in
/-- The state the packet is fed to. -/
def blockFor : BlockState X :=
  (self.blocks.lookup header.blockId).getD (BlockState.new header)

/-- The packet passes the checks of `push_datagram` on it. -/
structure Accepts (decoder : DatagramFecDecoder X) (header : DatagramFecHeader)
    (packet : EncodingPacket) : Prop where
  sourceBlockNumber : packet.sourceBlockNumber = 0
  length : packet.data.length = header.symbolSize.toNat
  agrees : ¬ ∃ block ∈ decoder.blocks.lookup header.blockId, block.Conflicts header

/-- The packet is accepted and the `raptorq` decoder of its block returns an object. -/
structure Completes (decoder : DatagramFecDecoder X) (header : DatagramFecHeader)
    (packet : EncodingPacket) : Prop extends Accepts decoder header packet where
  returns : (X.decode (decoder.blockFor header).decoder packet).1.isSome

lemma pushPacket_completes (h : self.Completes header packet) :
    ∃ decoded, (X.decode (self.blockFor header).decoder packet).1 = some decoded ∧
      self.pushPacket header packet
        = (.ok (some decoded), self.expireBlock header.blockId) := by
  obtain ⟨decoded, hdecoded⟩ := Option.isSome_iff_exists.mp h.returns
  refine ⟨decoded, hdecoded, ?_⟩
  rw [pushPacket, if_neg (not_not.mpr h.sourceBlockNumber), if_neg (not_not.mpr h.length),
    if_neg h.agrees]
  rw [blockFor] at hdecoded
  simp only
  split
  · rename_i heq
    rw [heq] at hdecoded
    cases hdecoded
  · rename_i decoded' _ heq
    rw [heq] at hdecoded
    obtain rfl := Option.some.inj hdecoded
    rfl

lemma pushPacket_waits (h : self.Accepts header packet)
    (hnone : (X.decode (self.blockFor header).decoder packet).1 = none) :
    self.pushPacket header packet
      = (.ok none, { self with
          blocks := self.blocks.insert header.blockId
            { self.blockFor header with
              decoder := (X.decode (self.blockFor header).decoder packet).2 } }) := by
  rw [pushPacket, if_neg (not_not.mpr h.sourceBlockNumber), if_neg (not_not.mpr h.length),
    if_neg h.agrees]
  rw [blockFor] at hnone ⊢
  simp only
  split
  · rename_i heq
    rw [heq]
  · rename_i heq
    rw [heq] at hnone
    cases hnone

/-- **What a packet does to the decoder**: it is rejected, drops the block it conflicts with,
moves the decoder of its block on, or closes its block. -/
theorem pushPacket_cases (self : DatagramFecDecoder X) (header : DatagramFecHeader)
    (packet : EncodingPacket) :
    (∃ error, self.pushPacket header packet = (.error error, self)) ∨
    (∃ block, self.blocks.lookup header.blockId = some block ∧ block.Conflicts header ∧
      self.pushPacket header packet = (.error (.inconsistentBlockGeometry header.blockId),
        { self with blocks := self.blocks.erase header.blockId })) ∨
    (∃ block, self.pushPacket header packet
      = (.ok none, { self with blocks := self.blocks.insert header.blockId block })) ∨
    (self.Completes header packet ∧ ∃ decoded, self.pushPacket header packet
      = (.ok (some decoded), self.expireBlock header.blockId)) := by
  by_cases hnumber : packet.sourceBlockNumber ≠ 0
  · exact Or.inl ⟨_, by rw [pushPacket, if_pos hnumber]⟩
  by_cases hlen : packet.data.length ≠ header.symbolSize.toNat
  · exact Or.inl ⟨_, by rw [pushPacket, if_neg hnumber, if_pos hlen]⟩
  by_cases hconflict : ∃ block ∈ self.blocks.lookup header.blockId, block.Conflicts header
  · obtain ⟨block, hblock, hconf⟩ := id hconflict
    exact Or.inr (Or.inl ⟨block, hblock, hconf, by
      rw [pushPacket, if_neg hnumber, if_neg hlen, if_pos hconflict]⟩)
  have haccepts : self.Accepts header packet := ⟨not_not.mp hnumber, not_not.mp hlen, hconflict⟩
  cases hdecode : (X.decode (self.blockFor header).decoder packet).1 with
  | none => exact Or.inr (Or.inr (Or.inl ⟨_, pushPacket_waits haccepts hdecode⟩))
  | some decoded =>
      have hcompletes : self.Completes header packet := ⟨haccepts, by rw [hdecode]; rfl⟩
      obtain ⟨decoded', -, hpush⟩ := pushPacket_completes hcompletes
      exact Or.inr (Or.inr (Or.inr ⟨hcompletes, decoded', hpush⟩))

/-- **What a datagram that opens does to the decoder.** -/
theorem pushDatagram_cases (self : DatagramFecDecoder X) (h : Opens X datagram header packet) :
    (∃ error, self.pushDatagram datagram
      = (.error error, self.observe header.packetSequence)) ∨
    (∃ block, self.blocks.lookup header.blockId = some block ∧ block.Conflicts header ∧
      self.pushDatagram datagram = (.error (.inconsistentBlockGeometry header.blockId),
        { self.observe header.packetSequence with
          blocks := self.blocks.erase header.blockId })) ∨
    (header.blockId ∈ self.completed ∧
      self.pushDatagram datagram = (.ok none, self.observe header.packetSequence)) ∨
    (∃ block, self.pushDatagram datagram
      = (.ok none, { self.observe header.packetSequence with
          blocks := self.blocks.insert header.blockId block })) ∨
    (header.blockId ∉ self.completed ∧
      (self.observe header.packetSequence).Completes header packet ∧
      ∃ decoded, self.pushDatagram datagram
        = (.ok (some decoded),
            (self.observe header.packetSequence).expireBlock header.blockId)) := by
  have hpush := pushDatagram_of_opens self h
  by_cases hclosed : header.blockId ∈ self.completed
  · rw [if_pos hclosed] at hpush
    exact Or.inr (Or.inr (Or.inl ⟨hclosed, hpush⟩))
  rw [if_neg hclosed] at hpush
  rcases pushPacket_cases (self.observe header.packetSequence) header packet with
    ⟨error, hres⟩ | ⟨block, hblock, hconflict, hres⟩ | ⟨block, hres⟩ | ⟨hcompletes, decoded, hres⟩
  · exact Or.inl ⟨error, hpush.trans hres⟩
  · exact Or.inr (Or.inl ⟨block, hblock, hconflict, hpush.trans hres⟩)
  · exact Or.inr (Or.inr (Or.inr (Or.inl ⟨block, hpush.trans hres⟩)))
  · exact Or.inr (Or.inr (Or.inr (Or.inr ⟨hclosed, hcompletes, decoded, hpush.trans hres⟩)))

/-- The packet passes the checks on it, but the header announces another geometry than the live
block was started with. -/
structure ConflictsLive (decoder : DatagramFecDecoder X) (header : DatagramFecHeader)
    (packet : EncodingPacket) : Prop where
  notClosed : header.blockId ∉ decoder.completed
  sourceBlockNumber : packet.sourceBlockNumber = 0
  length : packet.data.length = header.symbolSize.toNat
  conflicts : ∃ block ∈ decoder.blocks.lookup header.blockId, block.Conflicts header

/-- A conflicting datagram is rejected, and drops the live block. -/
lemma pushDatagram_of_conflict (h : Opens X datagram header packet)
    (hconflict : self.ConflictsLive header packet) :
    self.pushDatagram datagram = (.error (.inconsistentBlockGeometry header.blockId),
      { self.observe header.packetSequence with blocks := self.blocks.erase header.blockId }) := by
  rw [pushDatagram_of_opens self h, if_neg hconflict.notClosed, pushPacket,
    if_neg (not_not.mpr hconflict.sourceBlockNumber), if_neg (not_not.mpr hconflict.length)]
  exact if_pos hconflict.conflicts

/-- **When a rejected datagram leaves the two maps alone**: when it conflicts with no live block. -/
lemma unchanged_of_error_iff (h : Opens X datagram header packet) {error : DatagramFecError}
    {next : DatagramFecDecoder X} (hpush : self.pushDatagram datagram = (.error error, next)) :
    next.blocks = self.blocks ∧ next.completed = self.completed ↔
      ¬ self.ConflictsLive header packet := by
  constructor
  · rintro ⟨hblocks, -⟩ hconflict
    cases (pushDatagram_of_conflict h hconflict).symm.trans hpush
    obtain ⟨block, hblock, -⟩ := hconflict.conflicts
    have hnone : self.blocks.lookup header.blockId = none := by
      rw [← hblocks]
      exact Finmap.lookup_erase _ _
    cases hnone.symm.trans hblock
  · intro hno
    have hpush' := pushDatagram_of_opens self h
    by_cases hclosed : header.blockId ∈ self.completed
    · rw [if_pos hclosed, hpush] at hpush'
      cases hpush'
    rw [if_neg hclosed, hpush, pushPacket] at hpush'
    split_ifs at hpush' with hnumber hlen hconflict
    · cases hpush'
      exact ⟨rfl, rfl⟩
    · cases hpush'
      exact ⟨rfl, rfl⟩
    · exact absurd ⟨hclosed, not_not.mp hnumber, not_not.mp hlen, hconflict⟩ hno
    · simp only at hpush'
      split at hpush'
      · cases hpush'
      · cases hpush'

/-- **When a datagram returns an object**: its block is open, it is accepted, and the `raptorq`
decoder of the block returns the object. -/
theorem pushDatagram_returns_iff (self : DatagramFecDecoder X)
    (h : Opens X datagram header packet) {object : Bytes} :
    (self.pushDatagram datagram).1 = .ok (some object) ↔
      header.blockId ∉ self.completed ∧ self.Accepts header packet ∧
        (X.decode (self.blockFor header).decoder packet).1 = some object := by
  rw [pushDatagram_of_opens self h]
  constructor
  · intro hreturns
    split_ifs at hreturns with hclosed
    · cases hreturns
    rcases pushPacket_cases (self.observe header.packetSequence) header packet with
      ⟨_, hres⟩ | ⟨_, -, -, hres⟩ | ⟨_, hres⟩ | ⟨hcompletes, decoded, hres⟩
    · rw [hres] at hreturns
      cases hreturns
    · rw [hres] at hreturns
      cases hreturns
    · rw [hres] at hreturns
      cases hreturns
    · obtain ⟨decoded', hdecoded, hpush⟩ := pushPacket_completes hcompletes
      rw [hpush] at hreturns
      obtain rfl := Option.some.inj (Except.ok.inj hreturns)
      exact ⟨hclosed, ⟨hcompletes.sourceBlockNumber, hcompletes.length, hcompletes.agrees⟩,
        hdecoded⟩
  · rintro ⟨hopen, haccepts, hdecoded⟩
    have hcompletes : (self.observe header.packetSequence).Completes header packet :=
      ⟨⟨haccepts.sourceBlockNumber, haccepts.length, haccepts.agrees⟩, Option.isSome_of_mem hdecoded⟩
    obtain ⟨decoded', hdecoded', hpush⟩ := pushPacket_completes hcompletes
    rw [if_neg hopen, hpush]
    obtain rfl := Option.some.inj (hdecoded.symm.trans hdecoded')
    rfl

/-! ### The two maps after each operation -/

@[simp] lemma observe_blocks (sequence : UInt32) :
    (self.observe sequence).blocks = self.blocks := rfl

@[simp] lemma observe_completed (sequence : UInt32) :
    (self.observe sequence).completed = self.completed := rfl

lemma lookup_expireBlock (blockId id : UInt32) :
    (self.expireBlock blockId).blocks.lookup id
      = if id = blockId ∨ ¬ Retained blockId id then none else self.blocks.lookup id := by
  change (HashMap.retain (Retained blockId) (self.blocks.erase blockId)).lookup id = _
  rw [HashMap.lookup_retain, HashMap.lookup_erase_eq]
  by_cases hid : id = blockId <;> by_cases hretained : Retained blockId id <;>
    simp [hid, hretained]

lemma mem_blocks_expireBlock {blockId id : UInt32} :
    id ∈ (self.expireBlock blockId).blocks
      ↔ id ≠ blockId ∧ Retained blockId id ∧ id ∈ self.blocks := by
  rw [← Finmap.lookup_isSome, lookup_expireBlock, ← Finmap.lookup_isSome]
  by_cases hid : id = blockId <;> by_cases hretained : Retained blockId id <;>
    simp [hid, hretained]

lemma mem_expireBlock_completed (blockId id : UInt32) :
    id ∈ (self.expireBlock blockId).completed
      ↔ (id = blockId ∨ id ∈ self.completed) ∧ Retained blockId id := by
  change id ∈ (insert blockId self.completed).filter (Retained blockId) ↔ _
  rw [Finset.mem_filter, Finset.mem_insert]

/-- Closing a block drops it, and adds none. -/
lemma blocks_expireBlock (self : DatagramFecDecoder X) (blockId : UInt32) :
    blockId ∉ (self.expireBlock blockId).blocks ∧
      ∀ id ∈ (self.expireBlock blockId).blocks, id ∈ self.blocks := by
  constructor
  · intro hid
    exact (mem_blocks_expireBlock.mp hid).1 rfl
  · intro id hid
    exact (mem_blocks_expireBlock.mp hid).2.2

/-- Closing a block keeps the ids that are remembered apart from those that have state. -/
lemma notMem_blocks_expireBlock (h : ∀ id ∈ self.completed, id ∉ self.blocks) (blockId : UInt32) :
    ∀ id ∈ (self.expireBlock blockId).completed, id ∉ (self.expireBlock blockId).blocks := by
  intro id hid hmem
  obtain ⟨hne, -, hblocks⟩ := mem_blocks_expireBlock.mp hmem
  rcases ((self.mem_expireBlock_completed blockId id).mp hid).1 with rfl | hold
  · exact hne rfl
  · exact h id hold hblocks

/-- A rejected datagram adds no block. -/
lemma blocks_of_error (h : Opens X datagram header packet) {error : DatagramFecError}
    {next : DatagramFecDecoder X} (hpush : self.pushDatagram datagram = (.error error, next)) :
    ∀ id ∈ next.blocks, id ∈ self.blocks := by
  intro id hid
  rcases self.pushDatagram_cases h with ⟨_, heq⟩ | ⟨_, -, -, heq⟩ | ⟨-, heq⟩ | ⟨_, heq⟩ |
    ⟨-, -, _, heq⟩
  · cases heq.symm.trans hpush
    exact hid
  · cases heq.symm.trans hpush
    exact ((Finmap.mem_erase).mp hid).2
  · cases heq.symm.trans hpush
  · cases heq.symm.trans hpush
  · cases heq.symm.trans hpush

/-- A datagram that returns nothing is filed with its block, unless that is closed. -/
lemma pushDatagram_stores (h : Opens X datagram header packet)
    (hopen : header.blockId ∉ self.completed) {next : DatagramFecDecoder X}
    (hpush : self.pushDatagram datagram = (.ok none, next)) :
    ∃ block, next = { self.observe header.packetSequence with
      blocks := self.blocks.insert header.blockId block } := by
  rcases self.pushDatagram_cases h with ⟨_, heq⟩ | ⟨_, -, -, heq⟩ | ⟨hclosed, -⟩ | ⟨block, heq⟩ |
    ⟨-, -, _, heq⟩
  · cases heq.symm.trans hpush
  · cases heq.symm.trans hpush
  · exact absurd hclosed hopen
  · cases heq.symm.trans hpush
    exact ⟨block, rfl⟩
  · cases heq.symm.trans hpush

/-- A datagram that returns an object closes its block. -/
lemma pushDatagram_expires (h : Opens X datagram header packet) {object : Bytes}
    {next : DatagramFecDecoder X} (hpush : self.pushDatagram datagram = (.ok (some object), next)) :
    next = (self.observe header.packetSequence).expireBlock header.blockId := by
  rcases self.pushDatagram_cases h with ⟨_, heq⟩ | ⟨_, -, -, heq⟩ | ⟨-, heq⟩ | ⟨_, heq⟩ |
    ⟨-, -, _, heq⟩
  · cases heq.symm.trans hpush
  · cases heq.symm.trans hpush
  · cases heq.symm.trans hpush
  · cases heq.symm.trans hpush
  · cases heq.symm.trans hpush
    rfl

/-- A datagram that returns nothing adds its own block at most. -/
lemma blocks_of_waits (h : Opens X datagram header packet) {next : DatagramFecDecoder X}
    (hpush : self.pushDatagram datagram = (.ok none, next)) :
    ∀ id ∈ next.blocks, id = header.blockId ∨ id ∈ self.blocks := by
  intro id hid
  rcases self.pushDatagram_cases h with ⟨_, heq⟩ | ⟨_, -, -, heq⟩ | ⟨-, heq⟩ | ⟨_, heq⟩ |
    ⟨-, -, _, heq⟩
  · cases heq.symm.trans hpush
  · cases heq.symm.trans hpush
  · cases heq.symm.trans hpush
    exact Or.inr hid
  · cases heq.symm.trans hpush
    exact Finmap.mem_insert.mp hid
  · cases heq.symm.trans hpush

/-- A datagram that returns an object drops its block, and adds none. -/
lemma blocks_of_returns (h : Opens X datagram header packet) {object : Bytes}
    {next : DatagramFecDecoder X} (hpush : self.pushDatagram datagram = (.ok (some object), next)) :
    header.blockId ∉ next.blocks ∧ ∀ id ∈ next.blocks, id ∈ self.blocks := by
  rw [pushDatagram_expires h hpush]
  exact (self.observe header.packetSequence).blocks_expireBlock header.blockId

end DatagramFecDecoder

/-- What is retained, in plain numbers. -/
lemma retained_iff {current id : UInt32} :
    Retained current id ↔ current.toNat ≤ id.toNat + 64 := by
  have hwindow : completedWindow.toNat = 64 := rfl
  by_cases h : current < completedWindow
  · have hlt := UInt32.lt_iff_toNat_lt.mp h
    exact ⟨fun _ => by omega, fun _ => Or.inl h⟩
  · have hle : completedWindow ≤ current := UInt32.not_lt.mp h
    have hle' := UInt32.le_iff_toNat_le.mp hle
    rw [Retained, UInt32.le_iff_toNat_le, UInt32.toNat_sub_of_le _ _ hle]
    exact ⟨fun hor => by rcases hor with hlt | hcut; exacts [absurd hlt h, by omega],
      fun _ => Or.inr (by omega)⟩

/-- Closing an id retains that id. -/
lemma retained_self (id : UInt32) : Retained id id := retained_iff.mpr (Nat.le_add_right _ _)

end RaptorFec
