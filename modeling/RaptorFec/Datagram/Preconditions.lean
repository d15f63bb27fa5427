import RaptorFec.Datagram.Window

/-!
# The preconditions of the RaptorQ decoder

`raptorq` panics on input it was not made for: an encoding packet of fewer than four bytes,
transmission information that is not that of one source block, a packet of another source block or
with data of another length than one symbol.  `push_datagram` calls it three times, with arguments
that come from the network.

`guardedPush` is `push_datagram` with these panics: each call checks what the crate relies on, and
a decoder remembers the block it was created for and its transmission information.

* `Owned` — every live decoder belongs to the block it is stored under, and its transmission
  information is that of the block's geometry;
* `guardedPush_eq` — from such a state a push does not panic, and does what `pushDatagram` does;
* `preconditions_hold` — hence no run of pushes and expiries does.
-/

namespace RaptorFec

variable {X : Crates}

/-! ## Calls that check their preconditions -/

/-- The transmission information `Decoder::new` is made for: one source block of 1 to 56403 symbols
of at least one byte. -/
structure OneBlockOti (oti : ObjectTransmissionInformation) : Prop where
  sourceBlocks : oti.sourceBlocks = 1
  symbolSize_pos : 1 ≤ oti.symbolSize.toNat
  symbols_pos : 1 ≤ symbolsFor oti.transferLength.toNat oti.symbolSize
  symbols_le : symbolsFor oti.transferLength.toNat oti.symbolSize ≤ maxBlockSymbols

instance (oti : ObjectTransmissionInformation) : Decidable (OneBlockOti oti) :=
  decidable_of_iff (oti.sourceBlocks = 1 ∧ 1 ≤ oti.symbolSize.toNat ∧
      1 ≤ symbolsFor oti.transferLength.toNat oti.symbolSize ∧
      symbolsFor oti.transferLength.toNat oti.symbolSize ≤ maxBlockSymbols)
    ⟨fun ⟨hblocks, hsize, hpos, hle⟩ => ⟨hblocks, hsize, hpos, hle⟩,
      fun h => ⟨h.sourceBlocks, h.symbolSize_pos, h.symbols_pos, h.symbols_le⟩⟩

/-- A live block whose decoder remembers what it was created for. -/
structure OwnedBlock (X : Crates) extends BlockState X where
  owner : UInt32
  oti : ObjectTransmissionInformation

/-- The packet of a datagram with this header may be handed to the decoder of the block. -/
structure OwnedBlock.Admits (block : OwnedBlock X) (header : DatagramFecHeader)
    (packet : EncodingPacket) : Prop where
  owner : block.owner = header.blockId
  oti : block.oti = header.oti
  sourceBlockNumber : packet.sourceBlockNumber = 0
  length : packet.data.length = block.oti.symbolSize.toNat

instance (block : OwnedBlock X) (header : DatagramFecHeader) (packet : EncodingPacket) :
    Decidable (block.Admits header packet) :=
  decidable_of_iff (block.owner = header.blockId ∧ block.oti = header.oti ∧
      packet.sourceBlockNumber = 0 ∧ packet.data.length = block.oti.symbolSize.toNat)
    ⟨fun ⟨howner, hoti, hnumber, hlen⟩ => ⟨howner, hoti, hnumber, hlen⟩,
      fun h => ⟨h.owner, h.oti, h.sourceBlockNumber, h.length⟩⟩

variable (X) in
/-- `EncodingPacket::deserialize`; `none` when it panics. -/
def guardedDeserialize (payload : Bytes) : Option EncodingPacket :=
  if encodingPacketHeaderLen ≤ payload.length then some (X.deserialize payload) else none

namespace OwnedBlock

variable (X) in
/-- The state a block starts from, with `Decoder::new`; `none` when that panics. -/
def create (header : DatagramFecHeader) : Option (OwnedBlock X) :=
  if OneBlockOti header.oti then
    some { BlockState.new header with owner := header.blockId, oti := header.oti }
  else none

/-- `Decoder::decode` on the packet of a datagram, with the block after the call; `none` when it
panics. -/
def decode (block : OwnedBlock X) (header : DatagramFecHeader) (packet : EncodingPacket) :
    Option (Option Bytes × OwnedBlock X) :=
  if block.Admits header packet then
    some ((X.decode block.decoder packet).1,
      { block with decoder := (X.decode block.decoder packet).2 })
  else none

/-- The decoder was created for the block with this id, with the transmission information of the
block's geometry. -/
structure BelongsTo (block : OwnedBlock X) (id : UInt32) : Prop where
  owner : block.owner = id
  oti : block.oti = exactOneBlockOti (UInt64.ofNat block.transferLength.toNat) block.symbolSize

end OwnedBlock

/-! ## The decoder with these calls -/

/-- A `DatagramFecDecoder` whose block decoders remember what they were created for. -/
structure GuardedFecDecoder (X : Crates) where
  blocks : HashMap UInt32 (OwnedBlock X)
  completed : Finset UInt32
  sequenceTracker : SequenceTracker

namespace GuardedFecDecoder

def new : GuardedFecDecoder X := ⟨∅, ∅, SequenceTracker.new⟩

variable (self : GuardedFecDecoder X)

def prune (currentBlockId : UInt32) : GuardedFecDecoder X :=
  { self with
    blocks := HashMap.retain (Retained currentBlockId) self.blocks
    completed := self.completed.filter (Retained currentBlockId) }

/-- `expire_block`. -/
def expireBlock (blockId : UInt32) : GuardedFecDecoder X :=
  { self with
    blocks := self.blocks.erase blockId
    completed := insert blockId self.completed : GuardedFecDecoder X }.prune blockId

def observe (sequence : UInt32) : GuardedFecDecoder X :=
  { self with sequenceTracker := (self.sequenceTracker.observe sequence).2 }

/-- The entry of the block of a header, which is created if there is none. -/
def blockFor (header : DatagramFecHeader) : Option (OwnedBlock X) :=
  match self.blocks.lookup header.blockId with
  | some block => some block
  | none => OwnedBlock.create X header

/-- The part of `push_datagram` behind the completed check. -/
def guardedPushPacket (header : DatagramFecHeader) (payload : Bytes) :
    Option (Except DatagramFecError (Option Bytes) × GuardedFecDecoder X) := do
  let packet ← guardedDeserialize X payload
  if packet.sourceBlockNumber ≠ 0 then
    some (.error (.unsupportedSourceBlockNumber packet.sourceBlockNumber), self)
  else if packet.data.length ≠ header.symbolSize.toNat then
    some (.error (.symbolSizeMismatch header.symbolSize.toNat packet.data.length), self)
  else if ∃ block ∈ self.blocks.lookup header.blockId, block.Conflicts header then
    some (.error (.inconsistentBlockGeometry header.blockId),
      { self with blocks := self.blocks.erase header.blockId })
  else
    let block ← self.blockFor header
    let (decoded, block) ← block.decode header packet
    match decoded with
    | none => some (.ok none, { self with blocks := self.blocks.insert header.blockId block })
    | some decoded => some (.ok (some decoded), self.expireBlock header.blockId)

/-- `push_datagram`; `none` when a call of the crate panics. -/
def guardedPush (datagram : Bytes) :
    Option (Except DatagramFecError (Option Bytes) × GuardedFecDecoder X) :=
  if datagram.length < headerLen + encodingPacketHeaderLen then
    some (.error (.packetTooShort datagram.length), self)
  else
    match DatagramFecHeader.decode datagram with
    | .error error => some (.error error, self)
    | .ok header =>
        match header.payload X datagram with
        | .error error => some (.error error, self)
        | .ok payload =>
            if payload.length < encodingPacketHeaderLen then
              some (.error (.packetTooShort datagram.length), self)
            else
              let self := self.observe header.packetSequence
              if header.blockId ∈ self.completed then some (.ok none, self)
              else self.guardedPushPacket header payload

/-- One operation. -/
def guardedStep : FecOp → Option (Except DatagramFecError (Option Bytes) × GuardedFecDecoder X)
  | .push datagram => self.guardedPush datagram
  | .expire blockId => some (.ok none, self.expireBlock blockId)

/-- A run of operations, with the results; `none` as soon as one panics. -/
def guardedRun : GuardedFecDecoder X → List FecOp →
    Option (List (Except DatagramFecError (Option Bytes)) × GuardedFecDecoder X)
  | self, [] => some ([], self)
  | self, op :: ops => do
      let (result, self) ← self.guardedStep op
      let (results, self) ← self.guardedRun ops
      some (result :: results, self)

/-! ## It does not panic -/

/-- The decoder without the memory of what its block decoders were created for. -/
structure Erases (guarded : GuardedFecDecoder X) (decoder : DatagramFecDecoder X) : Prop where
  blocks : ∀ id, decoder.blocks.lookup id
    = (guarded.blocks.lookup id).map OwnedBlock.toBlockState
  completed : decoder.completed = guarded.completed
  sequenceTracker : decoder.sequenceTracker = guarded.sequenceTracker

/-- Every live decoder belongs to the block it is stored under. -/
def Owned (guarded : GuardedFecDecoder X) : Prop :=
  ∀ id, ∀ block ∈ guarded.blocks.lookup id, block.BelongsTo id

variable {guarded : GuardedFecDecoder X} {decoder : DatagramFecDecoder X}
  {header : DatagramFecHeader} {payload : Bytes}

lemma lookup_expireBlock (blockId id : UInt32) :
    (guarded.expireBlock blockId).blocks.lookup id
      = if id = blockId ∨ ¬ Retained blockId id then none else guarded.blocks.lookup id := by
  change (HashMap.retain (Retained blockId) (guarded.blocks.erase blockId)).lookup id = _
  rw [HashMap.lookup_retain, HashMap.lookup_erase_eq]
  by_cases hid : id = blockId <;> by_cases hretained : Retained blockId id <;>
    simp [hid, hretained]

lemma erases_new : Erases (new : GuardedFecDecoder X) DatagramFecDecoder.new where
  blocks _ := by simp [new, DatagramFecDecoder.new]
  completed := rfl
  sequenceTracker := rfl

lemma owned_new : Owned (new : GuardedFecDecoder X) := by
  intro id block hblock
  simp [new] at hblock

section Erases

variable (h : guarded.Erases decoder)

include h

lemma Erases.observe (sequence : UInt32) :
    (guarded.observe sequence).Erases (decoder.observe sequence) where
  blocks := h.blocks
  completed := h.completed
  sequenceTracker := by
    rw [DatagramFecDecoder.observe, GuardedFecDecoder.observe, h.sequenceTracker]

lemma Erases.expireBlock (blockId : UInt32) :
    (guarded.expireBlock blockId).Erases (decoder.expireBlock blockId) where
  blocks id := by
    rw [DatagramFecDecoder.lookup_expireBlock, GuardedFecDecoder.lookup_expireBlock, h.blocks]
    split_ifs <;> rfl
  completed := by
    change (insert blockId decoder.completed).filter _ = (insert blockId guarded.completed).filter _
    rw [h.completed]
  sequenceTracker := h.sequenceTracker

lemma Erases.erase (blockId : UInt32) :
    Erases { guarded with blocks := guarded.blocks.erase blockId }
      { decoder with blocks := decoder.blocks.erase blockId } where
  blocks id := by
    rw [HashMap.lookup_erase_eq, HashMap.lookup_erase_eq, h.blocks]
    split_ifs <;> rfl
  completed := h.completed
  sequenceTracker := h.sequenceTracker

lemma Erases.insert (blockId : UInt32) (block : OwnedBlock X) :
    Erases { guarded with blocks := guarded.blocks.insert blockId block }
      { decoder with blocks := decoder.blocks.insert blockId block.toBlockState } where
  blocks id := by
    rw [HashMap.lookup_insert_eq, HashMap.lookup_insert_eq, h.blocks]
    split_ifs <;> rfl
  completed := h.completed
  sequenceTracker := h.sequenceTracker

lemma Erases.conflicts_iff :
    (∃ block ∈ decoder.blocks.lookup header.blockId, block.Conflicts header) ↔
      ∃ block ∈ guarded.blocks.lookup header.blockId, block.Conflicts header := by
  rw [h.blocks]
  cases guarded.blocks.lookup header.blockId <;> simp

end Erases

lemma Owned.observe (h : guarded.Owned) (sequence : UInt32) : (guarded.observe sequence).Owned := h

lemma Owned.expireBlock (h : guarded.Owned) (blockId : UInt32) :
    (guarded.expireBlock blockId).Owned := by
  intro id block hblock
  rw [lookup_expireBlock] at hblock
  split_ifs at hblock
  · cases hblock
  · exact h id block hblock

lemma Owned.erase (h : guarded.Owned) (blockId : UInt32) :
    Owned { guarded with blocks := guarded.blocks.erase blockId } := by
  intro id block hblock
  rw [HashMap.lookup_erase_eq] at hblock
  split_ifs at hblock
  · cases hblock
  · exact h id block hblock

lemma Owned.insert (h : guarded.Owned) {block : OwnedBlock X} {id : UInt32}
    (hblock : block.BelongsTo id) :
    Owned { guarded with blocks := guarded.blocks.insert id block } := by
  intro id' block' hblock'
  rw [HashMap.lookup_insert_eq] at hblock'
  split_ifs at hblock' with hid
  · cases hblock'
    rw [hid]
    exact hblock
  · exact h id' block' hblock'

/-- A header that passes the checks of the codec has the transmission information of one block. -/
lemma oneBlockOti_of_valid (hvalid : header.Valid) :
    OneBlockOti header.oti ∧ header.oti.symbolSize = header.symbolSize := by
  have hsize := hvalid.geometry.symbolSize_pos
  have heq : header.oti.symbolSize = header.symbolSize := max_one_eq hsize
  have htransfer : header.oti.transferLength.toNat = header.transferLength.toNat := by
    rw [DatagramFecHeader.oti, exactOneBlockOti]
    simp
  refine ⟨⟨rfl, ?_, ?_, ?_⟩, heq⟩
  · rw [heq]
    exact hsize
  · rw [heq, htransfer, ← hvalid.geometry.symbols_eq]
    exact hvalid.geometry.sourceSymbols_pos
  · rw [heq, htransfer]
    exact hvalid.geometry.symbols_le

/-- A live block that the header does not conflict with has the header's transmission
information. -/
lemma oti_of_agrees {block : BlockState X} (hagrees : ¬ block.Conflicts header) :
    exactOneBlockOti (UInt64.ofNat block.transferLength.toNat) block.symbolSize = header.oti := by
  rw [BlockState.Conflicts] at hagrees
  push Not at hagrees
  rw [hagrees.1, hagrees.2.2]
  rfl

/-- The block a packet is fed to, when no live block conflicts with its header: it exists or can be
created, admits the packet, and is the one `pushPacket` uses. -/
lemma exists_block (h : guarded.Erases decoder) (howned : guarded.Owned) (hvalid : header.Valid)
    (hagrees : ¬ ∃ block ∈ decoder.blocks.lookup header.blockId, block.Conflicts header) :
    ∃ block, guarded.blockFor header = some block ∧
      block.toBlockState = decoder.blockFor header ∧ block.BelongsTo header.blockId ∧
      block.oti = header.oti := by
  rw [GuardedFecDecoder.blockFor]
  have hblocks := h.blocks header.blockId
  cases hlookup : guarded.blocks.lookup header.blockId with
  | some block =>
      rw [hlookup, Option.map_some] at hblocks
      have hbelongs := howned _ block hlookup
      refine ⟨block, rfl, ?_, hbelongs, ?_⟩
      · rw [DatagramFecDecoder.blockFor, hblocks]
        rfl
      · rw [hbelongs.oti]
        exact oti_of_agrees fun hconflict => hagrees ⟨_, hblocks, hconflict⟩
  | none =>
      rw [hlookup, Option.map_none] at hblocks
      refine ⟨_, if_pos (oneBlockOti_of_valid hvalid).1, ?_, ⟨rfl, rfl⟩, rfl⟩
      rw [DatagramFecDecoder.blockFor, hblocks]
      rfl

/-- A packet of four bytes or more makes no call panic. -/
theorem guardedPushPacket_eq (h : guarded.Erases decoder) (howned : guarded.Owned)
    (hvalid : header.Valid) (hlong : encodingPacketHeaderLen ≤ payload.length) :
    ∃ next, guarded.guardedPushPacket header payload
        = some ((decoder.pushPacket header (X.deserialize payload)).1, next) ∧
      next.Erases (decoder.pushPacket header (X.deserialize payload)).2 ∧ next.Owned := by
  have hdeserialize : guardedDeserialize X payload = some (X.deserialize payload) := if_pos hlong
  rw [guardedPushPacket, hdeserialize, Option.bind_eq_bind, Option.bind_some]
  generalize X.deserialize payload = packet
  by_cases hnumber : packet.sourceBlockNumber ≠ 0
  · rw [if_pos hnumber, DatagramFecDecoder.pushPacket, if_pos hnumber]
    exact ⟨guarded, rfl, h, howned⟩
  rw [if_neg hnumber]
  by_cases hlen : packet.data.length ≠ header.symbolSize.toNat
  · rw [if_pos hlen, DatagramFecDecoder.pushPacket, if_neg hnumber, if_pos hlen]
    exact ⟨guarded, rfl, h, howned⟩
  rw [if_neg hlen]
  by_cases hconflict : ∃ block ∈ decoder.blocks.lookup header.blockId, block.Conflicts header
  · rw [if_pos (h.conflicts_iff.mp hconflict), DatagramFecDecoder.pushPacket, if_neg hnumber,
      if_neg hlen, if_pos hconflict]
    exact ⟨_, rfl, h.erase _, howned.erase _⟩
  rw [if_neg (mt h.conflicts_iff.mpr hconflict)]
  obtain ⟨block, hblock, hsame, hbelongs, hoti⟩ := exists_block h howned hvalid hconflict
  have hadmits : block.Admits header packet := by
    refine ⟨hbelongs.owner, hoti, not_not.mp hnumber, ?_⟩
    rw [hoti, (oneBlockOti_of_valid hvalid).2]
    exact not_not.mp hlen
  have haccepts : decoder.Accepts header packet := ⟨not_not.mp hnumber, not_not.mp hlen, hconflict⟩
  have hdecoder : block.decoder = (decoder.blockFor header).decoder := by rw [← hsame]
  have hfed : block.decode header packet = some ((X.decode block.decoder packet).1,
      { block with decoder := (X.decode block.decoder packet).2 }) := if_pos hadmits
  simp only [hblock, hfed, hdecoder, Option.bind_eq_bind, Option.bind_some]
  cases hdecode : (X.decode (decoder.blockFor header).decoder packet).1 with
  | none =>
      rw [DatagramFecDecoder.pushPacket_waits haccepts hdecode]
      refine ⟨_, rfl, ?_, howned.insert ⟨hbelongs.owner, hbelongs.oti⟩⟩
      rw [← hsame]
      exact h.insert _ _
  | some decoded =>
      obtain ⟨decoded', hdecoded', hpush⟩ :=
        DatagramFecDecoder.pushPacket_completes ⟨haccepts, Option.isSome_of_mem hdecode⟩
      obtain rfl := Option.some.inj (hdecode.symm.trans hdecoded')
      rw [hpush]
      exact ⟨_, rfl, h.expireBlock _, howned.expireBlock _⟩

/-- **A push does not panic.**  It does what `pushDatagram` does. -/
theorem guardedPush_eq (h : guarded.Erases decoder) (howned : guarded.Owned) (datagram : Bytes) :
    ∃ next, guarded.guardedPush datagram = some ((decoder.pushDatagram datagram).1, next) ∧
      next.Erases (decoder.pushDatagram datagram).2 ∧ next.Owned := by
  rw [guardedPush, DatagramFecDecoder.pushDatagram]
  split_ifs with hshort
  · exact ⟨guarded, rfl, h, howned⟩
  cases hdecode : DatagramFecHeader.decode datagram with
  | error error => exact ⟨guarded, rfl, h, howned⟩
  | ok header =>
      have hvalid : header.Valid := (DatagramFecHeader.decode_eq_ok_iff.mp hdecode).1
      cases hpayload : header.payload X datagram with
      | error error =>
          simp only [hpayload]
          exact ⟨guarded, rfl, h, howned⟩
      | ok payload =>
          simp only [hpayload]
          by_cases hlong : payload.length < encodingPacketHeaderLen
          · rw [if_pos hlong, if_pos hlong]
            exact ⟨guarded, rfl, h, howned⟩
          rw [if_neg hlong, if_neg hlong]
          have hobserved := h.observe header.packetSequence
          by_cases hclosed : header.blockId ∈ decoder.completed
          · have hclosed' : header.blockId ∈ (guarded.observe header.packetSequence).completed := by
              rw [← hobserved.completed]
              exact hclosed
            rw [if_pos hclosed', if_pos (show header.blockId ∈ (decoder.observe _).completed from
              hclosed)]
            exact ⟨_, rfl, hobserved, howned.observe _⟩
          · have hclosed' : header.blockId ∉ (guarded.observe header.packetSequence).completed := by
              rw [← hobserved.completed]
              exact hclosed
            rw [if_neg hclosed', if_neg (show header.blockId ∉ (decoder.observe _).completed from
              hclosed)]
            exact guardedPushPacket_eq hobserved (howned.observe _) hvalid (Nat.not_lt.mp hlong)

lemma guardedStep_eq (h : guarded.Erases decoder) (howned : guarded.Owned) (op : FecOp) :
    ∃ next, guarded.guardedStep op = some ((decoder.step op).1, next) ∧
      next.Erases (decoder.step op).2 ∧ next.Owned := by
  cases op with
  | push datagram => exact guardedPush_eq h howned datagram
  | expire blockId => exact ⟨_, rfl, h.expireBlock blockId, howned.expireBlock blockId⟩

/-- From related states a run does not panic, and gives the results of the model's run. -/
theorem guardedRun_of_erases (h : guarded.Erases decoder) (howned : guarded.Owned)
    (ops : List FecOp) :
    ∃ last, guarded.guardedRun ops = some (runOutputs DatagramFecDecoder.step decoder ops, last) ∧
      last.Erases (runState DatagramFecDecoder.step decoder ops) ∧ last.Owned := by
  induction ops generalizing guarded decoder with
  | nil => exact ⟨guarded, rfl, h, howned⟩
  | cons op ops ih =>
      obtain ⟨next, hstep, hnext, hnextOwned⟩ := guardedStep_eq h howned op
      obtain ⟨last, hrun, hlast⟩ := ih hnext hnextOwned
      refine ⟨last, ?_, hlast⟩
      simp only [guardedRun, hstep, hrun, Option.bind_eq_bind, Option.bind_some]
      rfl

end GuardedFecDecoder

/-- **No run violates a precondition of the RaptorQ decoder.**  From a fresh decoder, any run of
pushes of arbitrary bytes and of expiries, with every call of the crate checked, goes through; its
results and its states are those of the run of `DatagramFecDecoder`. -/
theorem DatagramFecDecoder.preconditions_hold (X : Crates) (ops : List FecOp) :
    ∃ last : GuardedFecDecoder X,
      GuardedFecDecoder.new.guardedRun ops
        = some (runOutputs step (new : DatagramFecDecoder X) ops, last) ∧
      last.Erases (runState step (new : DatagramFecDecoder X) ops) ∧ last.Owned :=
  GuardedFecDecoder.guardedRun_of_erases GuardedFecDecoder.erases_new GuardedFecDecoder.owned_new ops

end RaptorFec
