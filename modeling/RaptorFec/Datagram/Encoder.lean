import RaptorFec.Datagram.Header
import RaptorFec.Library.Words

/-!
# The datagram encoder

`DatagramFecEncoder` turns one application object into the datagrams of one source block.  It
numbers blocks and packets with two wrapping 32-bit counters.

* `SourceBlock` — an object with the id and the symbol size it is sent under, fit for one block;
* `Carries code block sequence esi datagram` — a decoder that opens `datagram` finds the packet
  of symbol `esi` of `block`, numbered `sequence`;
* `encodeOneBlockWithOptionalPool_eq` — the encoder emits one such datagram for each source
  symbol and then for each repair symbol, with consecutive sequence numbers.

A function that calls into the `raptorq` encoder is an `Option`: `none` is a panic of the crate.
-/

namespace RaptorFec

/-! ## Buffers -/

/-- A recycled buffer; only its capacity matters, its contents are cleared when it is taken. -/
structure PoolBuffer where
  contents : Bytes
  capacity : ℕ
  deriving DecidableEq, Repr

structure DatagramBufferPool where
  buffers : List PoolBuffer
  deriving DecidableEq, Repr

/-- `Vec::swap_remove`. -/
def swapRemove {α : Type} (xs : List α) (index : ℕ) : List α :=
  match xs.getLast? with
  | some last => (xs.set index last).dropLast
  | none => []

/-- `DatagramBufferPool::take`: the smallest buffer of enough capacity, cleared. -/
def DatagramBufferPool.take (pool : DatagramBufferPool) (minCapacity : ℕ) :
    Bytes × DatagramBufferPool :=
  let best := pool.buffers.zipIdx.foldl
    (fun best entry =>
      if minCapacity ≤ entry.1.capacity ∧ entry.1.capacity < best.2 then
        (some entry.2, entry.1.capacity)
      else best)
    ((none : Option ℕ), usizeMax)
  match best.1 with
  | some index => ([], ⟨swapRemove pool.buffers index⟩)
  | none => ([], pool)

/-- `DatagramBufferPool::recycle`. -/
def DatagramBufferPool.recycle (pool : DatagramBufferPool) (buffer : PoolBuffer) :
    DatagramBufferPool :=
  ⟨pool.buffers ++ [{ buffer with contents := [] }]⟩

/-- `Vec::resize` with zeros. -/
def resize (bytes : Bytes) (len : ℕ) : Bytes :=
  bytes.take len ++ List.replicate (len - bytes.length) 0

/-- A buffer from the pool where there is one, a new one otherwise. -/
def takeBuffer (pool : Option DatagramBufferPool) (minCapacity : ℕ) :
    Bytes × Option DatagramBufferPool :=
  match pool with
  | some pool => ((pool.take minCapacity).1, some (pool.take minCapacity).2)
  | none => ([], none)

/-- Whatever the pool holds, a taken buffer is empty. -/
lemma takeBuffer_fst (pool : Option DatagramBufferPool) (minCapacity : ℕ) :
    (takeBuffer pool minCapacity).1 = [] := by
  cases pool with
  | none => rfl
  | some pool =>
      simp only [takeBuffer, DatagramBufferPool.take]
      split <;> rfl

/-! ## The encoder -/

structure DatagramFecConfig where
  sourceSymbols : UInt16
  repairSymbols : UInt32
  symbolSize : UInt16
  deriving DecidableEq, Repr

/-- `DatagramFecConfig::default`. -/
def DatagramFecConfig.default : DatagramFecConfig := ⟨4, 1, 1316⟩

/-- `max_payload_len`. -/
def DatagramFecConfig.maxPayloadLen (config : DatagramFecConfig) : ℕ :=
  max config.sourceSymbols.toNat 1 * max config.symbolSize.toNat 1

structure DatagramFecEncoder where
  blockId : UInt32
  packetSequence : UInt32
  config : DatagramFecConfig
  deriving DecidableEq, Repr

/-- The result of an encoding call, the encoder after it and the pool after it. -/
abbrev EncodeResult := Except DatagramFecError (List Bytes) × DatagramFecEncoder ×
  Option DatagramBufferPool

namespace DatagramFecEncoder

variable (X : Crates) (self : DatagramFecEncoder)

/-- `DatagramFecEncoder::new`. -/
def new : DatagramFecEncoder := ⟨0, 0, DatagramFecConfig.default⟩

/-- `set_source_symbols`. -/
def setSourceSymbols (sourceSymbols : UInt16) : DatagramFecEncoder :=
  { self with config := { self.config with sourceSymbols := max sourceSymbols 1 } }

/-- `set_symbol_size`. -/
def setSymbolSize (symbolSize : UInt16) : DatagramFecEncoder :=
  { self with config := { self.config with symbolSize := max symbolSize 1 } }

/-- `set_block_id`. -/
def setBlockId (blockId : UInt32) : DatagramFecEncoder := { self with blockId := blockId }

/-- The loop over the packets of one block, with the packet sequence and the pool it moves on. -/
def encodePackets (blockId transferLength : UInt32) (sourceSymbols symbolSize : UInt16) :
    List EncodingPacket → UInt32 → Option DatagramBufferPool →
      Except DatagramFecError (List Bytes) × UInt32 × Option DatagramBufferPool
  | [], sequence, pool => (.ok [], sequence, pool)
  | packet :: packets, sequence, pool =>
      let serialized := X.serialize packet
      match DatagramFecHeader.raptorq X blockId transferLength sequence sourceSymbols symbolSize
        serialized with
      | .error error => (.error error, sequence, pool)
      | .ok header =>
          let taken := takeBuffer pool (headerLen + serialized.length)
          match header.encode (resize taken.1 headerLen) with
          | .error error => (.error error, sequence, taken.2)
          | .ok datagram =>
              let rest := encodePackets blockId transferLength sourceSymbols symbolSize packets
                (sequence + 1) taken.2
              (rest.1.map ((datagram ++ serialized) :: ·), rest.2)

/-- `encode_one_block_with_optional_pool`. -/
def encodeOneBlockWithOptionalPool (data : Bytes) (repairSymbols : UInt32)
    (pool : Option DatagramBufferPool) : Option EncodeResult :=
  let oti := exactOneBlockOti (UInt64.ofNat data.length) self.config.symbolSize
  (X.encodedPackets data oti repairSymbols).map fun packets =>
    let transferLength := UInt32.ofNat data.length
    let sourceSymbols := sourceSymbolCount data.length oti.symbolSize
    let encoded := encodePackets X self.blockId transferLength sourceSymbols oti.symbolSize packets
      self.packetSequence pool
    match encoded.1 with
    | .error error => (.error error, { self with packetSequence := encoded.2.1 }, encoded.2.2)
    | .ok datagrams =>
        (.ok datagrams,
          { self with packetSequence := encoded.2.1, blockId := self.blockId + 1 }, encoded.2.2)

/-- `encode_block_with_repair_symbols`, and its `_reusing` form when there is a pool. -/
def encodeBlockWithRepairSymbols (data : Bytes) (repairSymbols : UInt32)
    (pool : Option DatagramBufferPool) : Option EncodeResult :=
  if u32Max < data.length then some (.error (.payloadTooLong data.length), self, pool)
  else if self.config.maxPayloadLen < data.length then
    some (.error (.payloadTooLargeForBlock data.length self.config.maxPayloadLen), self, pool)
  else self.encodeOneBlockWithOptionalPool X data repairSymbols pool

end DatagramFecEncoder

/-! ## What a call that returns did -/

section Calls

variable {X : Crates} {self encoder : DatagramFecEncoder} {data : Bytes} {repairSymbols : UInt32}
  {pool pool' : Option DatagramBufferPool} {datagrams : List Bytes} {header : DatagramFecHeader}

/-- A valid header is written into the zeros in front of the payload. -/
lemma encode_zeros (hvalid : header.Valid) :
    header.encode (resize [] headerLen) = .ok header.headerBytes := by
  have hzeros : resize [] headerLen = List.replicate 32 0 := rfl
  rw [hzeros, DatagramFecHeader.encode_eq hvalid (by simp)]
  simp

/-- A packet that gets a header is sent behind it, and its datagram takes one buffer. -/
lemma encodePackets_cons_ok {blockId transferLength sequence : UInt32}
    {sourceSymbols symbolSize : UInt16} {packet : EncodingPacket} (packets : List EncodingPacket)
    (pool : Option DatagramBufferPool)
    (h : DatagramFecHeader.raptorq X blockId transferLength sequence sourceSymbols symbolSize
      (X.serialize packet) = .ok header) :
    DatagramFecEncoder.encodePackets X blockId transferLength sourceSymbols symbolSize
        (packet :: packets) sequence pool
      = (let datagram := header.headerBytes ++ X.serialize packet
        let rest := DatagramFecEncoder.encodePackets X blockId transferLength sourceSymbols
          symbolSize packets (sequence + 1) (takeBuffer pool datagram.length).2
        (rest.1.map (datagram :: ·), rest.2)) := by
  have hencode := encode_zeros (DatagramFecHeader.valid_of_raptorq h)
  have hlength : (header.headerBytes ++ X.serialize packet).length
      = headerLen + (X.serialize packet).length := List.length_append
  rw [DatagramFecEncoder.encodePackets]
  simp only [h, takeBuffer_fst, hencode, hlength]

/-- The datagrams of a block come from the loop over its packets. -/
lemma encodeOneBlock_eq_ok (h : self.encodeOneBlockWithOptionalPool X data repairSymbols pool
    = some (.ok datagrams, encoder, pool')) :
    ∃ packets, DatagramFecEncoder.encodePackets X self.blockId (UInt32.ofNat data.length)
        (sourceSymbolCount data.length (max self.config.symbolSize 1))
        (max self.config.symbolSize 1) packets self.packetSequence pool
      = (.ok datagrams, encoder.packetSequence, pool') := by
  rw [DatagramFecEncoder.encodeOneBlockWithOptionalPool] at h
  obtain ⟨packets, -, hresult⟩ := Option.map_eq_some_iff.mp h
  simp only at hresult
  split at hresult
  · cases hresult
  next encoded hencoded =>
    cases hresult
    exact ⟨packets, Prod.ext hencoded rfl⟩

/-- A call that is not refused sends one block. -/
lemma encodeBlockWithRepairSymbols_eq_ok
    (h : self.encodeBlockWithRepairSymbols X data repairSymbols pool
      = some (.ok datagrams, encoder, pool')) :
    self.encodeOneBlockWithOptionalPool X data repairSymbols pool
      = some (.ok datagrams, encoder, pool') := by
  rw [DatagramFecEncoder.encodeBlockWithRepairSymbols] at h
  split_ifs at h
  · cases h
  · cases h
  · exact h

end Calls

/-! ## Source blocks -/

/-- An application object with the id and the symbol size it is sent under. -/
structure SourceBlock where
  id : UInt32
  object : Bytes
  symbolSize : UInt16
  one : OneBlock object symbolSize

instance : Inhabited SourceBlock := ⟨⟨0, [0], 1, ⟨by decide, by decide, by decide⟩⟩⟩

namespace SourceBlock

variable (block : SourceBlock)

/-- The number of source symbols of the block. -/
def sourceSymbols : ℕ := symbolsFor block.object.length block.symbolSize

lemma length_pos : 0 < block.object.length := List.length_pos_of_ne_nil block.one.nonempty

lemma sourceSymbols_pos : 0 < block.sourceSymbols :=
  symbolsFor_pos block.length_pos block.one.symbolSize_pos

lemma sourceSymbols_le : block.sourceSymbols ≤ maxBlockSymbols := block.one.symbols_le

lemma length_le_symbols :
    block.object.length ≤ block.symbolSize.toNat * block.sourceSymbols :=
  (ceilDiv_le_iff_le_mul block.one.symbolSize_pos).mp le_rfl

/-- An object of one block has less than `2 ^ 32` bytes. -/
lemma length_le : block.object.length ≤ u32Max := by
  have hsize : block.symbolSize.toNat < 65536 := block.symbolSize.toNat_lt
  have hmul : block.symbolSize.toNat * block.sourceSymbols ≤ 65536 * 56403 :=
    Nat.mul_le_mul (Nat.le_of_lt hsize) block.sourceSymbols_le
  have hlen := block.length_le_symbols
  rw [u32Max]
  omega

lemma toNat_transferLength : (UInt32.ofNat block.object.length).toNat = block.object.length := by
  have hlen := block.length_le
  rw [u32Max] at hlen
  exact UInt32.toNat_ofNat_of_lt' (by simp only [UInt32.size]; omega)

lemma toNat_sourceSymbols : (UInt16.ofNat block.sourceSymbols).toNat = block.sourceSymbols := by
  have hle : block.sourceSymbols ≤ 56403 := block.sourceSymbols_le
  exact UInt16.toNat_ofNat_of_lt' (by simp only [UInt16.size]; omega)

/-- The ids of the source symbols are those below the count that the headers announce. -/
lemma ofNat_esi_lt_iff {esi : ℕ} (hesi : esi < esiLimit) :
    UInt32.ofNat esi < (UInt16.ofNat block.sourceSymbols).toUInt32
      ↔ esi < block.sourceSymbols := by
  rw [UInt32.lt_iff_toNat_lt, toNat_ofNat_esi hesi, UInt16.toNat_toUInt32, block.toNat_sourceSymbols]

/-- The geometry the headers of the block announce. -/
lemma geometry : OneBlockGeometry (UInt32.ofNat block.object.length)
    (UInt16.ofNat block.sourceSymbols) block.symbolSize where
  symbolSize_pos := block.one.symbolSize_pos
  transferLength_pos := by rw [block.toNat_transferLength]; exact block.length_pos
  symbols_eq := by rw [block.toNat_transferLength, block.toNat_sourceSymbols]; rfl
  symbols_le := by rw [block.toNat_transferLength]; exact block.one.symbols_le

lemma sourceSymbolCount_eq :
    sourceSymbolCount block.object.length block.symbolSize = UInt16.ofNat block.sourceSymbols := by
  have hpos := block.length_pos
  have hsize := block.one.symbolSize_pos
  have hle : block.object.length ⌈/⌉ block.symbolSize.toNat ≤ 56403 := block.one.symbols_le
  rw [sourceSymbolCount, if_neg (by omega), Nat.max_eq_left hsize, Nat.min_eq_left (by omega)]
  rfl

end SourceBlock

/-- The header announces the block. -/
structure SourceBlock.Announces (block : SourceBlock) (header : DatagramFecHeader) : Prop where
  blockId : header.blockId = block.id
  transferLength : header.transferLength = UInt32.ofNat block.object.length
  sourceSymbols : header.sourceSymbols = UInt16.ofNat block.sourceSymbols
  symbolSize : header.symbolSize = block.symbolSize

/-- **Honest datagrams.**  A decoder that opens the datagram finds a header that announces the
block, and the packet of symbol `esi` of the block. -/
structure Carries {X : Crates} (code : X.Systematic) (block : SourceBlock) (sequence : UInt32)
    (esi : ℕ) (datagram : Bytes) : Prop where
  esi_lt : esi < esiLimit
  found : ∃ header, DatagramFecHeader.decode datagram = .ok header ∧
    header.payload X datagram
      = .ok (X.serialize (code.packet block.object block.symbolSize esi)) ∧
    block.Announces header ∧ header.packetSequence = sequence

section Emission

variable {X : Crates} (code : X.Systematic) (block : SourceBlock)

/-- The header of the datagram of one symbol. -/
def SourceBlock.header (sequence : UInt32) (esi : ℕ) : DatagramFecHeader :=
  DatagramFecHeader.sealed X block.id (UInt32.ofNat block.object.length) sequence
    (UInt16.ofNat block.sourceSymbols) block.symbolSize
    (X.serialize (code.packet block.object block.symbolSize esi))

lemma header_valid (sequence : UInt32) (esi : ℕ) : (block.header code sequence esi).Valid :=
  DatagramFecHeader.sealed_valid block.geometry

/-- The datagram of one symbol, as the encoder puts it together. -/
def SourceBlock.datagram (sequence : UInt32) (esi : ℕ) : Bytes :=
  (block.header code sequence esi).headerBytes
    ++ X.serialize (code.packet block.object block.symbolSize esi)

lemma length_serialized (esi : ℕ) :
    (X.serialize (code.packet block.object block.symbolSize esi)).length
      = encodingPacketHeaderLen + block.symbolSize.toNat := by
  rw [code.length_serialize, Crates.Systematic.packet, code.length_symbol _ _ _ block.one]
  rfl

lemma length_serialized_le (esi : ℕ) :
    (X.serialize (code.packet block.object block.symbolSize esi)).length ≤ u32Max := by
  have hsize : block.symbolSize.toNat < 65536 := block.symbolSize.toNat_lt
  rw [length_serialized, encodingPacketHeaderLen, u32Max]
  omega

lemma length_datagram (sequence : UInt32) (esi : ℕ) :
    (block.datagram code sequence esi).length = datagramSizeForSymbolSize block.symbolSize := by
  rw [SourceBlock.datagram, List.length_append, length_serialized,
    DatagramFecHeader.length_headerBytes, datagramSizeForSymbolSize, headerLen]
  omega

lemma decode_datagram (sequence : UInt32) (esi : ℕ) :
    DatagramFecHeader.decode (block.datagram code sequence esi)
      = .ok (block.header code sequence esi) :=
  DatagramFecHeader.decode_headerBytes (header_valid code block sequence esi) _

lemma payload_datagram (sequence : UInt32) (esi : ℕ) :
    (block.header code sequence esi).payload X (block.datagram code sequence esi)
      = .ok (X.serialize (code.packet block.object block.symbolSize esi)) :=
  DatagramFecHeader.payload_sealed block.geometry (length_serialized_le code block esi)

/-- The datagrams of a block are honest. -/
theorem carries_datagram {esi : ℕ} (sequence : UInt32) (hesi : esi < esiLimit) :
    Carries code block sequence esi (block.datagram code sequence esi) where
  esi_lt := hesi
  found := ⟨block.header code sequence esi, decode_datagram code block sequence esi,
    payload_datagram code block sequence esi, ⟨rfl, rfl, rfl, rfl⟩, rfl⟩

/-- The loop over the packets emits the datagram of each and counts the sequence on. -/
lemma encodePackets_eq (esis : List ℕ) (sequence : UInt32) (pool : Option DatagramBufferPool) :
    ∃ pool', DatagramFecEncoder.encodePackets X block.id (UInt32.ofNat block.object.length)
        (UInt16.ofNat block.sourceSymbols) block.symbolSize
        (esis.map (code.packet block.object block.symbolSize)) sequence pool
      = (.ok (esis.mapIdx fun i esi => block.datagram code (sequence + UInt32.ofNat i) esi),
          sequence + UInt32.ofNat esis.length, pool') := by
  induction esis generalizing sequence pool with
  | nil => exact ⟨pool, by simp [DatagramFecEncoder.encodePackets]⟩
  | cons esi esis ih =>
      have hraptorq : DatagramFecHeader.raptorq X block.id (UInt32.ofNat block.object.length)
          sequence (UInt16.ofNat block.sourceSymbols) block.symbolSize
          (X.serialize (code.packet block.object block.symbolSize esi))
            = .ok (block.header code sequence esi) :=
        DatagramFecHeader.raptorq_eq block.geometry (length_serialized_le code block esi)
      have hdatagram : (block.header code sequence esi).headerBytes
          ++ X.serialize (code.packet block.object block.symbolSize esi)
            = block.datagram code sequence esi := rfl
      obtain ⟨pool', hrest⟩ := ih (sequence + 1)
        (takeBuffer pool (block.datagram code sequence esi).length).2
      refine ⟨pool', ?_⟩
      simp only [List.map_cons, encodePackets_cons_ok _ pool hraptorq, hdatagram, hrest, Except.map,
        List.mapIdx_cons, List.length_cons, add_one_add_ofNat]
      simp

/-- The loop over the packets of the first symbols. -/
lemma encodePackets_first (count : ℕ) (sequence : UInt32) (pool : Option DatagramBufferPool) :
    ∃ pool', DatagramFecEncoder.encodePackets X block.id (UInt32.ofNat block.object.length)
        (UInt16.ofNat block.sourceSymbols) block.symbolSize
        ((List.range count).map (code.packet block.object block.symbolSize)) sequence pool
      = (.ok ((List.range count).map fun esi =>
            block.datagram code (sequence + UInt32.ofNat esi) esi),
          sequence + UInt32.ofNat count, pool') := by
  obtain ⟨pool', hloop⟩ := encodePackets_eq code block (List.range count) sequence pool
  have hindex : ((List.range count).mapIdx fun i esi =>
        block.datagram code (sequence + UInt32.ofNat i) esi)
      = (List.range count).map fun esi =>
        block.datagram code (sequence + UInt32.ofNat esi) esi := by
    refine List.ext_getElem (by simp) fun i h₁ h₂ => ?_
    simp
  rw [List.length_range, hindex] at hloop
  exact ⟨pool', hloop⟩

@[simp] lemma encodePackets_withEncodedPackets
    (encodedPackets : Bytes → ObjectTransmissionInformation → UInt32 →
      Option (List EncodingPacket)) :
    DatagramFecEncoder.encodePackets (X.withEncodedPackets encodedPackets)
      = DatagramFecEncoder.encodePackets X := by
  funext blockId transferLength sourceSymbols symbolSize packets
  induction packets with
  | nil => rfl
  | cons packet packets ih =>
      funext sequence pool
      simp only [DatagramFecEncoder.encodePackets, ih]
      rfl

/-- What an encoder emits for one block, given the packets of the block. -/
lemma encodeOneBlockWithOptionalPool_of_packets {encoder : DatagramFecEncoder}
    {repairSymbols : UInt32} {count : ℕ}
    {encodedPackets : Bytes → ObjectTransmissionInformation → UInt32 →
      Option (List EncodingPacket)}
    (pool : Option DatagramBufferPool) (hid : block.id = encoder.blockId)
    (hsize : block.symbolSize = max encoder.config.symbolSize 1)
    (hpackets : encodedPackets block.object (oneBlockOti block.object block.symbolSize) repairSymbols
      = some ((List.range count).map (code.packet block.object block.symbolSize))) :
    ∃ pool', encoder.encodeOneBlockWithOptionalPool (X.withEncodedPackets encodedPackets)
        block.object repairSymbols pool
      = some (.ok ((List.range count).map fun esi =>
            block.datagram code (encoder.packetSequence + UInt32.ofNat esi) esi),
          { encoder with
            packetSequence := encoder.packetSequence + UInt32.ofNat count
            blockId := encoder.blockId + 1 }, pool') := by
  obtain ⟨pool', hloop⟩ := encodePackets_first code block count encoder.packetSequence pool
  have hoti : exactOneBlockOti (UInt64.ofNat block.object.length) encoder.config.symbolSize
      = oneBlockOti block.object block.symbolSize := by
    rw [exactOneBlockOti, ← hsize, oneBlockOti]
  have hsymbolSize : (oneBlockOti block.object block.symbolSize).symbolSize = block.symbolSize := rfl
  refine ⟨pool', ?_⟩
  have hcall : (X.withEncodedPackets encodedPackets).encodedPackets = encodedPackets := rfl
  rw [DatagramFecEncoder.encodeOneBlockWithOptionalPool]
  simp only [hoti, hcall, hpackets, Option.map_some, hsymbolSize, block.sourceSymbolCount_eq,
    encodePackets_withEncodedPackets, ← hid, hloop]

/-- **What the encoder emits for one block**: the datagrams of the source symbols and then those
of the repair symbols, numbered on from its packet sequence. -/
theorem encodeOneBlockWithOptionalPool_eq {encoder : DatagramFecEncoder} {repairSymbols : UInt32}
    (pool : Option DatagramBufferPool) (hid : block.id = encoder.blockId)
    (hsize : block.symbolSize = encoder.config.symbolSize)
    (hlimit : block.sourceSymbols + repairSymbols.toNat ≤ esiLimit) :
    ∃ pool', encoder.encodeOneBlockWithOptionalPool X block.object repairSymbols pool
      = some (.ok ((List.range (block.sourceSymbols + repairSymbols.toNat)).map fun esi =>
            block.datagram code (encoder.packetSequence + UInt32.ofNat esi) esi),
          { encoder with
            packetSequence := encoder.packetSequence
              + UInt32.ofNat (block.sourceSymbols + repairSymbols.toNat)
            blockId := encoder.blockId + 1 }, pool') := by
  refine encodeOneBlockWithOptionalPool_of_packets code block pool hid ?_
    (code.encodedPackets_eq block.object block.symbolSize repairSymbols block.one hlimit)
  rw [hsize]
  exact (max_one_eq (hsize ▸ block.one.symbolSize_pos)).symm

/-- An encoding call on a non-empty object that returns is of that form: the object fits one
block, and the symbol ids fit their 24 bits. -/
theorem encodeOneBlockWithOptionalPool_some {encoder : DatagramFecEncoder} {data : Bytes}
    {repairSymbols : UInt32} {pool : Option DatagramBufferPool} {result : EncodeResult}
    (hdata : data ≠ []) (hsize : 0 < encoder.config.symbolSize.toNat)
    (h : encoder.encodeOneBlockWithOptionalPool X data repairSymbols pool = some result) :
    ∃ one : OneBlock data encoder.config.symbolSize,
      symbolsFor data.length encoder.config.symbolSize + repairSymbols.toNat ≤ esiLimit ∧
      ∃ pool', result = (.ok ((List.range (symbolsFor data.length encoder.config.symbolSize
          + repairSymbols.toNat)).map fun esi =>
            (⟨encoder.blockId, data, encoder.config.symbolSize, one⟩ : SourceBlock).datagram code
              (encoder.packetSequence + UInt32.ofNat esi) esi),
          { encoder with
            packetSequence := encoder.packetSequence
              + UInt32.ofNat (symbolsFor data.length encoder.config.symbolSize
                + repairSymbols.toNat)
            blockId := encoder.blockId + 1 }, pool') := by
  have hlimits : symbolsFor data.length encoder.config.symbolSize ≤ maxBlockSymbols ∧
      symbolsFor data.length encoder.config.symbolSize + repairSymbols.toNat ≤ esiLimit := by
    by_contra hno
    have hnone := code.encodedPackets_none data encoder.config.symbolSize repairSymbols hdata
      hsize hno
    have hoti : exactOneBlockOti (UInt64.ofNat data.length) encoder.config.symbolSize
        = oneBlockOti data encoder.config.symbolSize := by
      rw [exactOneBlockOti, max_one_eq hsize, oneBlockOti]
    rw [DatagramFecEncoder.encodeOneBlockWithOptionalPool] at h
    simp only [hoti, hnone, Option.map_none] at h
    cases h
  have one : OneBlock data encoder.config.symbolSize := ⟨hdata, hsize, hlimits.1⟩
  obtain ⟨pool', heq⟩ := encodeOneBlockWithOptionalPool_eq code
    (⟨encoder.blockId, data, encoder.config.symbolSize, one⟩ : SourceBlock) pool rfl rfl
    hlimits.2
  exact ⟨one, hlimits.2, pool', Option.some.inj (h.symm.trans heq)⟩

/-- What a successful call emits, and the encoder after it. -/
theorem encodeBlockWithRepairSymbols_ok {encoder encoder' : DatagramFecEncoder} {data : Bytes}
    {repairSymbols : UInt32} {pool pool' : Option DatagramBufferPool} {datagrams : List Bytes}
    (hdata : data ≠ []) (hsize : 0 < encoder.config.symbolSize.toNat)
    (h : encoder.encodeBlockWithRepairSymbols X data repairSymbols pool
      = some (.ok datagrams, encoder', pool')) :
    ∃ one : OneBlock data encoder.config.symbolSize,
      let emitted := symbolsFor data.length encoder.config.symbolSize + repairSymbols.toNat
      emitted ≤ esiLimit ∧
      datagrams = ((List.range emitted).map fun esi =>
        (⟨encoder.blockId, data, encoder.config.symbolSize, one⟩ : SourceBlock).datagram code
          (encoder.packetSequence + UInt32.ofNat esi) esi) ∧
      encoder' = { encoder with
        packetSequence := encoder.packetSequence + UInt32.ofNat emitted
        blockId := encoder.blockId + 1 } := by
  obtain ⟨one, hlimit, pool'', hresult⟩ := encodeOneBlockWithOptionalPool_some code hdata hsize
    (encodeBlockWithRepairSymbols_eq_ok h)
  obtain ⟨hdatagrams, hrest⟩ := Prod.mk.inj hresult
  exact ⟨one, hlimit, Except.ok.inj hdatagrams, (Prod.mk.inj hrest).1⟩

include code in
/-- A call that fails counts nothing. -/
theorem encodeBlockWithRepairSymbols_error {encoder encoder' : DatagramFecEncoder} {data : Bytes}
    {repairSymbols : UInt32} {pool pool' : Option DatagramBufferPool} {error : DatagramFecError}
    (hdata : data ≠ []) (hsize : 0 < encoder.config.symbolSize.toNat)
    (h : encoder.encodeBlockWithRepairSymbols X data repairSymbols pool
      = some (.error error, encoder', pool')) :
    encoder'.blockId = encoder.blockId ∧ encoder'.packetSequence = encoder.packetSequence := by
  rw [DatagramFecEncoder.encodeBlockWithRepairSymbols] at h
  split_ifs at h
  · cases h
    exact ⟨rfl, rfl⟩
  · cases h
    exact ⟨rfl, rfl⟩
  · obtain ⟨one, hlimit, pool'', hresult⟩ :=
      encodeOneBlockWithOptionalPool_some code hdata hsize h
    cases hresult

/-- A call on a block of the encoder's configuration succeeds. -/
theorem encodeBlockWithRepairSymbols_eq {encoder : DatagramFecEncoder} {repairSymbols : UInt32}
    (pool : Option DatagramBufferPool) (hid : block.id = encoder.blockId)
    (hsize : block.symbolSize = encoder.config.symbolSize)
    (hpayload : block.object.length ≤ encoder.config.maxPayloadLen)
    (hlimit : block.sourceSymbols + repairSymbols.toNat ≤ esiLimit) :
    ∃ pool', encoder.encodeBlockWithRepairSymbols X block.object repairSymbols pool
      = some (.ok ((List.range (block.sourceSymbols + repairSymbols.toNat)).map fun esi =>
            block.datagram code (encoder.packetSequence + UInt32.ofNat esi) esi),
          { encoder with
            packetSequence := encoder.packetSequence
              + UInt32.ofNat (block.sourceSymbols + repairSymbols.toNat)
            blockId := encoder.blockId + 1 }, pool') := by
  obtain ⟨pool', heq⟩ := encodeOneBlockWithOptionalPool_eq code block pool hid hsize hlimit
  refine ⟨pool', ?_⟩
  rw [DatagramFecEncoder.encodeBlockWithRepairSymbols, if_neg (Nat.not_lt.mpr block.length_le),
    if_neg (Nat.not_lt.mpr hpayload), heq]

end Emission

end RaptorFec
