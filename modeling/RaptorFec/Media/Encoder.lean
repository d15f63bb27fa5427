import RaptorFec.Media.Header

/-!
# The media encoder

`MediaFecEncoder` cuts the payload of a frame into fragments of equal size, the last one shorter,
puts a fragment header in front of each, and sends each as one source block with its own repair
symbols.

* `Fragmentation` — a frame cut for sending; its fragments put together are the payload
  (`Fragmentation.flatten_fragments`), and its objects decode to the headers and fragments they
  were made of (`decode_object`, `drop_object`);
* `deliver` — the datagrams of a sending order that are not dropped;
* `encodeFragment_of_encodable`, `encodeFragments_cons`, `encodeFrameWithOptionalPool_eq_some` —
  what one pass of the loop, the loop and a call do;
* `Transmission` — a fragmented frame with what it is sent under; every frame that is accepted is
  sent as one (`encodeFrameWithOptionalPool_sent`).
-/

namespace RaptorFec

structure MediaFrame where
  metadata : MediaFrameMetadata
  payload : Bytes
  deriving DecidableEq, Repr

structure EncodedMediaBlock where
  blockId : UInt32
  fragmentIndex : UInt16
  sourceSymbols : UInt16
  repairSymbols : UInt32
  firstDatagramIndex : ℕ
  datagramCount : ℕ
  payloadLen : ℕ
  deriving DecidableEq, Repr

structure EncodedMediaFrame where
  sequence : UInt64
  metadata : MediaFrameMetadata
  priority : MediaPriority
  fragmentCount : UInt16
  decision : FecDecision
  blocks : List EncodedMediaBlock
  datagrams : List Bytes

/-! ## Sending orders -/

inductive MediaDatagramOrder where
  | encoded
  | sourceFirst
  deriving DecidableEq, Repr

inductive MediaDatagramRole where
  | source
  | repair
  deriving DecidableEq, Repr

structure MediaDatagramSend where
  datagramIndex : ℕ
  blockId : UInt32
  fragmentIndex : UInt16
  role : MediaDatagramRole
  deriving DecidableEq, Repr

/-- The indices of a `Range<usize>`. -/
def rangeIndices (start stop : ℕ) : List ℕ := List.range' start (stop - start)

namespace EncodedMediaBlock

variable (self : EncodedMediaBlock)

/-- `source_datagram_indices`. -/
def sourceDatagramIndices : List ℕ :=
  rangeIndices self.firstDatagramIndex
    (min (satAddUsize self.firstDatagramIndex self.sourceSymbols.toNat)
      (satAddUsize self.firstDatagramIndex self.datagramCount))

/-- `repair_datagram_indices`. -/
def repairDatagramIndices : List ℕ :=
  rangeIndices
    (min (satAddUsize self.firstDatagramIndex self.sourceSymbols.toNat)
      (satAddUsize self.firstDatagramIndex self.datagramCount))
    (satAddUsize self.firstDatagramIndex self.datagramCount)

/-- `push_media_datagram_send_entries`: the entries it appends to the plan. -/
def sendEntries (role : MediaDatagramRole) : List MediaDatagramSend :=
  let range := match role with
    | .source => self.sourceDatagramIndices
    | .repair => self.repairDatagramIndices
  range.map fun datagramIndex => ⟨datagramIndex, self.blockId, self.fragmentIndex, role⟩

end EncodedMediaBlock

namespace EncodedMediaFrame

variable (self : EncodedMediaFrame)

/-- `datagram_send_plan`. -/
def datagramSendPlan : MediaDatagramOrder → List MediaDatagramSend
  | .encoded =>
      self.blocks.flatMap fun block => block.sendEntries .source ++ block.sendEntries .repair
  | .sourceFirst =>
      (self.blocks.flatMap fun block => block.sendEntries .source)
        ++ self.blocks.flatMap fun block => block.sendEntries .repair

/-- `source_first_datagram_indices`. -/
def sourceFirstDatagramIndices : List ℕ :=
  (self.datagramSendPlan .sourceFirst).map (·.datagramIndex)

/-- The indices of the datagrams in the order they were emitted in. -/
def emittedDatagramIndices : List ℕ := List.range self.datagrams.length

end EncodedMediaFrame

/-- The datagrams of a sending order that are not dropped. -/
def deliver (datagrams : List Bytes) (order : List ℕ) (keep : ℕ → Bool) : List Bytes :=
  (order.filter keep).map fun index => datagrams.getD index []

lemma deliver_append (datagrams : List Bytes) (order order' : List ℕ) (keep : ℕ → Bool) :
    deliver datagrams (order ++ order') keep
      = deliver datagrams order keep ++ deliver datagrams order' keep := by
  rw [deliver, List.filter_append, List.map_append]
  rfl

lemma deliver_flatMap {α : Type} (datagrams : List Bytes) (xs : List α) (order : α → List ℕ)
    (keep : ℕ → Bool) :
    deliver datagrams (xs.flatMap order) keep
      = xs.flatMap fun x => deliver datagrams (order x) keep := by
  rw [deliver, List.filter_flatMap, List.map_flatMap]
  rfl

/-! ## The encoder -/

structure MediaFecEncoder where
  fec : DatagramFecEncoder
  controller : AdaptiveFecController
  nextSequence : UInt64

/-- The result of an encoding call, the encoder after it and the pool after it. -/
abbrev MediaEncodeResult (α : Type) :=
  Except MediaFecError α × MediaFecEncoder × Option DatagramBufferPool

namespace MediaFecEncoder

/-- `MediaFecEncoder::new`. -/
def new (controller : AdaptiveFecController) : MediaFecEncoder :=
  ⟨DatagramFecEncoder.new, controller, 0⟩

variable (X : Crates) (self : MediaFecEncoder)

/-- `allocate_sequence`. -/
def allocateSequence : UInt64 × MediaFecEncoder :=
  (self.nextSequence, { self with nextSequence := self.nextSequence + 1 })

/-- One pass of the loop over the fragments: the block and its datagrams. -/
def encodeFragment (frame : MediaFrame) (initialDecision : FecDecision)
    (maxFragmentPayload fragmentCount fragmentIndex firstDatagramIndex : ℕ)
    (pool : Option DatagramBufferPool) :
    Option (MediaEncodeResult (EncodedMediaBlock × List Bytes)) :=
  let start := fragmentIndex * maxFragmentPayload
  let stop := min (start + maxFragmentPayload) frame.payload.length
  let fragment := if start < stop then slice frame.payload start stop else []
  let header : MediaFragmentHeader :=
    { metadata := frame.metadata
      fragmentIndex := UInt16.ofNat fragmentIndex
      fragmentCount := UInt16.ofNat fragmentCount
      accessUnitLen := UInt32.ofNat frame.payload.length
      fragmentOffset := UInt32.ofNat start }
  match header.encode (List.replicate mediaFrameHeaderLen 0) with
  | .error error => some (.error error, self, pool)
  | .ok encoded =>
      let block := encoded ++ fragment
      let blockSourceSymbols := sourceSymbolCount block.length initialDecision.config.symbolSize
      let repairSymbols := self.controller.repairSymbolsFor blockSourceSymbols
        frame.metadata.priority
      let fec := (self.fec.setSourceSymbols initialDecision.config.sourceSymbols).setSymbolSize
        initialDecision.config.symbolSize
      let blockId := fec.blockId
      match fec.encodeBlockWithRepairSymbols X block repairSymbols pool with
      | none => none
      | some (.error error, fec, pool) => some (.error (.fec error), { self with fec := fec }, pool)
      | some (.ok blockDatagrams, fec, pool) =>
          some (.ok
            ({ blockId := blockId
               fragmentIndex := UInt16.ofNat fragmentIndex
               sourceSymbols := blockSourceSymbols
               repairSymbols := repairSymbols
               firstDatagramIndex := firstDatagramIndex
               datagramCount := blockDatagrams.length
               payloadLen := block.length }, blockDatagrams), { self with fec := fec }, pool)

/-- The loop over the fragments, from an index on. -/
def encodeFragments (frame : MediaFrame) (initialDecision : FecDecision)
    (maxFragmentPayload fragmentCount : ℕ) (self : MediaFecEncoder) :
    List ℕ → ℕ → Option DatagramBufferPool →
      Option (MediaEncodeResult (List EncodedMediaBlock × List Bytes))
  | [], _, pool => some (.ok ([], []), self, pool)
  | fragmentIndex :: indices, firstDatagramIndex, pool =>
      match self.encodeFragment X frame initialDecision maxFragmentPayload fragmentCount
        fragmentIndex firstDatagramIndex pool with
      | none => none
      | some (.error error, self, pool) => some (.error error, self, pool)
      | some (.ok (block, blockDatagrams), self, pool) =>
          (encodeFragments frame initialDecision maxFragmentPayload fragmentCount self indices
            (firstDatagramIndex + blockDatagrams.length) pool).map fun rest =>
              (rest.1.map fun encoded => (block :: encoded.1, blockDatagrams ++ encoded.2), rest.2)

/-- `encode_frame_with_optional_pool`. -/
def encodeFrameWithOptionalPool (frame : MediaFrame) (pool : Option DatagramBufferPool) :
    Option (MediaEncodeResult EncodedMediaFrame) :=
  let priority := frame.metadata.priority
  let initialDecision := self.controller.decide (frame.payload.length + mediaFrameHeaderLen)
    priority
  let maxBlockPayload := initialDecision.config.maxPayloadLen
  if maxBlockPayload ≤ mediaFrameHeaderLen then
    some (.error (.blockTooSmall maxBlockPayload mediaFrameHeaderLen), self, pool)
  else
    let maxFragmentPayload := maxBlockPayload - mediaFrameHeaderLen
    let fragmentCount := max (frame.payload.length ⌈/⌉ maxFragmentPayload) 1
    if 65535 < fragmentCount then some (.error (.tooManyFragments fragmentCount), self, pool)
    else if u32Max < frame.payload.length then
      some (.error (.accessUnitTooLarge frame.payload.length), self, pool)
    else
      (encodeFragments X frame initialDecision maxFragmentPayload fragmentCount self
        (List.range fragmentCount) 0 pool).map fun encoded =>
          (encoded.1.map fun parts =>
            { sequence := frame.metadata.sequence
              metadata := frame.metadata
              priority := priority
              fragmentCount := UInt16.ofNat fragmentCount
              decision := initialDecision
              blocks := parts.1
              datagrams := parts.2 }, encoded.2)

/-- `encode_frame`. -/
def encodeFrame (frame : MediaFrame) : Option (Except MediaFecError EncodedMediaFrame ×
    MediaFecEncoder) :=
  (self.encodeFrameWithOptionalPool X frame none).map fun result => (result.1, result.2.1)

/-- `encode_frame_reusing`. -/
def encodeFrameReusing (frame : MediaFrame) (pool : DatagramBufferPool) :
    Option (Except MediaFecError EncodedMediaFrame × MediaFecEncoder × DatagramBufferPool) :=
  (self.encodeFrameWithOptionalPool X frame (some pool)).map fun result =>
    (result.1, result.2.1, result.2.2.getD pool)

end MediaFecEncoder

/-! ## Fragmentations -/

/-- A frame cut for sending into fragments of `size` bytes. -/
structure Fragmentation where
  frame : MediaFrame
  size : ℕ
  dtsDeltaMs : Int16
  size_pos : 0 < size
  count_le : max (frame.payload.length ⌈/⌉ size) 1 ≤ 65535
  length_le : frame.payload.length ≤ u32Max
  encodable : frame.metadata.Encodable dtsDeltaMs

namespace Fragmentation

variable (F : Fragmentation)

/-- The number of fragments. -/
def count : ℕ := max (F.frame.payload.length ⌈/⌉ F.size) 1

/-- The bytes of a fragment. -/
def fragment (i : ℕ) : Bytes := piece F.frame.payload F.size i

/-- The header of a fragment. -/
def header (i : ℕ) : MediaFragmentHeader :=
  { metadata := F.frame.metadata
    fragmentIndex := UInt16.ofNat i
    fragmentCount := UInt16.ofNat F.count
    accessUnitLen := UInt32.ofNat F.frame.payload.length
    fragmentOffset := UInt32.ofNat (i * F.size) }

/-- The object of a fragment: its header and its bytes. -/
def object (i : ℕ) : Bytes := (F.header i).headerBytes F.dtsDeltaMs ++ F.fragment i

lemma count_pos : 0 < F.count := Nat.lt_of_lt_of_le Nat.zero_lt_one (Nat.le_max_right _ _)

lemma count_lt : F.count < 65536 := Nat.lt_succ_of_le F.count_le

lemma toNat_fragmentCount : (F.header 0).fragmentCount.toNat = F.count :=
  UInt16.toNat_ofNat_of_lt' F.count_lt

lemma toNat_fragmentIndex {i : ℕ} (hi : i < F.count) : (F.header i).fragmentIndex.toNat = i :=
  UInt16.toNat_ofNat_of_lt' (Nat.lt_trans hi F.count_lt)

lemma toNat_accessUnitLen (i : ℕ) :
    (F.header i).accessUnitLen.toNat = F.frame.payload.length := by
  have hle := F.length_le
  rw [u32Max] at hle
  exact UInt32.toNat_ofNat_of_lt' (by simp only [UInt32.size]; omega)

lemma length_object (i : ℕ) : (F.object i).length = 44 + (F.fragment i).length := by
  rw [object, List.length_append, MediaFragmentHeader.length_headerBytes]

lemma length_object_le (i : ℕ) : (F.object i).length ≤ 44 + F.size := by
  rw [length_object, fragment, length_piece]
  exact Nat.add_le_add_left (Nat.min_le_left _ _) _

lemma object_ne_nil (i : ℕ) : F.object i ≠ [] := by
  intro h
  have hlen := F.length_object i
  rw [h, List.length_nil] at hlen
  omega

/-- The object of a fragment starts with its header. -/
lemma decode_object (i : ℕ) :
    MediaFragmentHeader.decode ((F.object i).take mediaFrameHeaderLen) = .ok (F.header i) := by
  have htake : (F.object i).take mediaFrameHeaderLen = (F.header i).headerBytes F.dtsDeltaMs :=
    List.take_left' (MediaFragmentHeader.length_headerBytes _)
  rw [htake]
  exact MediaFragmentHeader.decode_headerBytes F.encodable

/-- Behind the header are the bytes of the fragment. -/
lemma drop_object (i : ℕ) : (F.object i).drop mediaFrameHeaderLen = F.fragment i :=
  List.drop_left' (MediaFragmentHeader.length_headerBytes _)

/-- The fragments put together are the payload. -/
theorem flatten_fragments : ((List.range F.count).map F.fragment).flatten = F.frame.payload := by
  refine flatten_pieces ?_
  calc F.frame.payload.length
      ≤ F.size * (F.frame.payload.length ⌈/⌉ F.size) := (ceilDiv_le_iff_le_mul F.size_pos).mp le_rfl
    _ ≤ F.size * F.count := Nat.mul_le_mul_left _ (Nat.le_max_left _ _)
    _ = F.count * F.size := Nat.mul_comm _ _

end Fragmentation

/-! ## Transmissions -/

/-- A fragmented frame with what it is sent under: the first block id, the first packet sequence
number, the symbol size, and the number of repair symbols of each block. -/
structure Transmission extends Fragmentation where
  baseId : UInt32
  baseSequence : UInt32
  symbolSize : UInt16
  repair : ℕ → UInt32
  one : ∀ i < toFragmentation.count, OneBlock (toFragmentation.object i) symbolSize
  limit : ∀ i < toFragmentation.count,
    symbolsFor (toFragmentation.object i).length symbolSize + (repair i).toNat ≤ esiLimit

namespace Transmission

variable {X : Crates} (code : X.Systematic) (T : Transmission)

/-- The source block of a fragment. -/
def block (i : ℕ) : SourceBlock :=
  if hi : i < T.count then ⟨T.baseId + UInt32.ofNat i, T.object i, T.symbolSize, T.one i hi⟩
  else default

/-- The number of datagrams of a block. -/
def emitted (i : ℕ) : ℕ := symbolsFor (T.object i).length T.symbolSize + (T.repair i).toNat

/-- The index of the first datagram of a block. -/
def first (i : ℕ) : ℕ := ((List.range i).map T.emitted).sum

/-- The datagram of symbol `e` of a block. -/
def datagram (i e : ℕ) : Bytes :=
  (T.block i).datagram code (T.baseSequence + UInt32.ofNat (T.first i + e)) e

/-- What the encoder reports of a block. -/
def encodedBlock (i : ℕ) : EncodedMediaBlock :=
  { blockId := T.baseId + UInt32.ofNat i
    fragmentIndex := UInt16.ofNat i
    sourceSymbols := UInt16.ofNat (symbolsFor (T.object i).length T.symbolSize)
    repairSymbols := T.repair i
    firstDatagramIndex := T.first i
    datagramCount := T.emitted i
    payloadLen := (T.object i).length }

/-- The datagrams of a block. -/
def blockDatagrams (i : ℕ) : List Bytes := (List.range (T.emitted i)).map (T.datagram code i)

variable {T} {i : ℕ}

lemma block_eq (hi : i < T.count) :
    T.block i = ⟨T.baseId + UInt32.ofNat i, T.object i, T.symbolSize, T.one i hi⟩ := dif_pos hi

lemma id_block (hi : i < T.count) : (T.block i).id = T.baseId + UInt32.ofNat i := by
  rw [block_eq hi]

lemma object_block (hi : i < T.count) : (T.block i).object = T.object i := by rw [block_eq hi]

lemma symbolSize_block (hi : i < T.count) : (T.block i).symbolSize = T.symbolSize := by
  rw [block_eq hi]

lemma sourceSymbols_block (hi : i < T.count) :
    (T.block i).sourceSymbols = symbolsFor (T.object i).length T.symbolSize := by
  rw [SourceBlock.sourceSymbols, object_block hi, symbolSize_block hi]

lemma sourceSymbols_le_emitted (i : ℕ) :
    symbolsFor (T.object i).length T.symbolSize ≤ T.emitted i := Nat.le_add_right _ _

/-- The source symbol count that the encoder reports of a block. -/
lemma toNat_sourceSymbols (hi : i < T.count) :
    (T.encodedBlock i).sourceSymbols.toNat = symbolsFor (T.object i).length T.symbolSize := by
  rw [← sourceSymbols_block hi]
  have hcount := (T.block i).toNat_sourceSymbols
  rwa [sourceSymbols_block hi] at hcount ⊢

/-- Every datagram is honest. -/
lemma carries {e : ℕ} (hi : i < T.count) (he : e < T.emitted i) :
    Carries code (T.block i) (T.baseSequence + UInt32.ofNat (T.first i + e)) e
      (T.datagram code i e) :=
  carries_datagram code (T.block i) _ (Nat.lt_of_lt_of_le he (T.limit i hi))

/-- The ids of a transmission are distinct. -/
lemma id_injOn {j : ℕ} (hi : i < T.count) (hj : j < T.count)
    (h : T.baseId + UInt32.ofNat i = T.baseId + UInt32.ofNat j) : i = j := by
  have hcount := T.count_lt
  have hi' : ahead T.baseId (T.baseId + UInt32.ofNat i) = i := ahead_add_ofNat (by omega)
  have hj' : ahead T.baseId (T.baseId + UInt32.ofNat j) = j := ahead_add_ofNat (by omega)
  rw [h] at hi'
  exact hi'.symm.trans hj'

lemma length_blockDatagrams (i : ℕ) : (T.blockDatagrams code i).length = T.emitted i := by
  rw [blockDatagrams, List.length_map, List.length_range]

lemma first_succ (i : ℕ) : T.first (i + 1) = T.first i + T.emitted i := by
  rw [first, List.range_succ, List.map_append, List.sum_append]
  rfl

end Transmission

/-- The encoded frame is the given transmission. -/
structure Transmission.IsSent {X : Crates} (code : X.Systematic) (T : Transmission)
    (encoder : MediaFecEncoder) (frame : MediaFrame) (encoded : EncodedMediaFrame) : Prop where
  frame_eq : T.frame = frame
  size_eq : T.size = encoded.decision.config.maxPayloadLen - mediaFrameHeaderLen
  baseId_eq : T.baseId = encoder.fec.blockId
  symbolSize_eq : encoded.decision.config.symbolSize = T.symbolSize
  blocks_eq : encoded.blocks = (List.range T.count).map T.encodedBlock
  datagrams_eq : encoded.datagrams = (List.range T.count).flatMap (T.blockDatagrams code)

/-! ## What the encoder sends -/

/-- The bytes the loop cuts out of the payload. -/
lemma cut_eq_piece (payload : Bytes) {size : ℕ} (hsize : 0 < size) (i : ℕ) :
    (if i * size < min (i * size + size) payload.length then
      slice payload (i * size) (min (i * size + size) payload.length) else [])
      = piece payload size i := by
  have hstop : (i + 1) * size = i * size + size := Nat.succ_mul i size
  have hlen : (payload.drop (i * size)).length = payload.length - i * size := List.length_drop
  rw [piece, hstop]
  split_ifs with hlt
  · rw [slice, slice, List.take_eq_take_iff, hlen]
    omega
  · rw [slice, List.drop_eq_nil_of_le (by omega), List.take_nil]

/-- The object of a fragment: its header and its bytes. -/
def fragmentObject (frame : MediaFrame) (size count : ℕ) (dtsDeltaMs : Int16) (i : ℕ) : Bytes :=
  (MediaFragmentHeader.mk frame.metadata (UInt16.ofNat i) (UInt16.ofNat count)
    (UInt32.ofNat frame.payload.length) (UInt32.ofNat (i * size))).headerBytes dtsDeltaMs
      ++ piece frame.payload size i

lemma length_fragmentObject (frame : MediaFrame) (size count : ℕ) (dtsDeltaMs : Int16) (i : ℕ) :
    (fragmentObject frame size count dtsDeltaMs i).length
      = mediaFrameHeaderLen + (piece frame.payload size i).length := by
  rw [fragmentObject, List.length_append, MediaFragmentHeader.length_headerBytes,
    mediaFrameHeaderLen]

lemma Fragmentation.fragmentObject_eq (F : Fragmentation) (i : ℕ) :
    fragmentObject F.frame F.size F.count F.dtsDeltaMs i = F.object i := rfl

namespace MediaFecEncoder

variable {X : Crates} (code : X.Systematic) {encoder encoder' : MediaFecEncoder}
  {pool pool' : Option DatagramBufferPool} {decision : FecDecision}

/-- The repair count of a fragment. -/
def repairFor (encoder : MediaFecEncoder) (F : Fragmentation) (symbolSize : UInt16) (i : ℕ) :
    UInt32 :=
  encoder.controller.repairSymbolsFor (sourceSymbolCount (F.object i).length symbolSize)
    F.frame.metadata.priority

/-- What a pass over a fragment does with the object of the fragment. -/
def sendObject (X : Crates) (encoder : MediaFecEncoder) (decision : FecDecision)
    (priority : MediaPriority) (object : Bytes) (fragmentIndex firstDatagramIndex : ℕ)
    (pool : Option DatagramBufferPool) :
    Option (MediaEncodeResult (EncodedMediaBlock × List Bytes)) :=
  let sourceSymbols := sourceSymbolCount object.length decision.config.symbolSize
  let repairSymbols := encoder.controller.repairSymbolsFor sourceSymbols priority
  (((encoder.fec.setSourceSymbols decision.config.sourceSymbols).setSymbolSize
    decision.config.symbolSize).encodeBlockWithRepairSymbols X object repairSymbols pool).map
      fun sent =>
        (match sent.1 with
          | .error error => .error (.fec error)
          | .ok datagrams => .ok
              ({ blockId := encoder.fec.blockId
                 fragmentIndex := UInt16.ofNat fragmentIndex
                 sourceSymbols := sourceSymbols
                 repairSymbols := repairSymbols
                 firstDatagramIndex := firstDatagramIndex
                 datagramCount := datagrams.length
                 payloadLen := object.length }, datagrams),
          { encoder with fec := sent.2.1 }, sent.2.2)

/-- When the metadata fit the header, the pass sends the object of the fragment. -/
lemma encodeFragment_of_encodable {frame : MediaFrame} {size : ℕ} {dtsDeltaMs : Int16}
    (hsize : 0 < size) (h : frame.metadata.Encodable dtsDeltaMs) (count i first : ℕ) :
    encoder.encodeFragment X frame decision size count i first pool
      = encoder.sendObject X decision frame.metadata.priority
          (fragmentObject frame size count dtsDeltaMs i) i first pool := by
  have hheader : (MediaFragmentHeader.mk frame.metadata (UInt16.ofNat i) (UInt16.ofNat count)
      (UInt32.ofNat frame.payload.length) (UInt32.ofNat (i * size))).encode
        (List.replicate mediaFrameHeaderLen 0) = .ok _ :=
    (MediaFragmentHeader.encode_eq_ok_iff List.length_replicate).mpr ⟨dtsDeltaMs, h, rfl⟩
  rw [encodeFragment]
  simp only [cut_eq_piece frame.payload hsize i]
  rw [hheader]
  simp only
  rw [sendObject, fragmentObject]
  rcases DatagramFecEncoder.encodeBlockWithRepairSymbols X _ _ _ pool with
    - | ⟨error | datagrams, fec, pool'⟩
  · rfl
  · rfl
  · rfl

/-- When they do not, the pass fails before it changes anything. -/
lemma encodeFragment_of_not_encodable {frame : MediaFrame}
    (h : ¬ ∃ dtsDeltaMs, frame.metadata.Encodable dtsDeltaMs) (size count i first : ℕ) :
    ∃ error, encoder.encodeFragment X frame decision size count i first pool
      = some (.error error, encoder, pool) := by
  rw [encodeFragment]
  simp only
  split
  · rename_i error _
    exact ⟨error, rfl⟩
  · rename_i encoded hencoded
    obtain ⟨dtsDeltaMs, hfits, -⟩ :=
      (MediaFragmentHeader.encode_eq_ok_iff List.length_replicate).mp hencoded
    exact absurd ⟨dtsDeltaMs, hfits⟩ h

/-- **One fragment.**  When the pass over a fragment succeeds, its object fits one block, and the
datagrams are those of the block, numbered on from the packet sequence. -/
lemma encodeFragment_some {F : Fragmentation} {i first : ℕ} {block : EncodedMediaBlock}
    {datagrams : List Bytes} (hsize : 0 < decision.config.symbolSize.toNat)
    (h : encoder.encodeFragment X F.frame decision F.size F.count i first pool
      = some (.ok (block, datagrams), encoder', pool')) :
    ∃ one : OneBlock (F.object i) decision.config.symbolSize,
      let emitted := symbolsFor (F.object i).length decision.config.symbolSize
        + (encoder.repairFor F decision.config.symbolSize i).toNat
      emitted ≤ esiLimit ∧
      block =
        { blockId := encoder.fec.blockId
          fragmentIndex := UInt16.ofNat i
          sourceSymbols := UInt16.ofNat (symbolsFor (F.object i).length
            decision.config.symbolSize)
          repairSymbols := encoder.repairFor F decision.config.symbolSize i
          firstDatagramIndex := first
          datagramCount := emitted
          payloadLen := (F.object i).length } ∧
      datagrams = ((List.range emitted).map fun e =>
        (⟨encoder.fec.blockId, F.object i, decision.config.symbolSize, one⟩ :
          SourceBlock).datagram code (encoder.fec.packetSequence + UInt32.ofNat e) e) ∧
      encoder'.fec.blockId = encoder.fec.blockId + 1 ∧
      encoder'.fec.packetSequence = encoder.fec.packetSequence + UInt32.ofNat emitted ∧
      encoder'.controller = encoder.controller := by
  rw [encodeFragment_of_encodable F.size_pos F.encodable, F.fragmentObject_eq, sendObject] at h
  set fec := (encoder.fec.setSourceSymbols decision.config.sourceSymbols).setSymbolSize
    decision.config.symbolSize with hfec
  have hsymbol : fec.config.symbolSize = decision.config.symbolSize := max_one_eq hsize
  obtain ⟨⟨result, fec', pool''⟩, hblock, heq⟩ := Option.map_eq_some_iff.mp h
  obtain ⟨hresult, hrest⟩ := Prod.mk.inj heq
  obtain ⟨rfl, rfl⟩ := Prod.mk.inj hrest
  cases result with
  | error error => cases hresult
  | ok blockDatagrams =>
      obtain ⟨rfl, rfl⟩ := Prod.mk.inj (Except.ok.inj hresult)
      obtain ⟨one, hlimit, hdatagrams, rfl⟩ := encodeBlockWithRepairSymbols_ok code
        (F.object_ne_nil i) (by rw [hsymbol]; exact hsize) hblock
      have hlen : blockDatagrams.length = symbolsFor (F.object i).length fec.config.symbolSize
          + (encoder.repairFor F decision.config.symbolSize i).toNat := by
        rw [hdatagrams, List.length_map, List.length_range]
        rfl
      simp only [hsymbol] at hlimit hdatagrams hlen
      rw [hsymbol] at one
      have hcount : sourceSymbolCount (F.object i).length decision.config.symbolSize
          = UInt16.ofNat (symbolsFor (F.object i).length decision.config.symbolSize) :=
        (⟨fec.blockId, F.object i, _, one⟩ : SourceBlock).sourceSymbolCount_eq
      refine ⟨one, hlimit, ?_, hdatagrams, rfl, ?_, rfl⟩
      · rw [hlen, hcount, repairFor, hcount]
      · simp only [hsymbol]
        rfl

/-- The encoder stands where a transmission starts its fragment `a`. -/
structure At (encoder : MediaFecEncoder) (T : Transmission) (a : ℕ) : Prop where
  blockId : encoder.fec.blockId = T.baseId + UInt32.ofNat a
  packetSequence : encoder.fec.packetSequence = T.baseSequence + UInt32.ofNat (T.first a)
  repair : T.repair = encoder.repairFor T.toFragmentation T.symbolSize

/-- Where the encoder stands after a fragment. -/
lemma At.succ {T : Transmission} {a : ℕ} (h : encoder.At T a)
    (hid : encoder'.fec.blockId = encoder.fec.blockId + 1)
    (hsequence : encoder'.fec.packetSequence
      = encoder.fec.packetSequence + UInt32.ofNat (T.emitted a))
    (hcontroller : encoder'.controller = encoder.controller) : encoder'.At T (a + 1) where
  blockId := by
    rw [hid, h.blockId, UInt32.ofNat_add, UInt32.add_assoc]
    rfl
  packetSequence := by
    rw [hsequence, h.packetSequence, T.first_succ, UInt32.ofNat_add, UInt32.add_assoc]
  repair := by
    rw [h.repair]
    funext i
    rw [repairFor, repairFor, hcontroller]

/-- The number of datagrams of the fragment the encoder stands at. -/
lemma At.emitted_eq {T : Transmission} {a : ℕ} (h : encoder.At T a)
    (hsymbol : T.symbolSize = decision.config.symbolSize) :
    symbolsFor (T.object a).length decision.config.symbolSize
      + (encoder.repairFor T.toFragmentation decision.config.symbolSize a).toNat
      = T.emitted a := by
  rw [Transmission.emitted, h.repair, hsymbol]

/-- The block of the fragment the encoder stands at. -/
lemma At.encodedBlock_eq {T : Transmission} {a : ℕ} (h : encoder.At T a)
    (hsymbol : T.symbolSize = decision.config.symbolSize) :
    ({ blockId := encoder.fec.blockId
       fragmentIndex := UInt16.ofNat a
       sourceSymbols := UInt16.ofNat (symbolsFor (T.object a).length decision.config.symbolSize)
       repairSymbols := encoder.repairFor T.toFragmentation decision.config.symbolSize a
       firstDatagramIndex := T.first a
       datagramCount := symbolsFor (T.object a).length decision.config.symbolSize
        + (encoder.repairFor T.toFragmentation decision.config.symbolSize a).toNat
       payloadLen := (T.object a).length } : EncodedMediaBlock) = T.encodedBlock a := by
  rw [h.emitted_eq hsymbol, Transmission.encodedBlock, h.blockId, h.repair, hsymbol]

/-- The datagrams of the fragment the encoder stands at. -/
lemma At.datagrams_eq {T : Transmission} {a : ℕ} (h : encoder.At T a)
    (hsymbol : T.symbolSize = decision.config.symbolSize) (ha : a < T.count)
    (one : OneBlock (T.object a) decision.config.symbolSize) :
    ((List.range (T.emitted a)).map fun e =>
      (⟨encoder.fec.blockId, T.object a, decision.config.symbolSize, one⟩ :
        SourceBlock).datagram code (encoder.fec.packetSequence + UInt32.ofNat e) e)
      = T.blockDatagrams code a := by
  refine List.map_congr_left fun e _ => ?_
  rw [Transmission.datagram, T.block_eq ha, h.packetSequence, UInt32.ofNat_add, UInt32.add_assoc]
  simp only [h.blockId, hsymbol]

/-- The loop fails in its first pass, or goes on behind it. -/
lemma encodeFragments_cons {frame : MediaFrame} {size count i first : ℕ} {indices : List ℕ}
    {result : Except MediaFecError (List EncodedMediaBlock × List Bytes)}
    (h : encodeFragments X frame decision size count encoder (i :: indices) first pool
      = some (result, encoder', pool')) :
    (∃ error, result = .error error ∧
      encoder.encodeFragment X frame decision size count i first pool
        = some (.error error, encoder', pool')) ∨
      ∃ block datagrams next pool₁ rest,
        encoder.encodeFragment X frame decision size count i first pool
          = some (.ok (block, datagrams), next, pool₁) ∧
        encodeFragments X frame decision size count next indices (first + datagrams.length) pool₁
          = some (rest, encoder', pool') ∧
        result = rest.map fun parts => (block :: parts.1, datagrams ++ parts.2) := by
  rw [encodeFragments] at h
  rcases hstep : encoder.encodeFragment X frame decision size count i first pool with
    - | ⟨error | ⟨block, datagrams⟩, next, pool₁⟩
  · rw [hstep] at h
    cases h
  · rw [hstep] at h
    obtain ⟨rfl, hlast⟩ := Prod.mk.inj (Option.some.inj h)
    obtain ⟨rfl, rfl⟩ := Prod.mk.inj hlast
    exact Or.inl ⟨error, rfl, rfl⟩
  · rw [hstep] at h
    obtain ⟨⟨rest, last, pool₂⟩, hrest, heq⟩ := Option.map_eq_some_iff.mp h
    obtain ⟨hresult, hlast⟩ := Prod.mk.inj heq
    obtain ⟨rfl, rfl⟩ := Prod.mk.inj hlast
    exact Or.inr ⟨block, datagrams, next, pool₁, rest, rfl, hrest, hresult.symm⟩

/-- **The loop over the fragments.**  When it succeeds, every object fits one block, and it emits
the blocks of every transmission the encoder stands at. -/
lemma encodeFragments_some {F : Fragmentation} {a k first : ℕ}
    {parts : List EncodedMediaBlock × List Bytes} (hsize : 0 < decision.config.symbolSize.toNat)
    (h : encodeFragments X F.frame decision F.size F.count encoder (List.range' a k) first pool
      = some (.ok parts, encoder', pool')) :
    (∀ i, a ≤ i → i < a + k → OneBlock (F.object i) decision.config.symbolSize ∧
      symbolsFor (F.object i).length decision.config.symbolSize
        + (encoder.repairFor F decision.config.symbolSize i).toNat ≤ esiLimit) ∧
    ∀ T : Transmission, T.toFragmentation = F → T.symbolSize = decision.config.symbolSize →
      encoder.At T a → first = T.first a → a + k ≤ T.count →
      parts.1 = (List.range' a k).map T.encodedBlock ∧
        parts.2 = (List.range' a k).flatMap (T.blockDatagrams code) := by
  induction k generalizing a encoder first pool parts with
  | zero =>
      obtain rfl : ([], []) = parts :=
        Except.ok.inj (Prod.mk.inj (Option.some.inj h)).1
      exact ⟨fun i hle hlt => by omega, fun T _ _ _ _ _ => ⟨rfl, rfl⟩⟩
  | succ k ih =>
      rw [List.range'_succ] at h
      rcases encodeFragments_cons h with ⟨error, hresult, -⟩ |
        ⟨block, blockDatagrams, next, pool₁, rest, hstep, hrest, hresult⟩
      · cases hresult
      · cases rest with
        | error error => cases hresult
        | ok parts' =>
            obtain rfl := Except.ok.inj hresult
            obtain ⟨one, hlimit, rfl, rfl, hid, hsequence, hcontroller⟩ :=
              encodeFragment_some code hsize hstep
            have hrepair : ∀ i, next.repairFor F decision.config.symbolSize i
                = encoder.repairFor F decision.config.symbolSize i := by
              intro i
              rw [repairFor, hcontroller]
              rfl
            obtain ⟨hfit, hemit⟩ := ih hrest
            refine ⟨fun i hle hlt => ?_, ?_⟩
            · rcases Nat.eq_or_lt_of_le hle with rfl | hlt'
              · exact ⟨one, hlimit⟩
              · rw [← hrepair]
                exact hfit i hlt' (by omega)
            · rintro T rfl hsymbol hat rfl hbound
              rw [hat.emitted_eq hsymbol] at hsequence
              have hblock := hat.encodedBlock_eq hsymbol
              have hdatagrams := hat.datagrams_eq code hsymbol (by omega) one
              obtain ⟨hblocks', hdatagrams'⟩ := hemit T rfl hsymbol
                (hat.succ hid hsequence hcontroller)
                (by rw [List.length_map, List.length_range, hat.emitted_eq hsymbol, T.first_succ])
                (by omega)
              rw [hat.emitted_eq hsymbol] at hblock
              simp only [hat.emitted_eq hsymbol, hblock, hdatagrams, hblocks', hdatagrams',
                List.range'_succ, List.map_cons, List.flatMap_cons, and_self]

/-- A fragment is only sent when the metadata fit the header. -/
lemma encodable_of_encodeFragment {frame : MediaFrame} {size count i first : ℕ}
    {result : EncodedMediaBlock × List Bytes}
    (h : encoder.encodeFragment X frame decision size count i first pool
      = some (.ok result, encoder', pool')) :
    ∃ dtsDeltaMs, frame.metadata.Encodable dtsDeltaMs := by
  by_contra hnot
  obtain ⟨error, herror⟩ := encodeFragment_of_not_encodable hnot size count i first
  rw [herror] at h
  cases h

lemma encodable_of_encodeFragments {frame : MediaFrame} {size count first : ℕ}
    {indices : List ℕ} {parts : List EncodedMediaBlock × List Bytes} (hne : indices ≠ [])
    (h : encodeFragments X frame decision size count encoder indices first pool
      = some (.ok parts, encoder', pool')) :
    ∃ dtsDeltaMs, frame.metadata.Encodable dtsDeltaMs := by
  cases indices with
  | nil => exact absurd rfl hne
  | cons i indices =>
      rcases encodeFragments_cons h with ⟨error, hresult, -⟩ | ⟨_, _, _, _, _, hstep, -⟩
      · cases hresult
      · exact encodable_of_encodeFragment hstep

/-- The parameters the loop over the fragments runs with. -/
structure Cuts (encoder : MediaFecEncoder) (frame : MediaFrame) (decision : FecDecision)
    (size count : ℕ) : Prop where
  decision_eq : decision = encoder.controller.decide (frame.payload.length + mediaFrameHeaderLen)
    frame.metadata.priority
  size_eq : size = decision.config.maxPayloadLen - mediaFrameHeaderLen
  size_pos : 0 < size
  count_eq : count = max (frame.payload.length ⌈/⌉ size) 1

/-- A fragment fits a block together with its header. -/
lemma Cuts.header_add_size_le {size : ℕ} (h : encoder.Cuts frame decision size count) :
    mediaFrameHeaderLen + size ≤ decision.config.maxPayloadLen := by
  have hsize := h.size_eq
  have hpos := h.size_pos
  omega

/-- What is returned for a frame whose fragments were encoded. -/
def encodedOf (frame : MediaFrame) (decision : FecDecision) (count : ℕ)
    (parts : List EncodedMediaBlock × List Bytes) : EncodedMediaFrame where
  sequence := frame.metadata.sequence
  metadata := frame.metadata
  priority := frame.metadata.priority
  fragmentCount := UInt16.ofNat count
  decision := decision
  blocks := parts.1
  datagrams := parts.2

/-- A frame is refused before the loop, without a change, or goes through it. -/
lemma encodeFrameWithOptionalPool_eq_some {frame : MediaFrame}
    {result : Except MediaFecError EncodedMediaFrame}
    (h : encoder.encodeFrameWithOptionalPool X frame pool = some (result, encoder', pool')) :
    (∃ error, result = .error error ∧ encoder' = encoder ∧ pool' = pool) ∨
      ∃ decision size count loop, encoder.Cuts frame decision size count ∧ count ≤ 65535 ∧
        frame.payload.length ≤ u32Max ∧
        encodeFragments X frame decision size count encoder (List.range count) 0 pool
          = some (loop, encoder', pool') ∧
        result = loop.map (encodedOf frame decision count) := by
  rw [encodeFrameWithOptionalPool] at h
  simp only at h
  set decision := encoder.controller.decide (frame.payload.length + mediaFrameHeaderLen)
    frame.metadata.priority with hdecision
  set size := decision.config.maxPayloadLen - mediaFrameHeaderLen with hsize
  have hrefused : ∀ {error : MediaFecError},
      some ((Except.error error : Except MediaFecError EncodedMediaFrame), encoder, pool)
        = some (result, encoder', pool') →
      ∃ error, result = .error error ∧ encoder' = encoder ∧ pool' = pool := by
    intro error heq
    obtain ⟨rfl, hrest⟩ := Prod.mk.inj (Option.some.inj heq)
    obtain ⟨rfl, rfl⟩ := Prod.mk.inj hrest
    exact ⟨error, rfl, rfl, rfl⟩
  split_ifs at h with hsmall hmany hlong
  · exact Or.inl (hrefused h)
  · exact Or.inl (hrefused h)
  · exact Or.inl (hrefused h)
  · obtain ⟨⟨loop, last, pool₁⟩, hloop, heq⟩ := Option.map_eq_some_iff.mp h
    obtain ⟨hresult, hlast⟩ := Prod.mk.inj heq
    obtain ⟨rfl, rfl⟩ := Prod.mk.inj hlast
    exact Or.inr ⟨decision, size, _, loop, ⟨hdecision, hsize, by omega, rfl⟩,
      Nat.le_of_not_lt hmany, Nat.le_of_not_lt hlong, hloop, hresult.symm⟩

/-- **What the encoder sends for a frame it accepts**: the blocks of a transmission. -/
theorem encodeFrameWithOptionalPool_sent {frame : MediaFrame} {encoded : EncodedMediaFrame}
    (h : encoder.encodeFrameWithOptionalPool X frame pool
      = some (.ok encoded, encoder', pool')) :
    ∃ T : Transmission, T.IsSent code encoder frame encoded := by
  rcases encodeFrameWithOptionalPool_eq_some h with ⟨error, hresult, -⟩ |
    ⟨decision, size, count, loop, hcuts, hmany, hlong, hloop, hresult⟩
  · cases hresult
  obtain ⟨hdecision, hsize, hsize_pos, rfl⟩ := hcuts
  cases loop with
  | error error => cases hresult
  | ok parts =>
      obtain rfl := Except.ok.inj hresult
      have hsymbol : 0 < decision.config.symbolSize.toNat := by
        rw [hdecision]
        exact AdaptiveFecController.symbolSizeForPayload_pos _ _
      obtain ⟨dtsDeltaMs, hencodable⟩ := encodable_of_encodeFragments
        (by rw [ne_eq, List.range_eq_nil]; omega) hloop
      let F : Fragmentation :=
        { frame := frame
          size := size
          dtsDeltaMs := dtsDeltaMs
          size_pos := hsize_pos
          count_le := hmany
          length_le := hlong
          encodable := hencodable }
      rw [List.range_eq_range'] at hloop
      obtain ⟨hfit, hemit⟩ := encodeFragments_some code (F := F) hsymbol hloop
      let T : Transmission :=
        { toFragmentation := F
          baseId := encoder.fec.blockId
          baseSequence := encoder.fec.packetSequence
          symbolSize := decision.config.symbolSize
          repair := encoder.repairFor F decision.config.symbolSize
          one := fun i hi => (hfit i (Nat.zero_le i) (by rw [Nat.zero_add]; exact hi)).1
          limit := fun i hi => (hfit i (Nat.zero_le i) (by rw [Nat.zero_add]; exact hi)).2 }
      have hat : encoder.At T 0 := ⟨by simp [T], by simp [T, Transmission.first], rfl⟩
      obtain ⟨hblocks, hdatagrams⟩ := hemit T rfl rfl hat rfl (by rw [Nat.zero_add]; exact le_rfl)
      rw [← List.range_eq_range'] at hblocks hdatagrams
      exact ⟨T, rfl, hsize, rfl, rfl, hblocks, hdatagrams⟩

/-! ## Which frames are accepted -/

/-- A pass over a fragment of a transmission that the encoder stands at succeeds. -/
lemma encodeFragment_eq {T : Transmission} {a : ℕ}
    (hsymbol : T.symbolSize = decision.config.symbolSize) (hpos : 0 < T.symbolSize.toNat)
    (hpayload : mediaFrameHeaderLen + T.size ≤ decision.config.maxPayloadLen)
    (hat : encoder.At T a) (ha : a < T.count) :
    ∃ encoder' pool', encoder.encodeFragment X T.frame decision T.size T.count a (T.first a) pool
        = some (.ok (T.encodedBlock a, T.blockDatagrams code a), encoder', pool') ∧
      encoder'.At T (a + 1) := by
  set fec := (encoder.fec.setSourceSymbols decision.config.sourceSymbols).setSymbolSize
    decision.config.symbolSize with hfec
  have hsize : (T.block a).symbolSize = fec.config.symbolSize := by
    rw [Transmission.symbolSize_block ha, hsymbol]
    exact (max_one_eq (hsymbol ▸ hpos)).symm
  have hid : (T.block a).id = fec.blockId := by
    rw [Transmission.id_block ha]
    exact hat.blockId.symm
  have hlen : (T.block a).object.length ≤ fec.config.maxPayloadLen := by
    have hobject := T.length_object_le a
    have hmax : fec.config.maxPayloadLen = decision.config.maxPayloadLen := by
      have hone : (1 : UInt16).toNat = 1 := rfl
      simp only [DatagramFecConfig.maxPayloadLen, hfec, DatagramFecEncoder.setSymbolSize,
        DatagramFecEncoder.setSourceSymbols, UInt16.toNat_max, hone, Nat.max_assoc, Nat.max_self]
    rw [Transmission.object_block ha, hmax]
    rw [mediaFrameHeaderLen] at hpayload
    omega
  have hlimit : (T.block a).sourceSymbols + (T.repair a).toNat ≤ esiLimit := by
    rw [Transmission.sourceSymbols_block ha]
    exact T.limit a ha
  obtain ⟨pool', hblock⟩ := encodeBlockWithRepairSymbols_eq code (T.block a) pool hid hsize
    hlen hlimit
  rw [Transmission.object_block ha, Transmission.sourceSymbols_block ha, hat.repair, hsymbol,
    hat.emitted_eq hsymbol] at hblock
  have hrepair : encoder.controller.repairSymbolsFor
      (sourceSymbolCount (T.object a).length decision.config.symbolSize) T.frame.metadata.priority
      = encoder.repairFor T.toFragmentation decision.config.symbolSize a := rfl
  have hcount : sourceSymbolCount (T.object a).length decision.config.symbolSize
      = UInt16.ofNat (symbolsFor (T.object a).length decision.config.symbolSize) := by
    have hcount := (T.block a).sourceSymbolCount_eq
    rwa [Transmission.object_block ha, Transmission.symbolSize_block ha, hsymbol,
      Transmission.sourceSymbols_block ha, hsymbol] at hcount
  have hencoded := hat.encodedBlock_eq hsymbol
  rw [hat.emitted_eq hsymbol] at hencoded
  have hdatagrams := T.length_blockDatagrams code a
  have hmap : ((List.range (T.emitted a)).map fun esi =>
      (T.block a).datagram code (fec.packetSequence + UInt32.ofNat esi) esi)
      = T.blockDatagrams code a := by
    refine List.map_congr_left fun e _ => ?_
    rw [Transmission.datagram, UInt32.ofNat_add, ← UInt32.add_assoc, ← hat.packetSequence]
    rfl
  let next : DatagramFecEncoder :=
    { fec with
      packetSequence := fec.packetSequence + UInt32.ofNat (T.emitted a)
      blockId := fec.blockId + 1 }
  refine ⟨{ encoder with fec := next }, pool', ?_, hat.succ rfl rfl rfl⟩
  rw [encodeFragment_of_encodable T.size_pos T.encodable, T.fragmentObject_eq, sendObject,
    hrepair, hblock]
  simp only [Option.map_some, hmap, hdatagrams, hcount, ← hencoded]
  rfl

variable (pool) in
/-- The loop succeeds on the fragments of a transmission that the encoder stands at. -/
lemma encodeFragments_eq {T : Transmission} {a k : ℕ}
    (hsymbol : T.symbolSize = decision.config.symbolSize) (hpos : 0 < T.symbolSize.toNat)
    (hpayload : mediaFrameHeaderLen + T.size ≤ decision.config.maxPayloadLen)
    (hat : encoder.At T a) (hbound : a + k ≤ T.count) :
    ∃ encoder' pool', encodeFragments X T.frame decision T.size T.count encoder (List.range' a k)
        (T.first a) pool
      = some (.ok ((List.range' a k).map T.encodedBlock,
          (List.range' a k).flatMap (T.blockDatagrams code)), encoder', pool') := by
  induction k generalizing a encoder pool with
  | zero => exact ⟨encoder, pool, rfl⟩
  | succ k ih =>
      obtain ⟨next, pool₁, hstep, hat'⟩ := encodeFragment_eq code hsymbol hpos hpayload
        hat (by omega)
      obtain ⟨encoder', pool', hrest⟩ := ih pool₁ hat' (by omega)
      refine ⟨encoder', pool', ?_⟩
      rw [List.range'_succ, encodeFragments, hstep]
      simp only [T.length_blockDatagrams, ← T.first_succ, hrest]
      rfl

/-- **Which frames are accepted**: every transmission that is cut as the controller decides is
sent. -/
theorem encodeFrameWithOptionalPool_of_transmission (T : Transmission)
    (pool : Option DatagramBufferPool)
    (hdecision : decision = encoder.controller.decide (T.frame.payload.length + mediaFrameHeaderLen)
      T.frame.metadata.priority)
    (hsize : mediaFrameHeaderLen + T.size = decision.config.maxPayloadLen)
    (hsymbol : T.symbolSize = decision.config.symbolSize) (hat : encoder.At T 0) :
    ∃ encoded encoder' pool', encoder.encodeFrameWithOptionalPool X T.frame pool
        = some (.ok encoded, encoder', pool') ∧ T.IsSent code encoder T.frame encoded := by
  have hpos : 0 < T.symbolSize.toNat := by
    rw [hsymbol, hdecision]
    exact AdaptiveFecController.symbolSizeForPayload_pos _ _
  obtain ⟨encoder', pool', hloop⟩ := encodeFragments_eq code pool hsymbol hpos
    (Nat.le_of_eq hsize) hat (Nat.le_of_eq (Nat.zero_add T.count))
  have hcut : decision.config.maxPayloadLen - mediaFrameHeaderLen = T.size := by omega
  have hpositive := T.size_pos
  have hbase : T.baseId = encoder.fec.blockId := by
    have hid := hat.blockId
    rw [hid]
    simp
  rw [← List.range_eq_range'] at hloop
  refine ⟨{ sequence := T.frame.metadata.sequence
            metadata := T.frame.metadata
            priority := T.frame.metadata.priority
            fragmentCount := UInt16.ofNat T.count
            decision := decision
            blocks := (List.range T.count).map T.encodedBlock
            datagrams := (List.range T.count).flatMap (T.blockDatagrams code) },
    encoder', pool', ?_, ⟨rfl, hcut.symm, hbase, hsymbol.symm, rfl, rfl⟩⟩
  have hloop' : encodeFragments X T.frame decision T.size
      (max (T.frame.payload.length ⌈/⌉ T.size) 1) encoder
      (List.range (max (T.frame.payload.length ⌈/⌉ T.size) 1)) 0 pool = _ := hloop
  rw [encodeFrameWithOptionalPool]
  simp only [← hdecision, hcut]
  rw [if_neg (by omega), if_neg (Nat.not_lt.mpr T.count_le), if_neg (Nat.not_lt.mpr T.length_le),
    hloop']
  rfl

/-- An encoder whose controller leaves no choice, about to send a transmission. -/
def fixedFor (T : Transmission) (sourceSymbols : UInt16) (repairSymbols : UInt32) :
    MediaFecEncoder :=
  ⟨⟨T.baseId, T.baseSequence, DatagramFecConfig.default⟩,
    AdaptiveFecController.fixed sourceSymbols T.symbolSize repairSymbols, 0⟩

/-- It accepts the frame. -/
lemma fixedFor_accepts (T : Transmission) (sourceSymbols : UInt16) (repairSymbols : UInt32)
    (hpriority : T.frame.metadata.priority ≠ .audio) (hsource : 0 < sourceSymbols.toNat)
    (hsymbol : 0 < T.symbolSize.toNat)
    (hsize : mediaFrameHeaderLen + T.size = sourceSymbols.toNat * T.symbolSize.toNat)
    (hrepair : T.repair = fun _ => repairSymbols) :
    ∃ encoded encoder' pool', (fixedFor T sourceSymbols repairSymbols).encodeFrameWithOptionalPool X
        T.frame none = some (.ok encoded, encoder', pool') ∧
      T.IsSent code (fixedFor T sourceSymbols repairSymbols) T.frame encoded := by
  have hconfig := AdaptiveFecController.decide_fixed repairSymbols hsource
    hsymbol (T.frame.payload.length + mediaFrameHeaderLen) hpriority
  refine encodeFrameWithOptionalPool_of_transmission code T none rfl ?_ ?_ ⟨?_, ?_, ?_⟩
  · rw [fixedFor, hconfig, DatagramFecConfig.maxPayloadLen]
    simp only
    rw [Nat.max_eq_left hsource, Nat.max_eq_left hsymbol, hsize]
  · rw [fixedFor, hconfig]
  · simp [fixedFor]
  · simp [fixedFor, Transmission.first]
  · rw [hrepair]
    exact funext fun i => (AdaptiveFecController.repairSymbolsFor_fixed _ _).symm

end MediaFecEncoder

/-! ## What is delivered -/

namespace Transmission

variable {X : Crates} (code : X.Systematic) {T : Transmission} {i e : ℕ} {keep : ℕ → Bool}

/-- All datagrams of the transmission. -/
def datagrams (T : Transmission) : List Bytes :=
  (List.range T.count).flatMap (T.blockDatagrams code)

/-- The symbols among `es` of a block whose datagrams are not dropped. -/
def kept (T : Transmission) (keep : ℕ → Bool) (i : ℕ) (es : List ℕ) : List ℕ :=
  es.filter fun e => keep (T.first i + e)

lemma length_flatMap_blockDatagrams (n : ℕ) :
    ((List.range n).flatMap (T.blockDatagrams code)).length = T.first n := by
  induction n with
  | zero => rfl
  | succ n ih =>
      rw [List.range_succ, List.flatMap_append, List.length_append, ih, first_succ,
        List.flatMap_singleton, length_blockDatagrams]

/-- The datagram at an index. -/
lemma getD_datagrams (hi : i < T.count) (he : e < T.emitted i) :
    (T.datagrams code).getD (T.first i + e) [] = T.datagram code i e := by
  have hrange : List.range T.count
      = List.range i ++ i :: List.range' (i + 1) (T.count - (i + 1)) := by
    have happend := List.range'_append_1 (s := 0) (m := i) (n := T.count - i)
    rw [Nat.zero_add, show i + (T.count - i) = T.count by omega] at happend
    rw [List.range_eq_range', List.range_eq_range', ← happend, ← List.range'_succ]
    congr 2
    omega
  have hlen := T.length_blockDatagrams code i
  rw [datagrams, hrange, List.flatMap_append, List.getD_append_right _ _ _ _
    (by rw [length_flatMap_blockDatagrams]; omega), length_flatMap_blockDatagrams,
    Nat.add_sub_cancel_left, List.flatMap_cons, List.getD_append _ _ _ _ (by omega),
    List.getD_eq_getElem _ _ (by omega)]
  simp only [blockDatagrams, List.getElem_map, List.getElem_range]

/-- Delivering some of the symbols of one block. -/
lemma deliver_block (hi : i < T.count) {es : List ℕ} (hes : ∀ e ∈ es, e < T.emitted i) :
    deliver (T.datagrams code) (es.map (T.first i + ·)) keep
      = (T.kept keep i es).map (T.datagram code i) := by
  rw [deliver, List.filter_map, List.map_map]
  refine List.map_congr_left fun e he => ?_
  exact getD_datagrams code hi (hes e (List.mem_filter.mp he).1)

/-- A transmission has fewer than `2 ^ 64` datagrams. -/
lemma first_le (hi : i ≤ T.count) : T.first i ≤ i * esiLimit := by
  induction i with
  | zero => simp [first]
  | succ i ih =>
      have hemitted : T.emitted i ≤ esiLimit := T.limit i hi
      rw [first_succ, Nat.succ_mul]
      exact Nat.add_le_add (ih (by omega)) hemitted

lemma first_add_emitted_le (hi : i < T.count) : T.first i + T.emitted i ≤ usizeMax := by
  have hle := T.first_le (i := i + 1) hi
  have hcount := T.count_lt
  rw [first_succ, esiLimit] at hle
  rw [usizeMax]
  omega

lemma sourceDatagramIndices_eq (hi : i < T.count) :
    (T.encodedBlock i).sourceDatagramIndices
      = (List.range (symbolsFor (T.object i).length T.symbolSize)).map (T.first i + ·) := by
  have hbound := first_add_emitted_le hi
  have hle := T.sourceSymbols_le_emitted i
  have hcount := toNat_sourceSymbols hi
  rw [EncodedMediaBlock.sourceDatagramIndices, rangeIndices]
  simp only [hcount, satAddUsize]
  simp only [encodedBlock]
  rw [← List.range'_eq_map_range]
  congr 1
  omega

lemma repairDatagramIndices_eq (hi : i < T.count) :
    (T.encodedBlock i).repairDatagramIndices
      = (List.range' (symbolsFor (T.object i).length T.symbolSize) (T.repair i).toNat).map
          (T.first i + ·) := by
  have hbound := first_add_emitted_le hi
  have hle := T.sourceSymbols_le_emitted i
  have hcount := toNat_sourceSymbols hi
  have hemitted : T.emitted i = symbolsFor (T.object i).length T.symbolSize + (T.repair i).toNat :=
    rfl
  rw [EncodedMediaBlock.repairDatagramIndices, rangeIndices]
  simp only [hcount, satAddUsize]
  simp only [encodedBlock]
  rw [List.map_add_range']
  congr 1 <;> omega

lemma map_sendEntries (block : EncodedMediaBlock) (role : MediaDatagramRole) :
    (block.sendEntries role).map (·.datagramIndex) = match role with
      | .source => block.sourceDatagramIndices
      | .repair => block.repairDatagramIndices := by
  cases role <;> simp [EncodedMediaBlock.sendEntries, Function.comp_def]

variable {code} {encoder : MediaFecEncoder} {frame : MediaFrame} {encoded : EncodedMediaFrame}

lemma IsSent.mem_blocks (h : T.IsSent code encoder frame encoded) {block : EncodedMediaBlock} :
    block ∈ encoded.blocks ↔ ∃ i < T.count, block = T.encodedBlock i := by
  rw [h.blocks_eq, List.mem_map]
  simp only [List.mem_range, eq_comm]

/-- The indices of the datagrams, block by block. -/
lemma range_first (n : ℕ) : List.range (T.first n)
    = (List.range n).flatMap fun i => (List.range (T.emitted i)).map (T.first i + ·) := by
  induction n with
  | zero => rfl
  | succ n ih =>
      rw [List.range_succ, List.flatMap_append, ← ih, List.flatMap_singleton, first_succ,
        List.range_add]

/-- The source and the repair indices of a block are its indices. -/
lemma sourceIndices_append_repairIndices (hi : i < T.count) :
    (T.encodedBlock i).sourceDatagramIndices ++ (T.encodedBlock i).repairDatagramIndices
      = (List.range (T.emitted i)).map (T.first i + ·) := by
  rw [sourceDatagramIndices_eq hi, repairDatagramIndices_eq hi, emitted, List.range_add,
    List.map_append, List.range'_eq_map_range]

/-- The source indices and the repair indices of all blocks are the indices of the frame. -/
theorem IsSent.indices_perm (h : T.IsSent code encoder frame encoded) :
    ((encoded.blocks.flatMap fun block => block.sourceDatagramIndices)
      ++ encoded.blocks.flatMap fun block => block.repairDatagramIndices).Perm
      (List.range encoded.datagrams.length) := by
  have hlen : encoded.datagrams.length = T.first T.count := by
    rw [h.datagrams_eq, length_flatMap_blockDatagrams]
  refine (List.flatMap_append_perm _ _ _).trans (List.Perm.of_eq ?_)
  rw [h.blocks_eq, List.flatMap_map, hlen, range_first]
  exact List.flatMap_congr fun i hi => sourceIndices_append_repairIndices (List.mem_range.mp hi)

/-- **Emitted order**: what is left of the blocks, one behind the other. -/
theorem IsSent.deliver_emitted (h : T.IsSent code encoder frame encoded) (keep : ℕ → Bool) :
    deliver encoded.datagrams encoded.emittedDatagramIndices keep
      = (List.range T.count).flatMap fun i =>
          (T.kept keep i (List.range (T.emitted i))).map (T.datagram code i) := by
  have hlen : encoded.datagrams.length = T.first T.count := by
    rw [h.datagrams_eq, length_flatMap_blockDatagrams]
  rw [EncodedMediaFrame.emittedDatagramIndices, hlen, range_first, deliver_flatMap, h.datagrams_eq]
  refine List.flatMap_congr fun i hi => ?_
  exact deliver_block code (List.mem_range.mp hi) fun e he => List.mem_range.mp he

/-- **Source-first order**: the sources that are left, and then the repairs that are left. -/
theorem IsSent.deliver_sourceFirst (h : T.IsSent code encoder frame encoded) (keep : ℕ → Bool) :
    deliver encoded.datagrams encoded.sourceFirstDatagramIndices keep
      = ((List.range T.count).flatMap fun i =>
          (T.kept keep i (List.range (symbolsFor (T.object i).length T.symbolSize))).map
            (T.datagram code i))
        ++ (List.range T.count).flatMap fun i =>
          (T.kept keep i (List.range' (symbolsFor (T.object i).length T.symbolSize)
            (T.repair i).toNat)).map (T.datagram code i) := by
  rw [EncodedMediaFrame.sourceFirstDatagramIndices, EncodedMediaFrame.datagramSendPlan,
    List.map_append, List.map_flatMap, List.map_flatMap, deliver_append, h.blocks_eq,
    List.flatMap_map, List.flatMap_map, deliver_flatMap, deliver_flatMap, h.datagrams_eq]
  simp only [map_sendEntries]
  congr 1
  · refine List.flatMap_congr fun i hi => ?_
    rw [sourceDatagramIndices_eq (List.mem_range.mp hi)]
    exact deliver_block code (List.mem_range.mp hi) fun e he =>
      Nat.lt_of_lt_of_le (List.mem_range.mp he) (T.sourceSymbols_le_emitted i)
  · refine List.flatMap_congr fun i hi => ?_
    rw [repairDatagramIndices_eq (List.mem_range.mp hi)]
    exact deliver_block code (List.mem_range.mp hi) fun e he => (List.mem_range'_1.mp he).2

end Transmission

end RaptorFec
