import RaptorFec.Crates.Repetition
import RaptorFec.Datagram.Honest

/-!
# Repair on demand

`RaptorQRepairEncoder` recreates a source block from its profile and emits further repair datagrams
for it, batch by batch.  It has two cursors: the ordinal of the next repair symbol, which decides
the symbol ids, and the packet sequence.

* `RaptorQBlockProfile` — the block id and the geometry that a datagram announces;
* `RepairPackets.Consecutive` — what is assumed of the crate: the repair packets it returns have
  consecutive symbol ids behind the source symbols, and data of one symbol;
* `encodeAdditional_cases` — a call fails and changes nothing, or emits its batch and moves both
  cursors past it;
* `encodeAdditional_run` — whatever calls are made, the symbol ids that are emitted are consecutive,
  and so are the packet sequences.
-/

namespace RaptorFec

/-- `HARD_MAX_EXTRA_REPAIR_SYMBOLS`. -/
def hardMaxExtraRepairSymbols : UInt32 := 4096

/-- Bound on the object of a repair encoder. -/
def hardMaxRepairSourceBytes : ℕ := 16 * 1024 * 1024 + 256 * 1024

/-- Bound on the bytes one call emits. -/
def hardMaxAdditionalRepairBytes : ℕ := 16 * 1024 * 1024

/-! ## Block profiles -/

/-- Stable block namespace and one-block geometry. -/
structure RaptorQBlockProfile where
  blockId : UInt32
  transferLength : UInt32
  sourceSymbols : UInt16
  symbolSize : UInt16
  deriving DecidableEq, Repr

namespace RaptorQBlockProfile

/-- `RaptorQBlockProfile::new`. -/
def new (blockId transferLength : UInt32) (sourceSymbols symbolSize : UInt16) :
    Except DatagramFecError RaptorQBlockProfile := do
  validateOneBlockGeometry transferLength sourceSymbols symbolSize
  .ok ⟨blockId, transferLength, sourceSymbols, symbolSize⟩

/-- `from_header`. -/
def fromHeader (header : DatagramFecHeader) : Except DatagramFecError RaptorQBlockProfile := do
  header.validateFields
  new header.blockId header.transferLength header.sourceSymbols header.symbolSize

/-- `from_datagram`: the profile of a source or repair datagram. -/
def fromDatagram (X : Crates) (datagram : Bytes) : Except DatagramFecError RaptorQBlockProfile :=
  if datagram.length < headerLen + encodingPacketHeaderLen then
    .error (.packetTooShort datagram.length)
  else do
    let header ← DatagramFecHeader.decode datagram
    let payload ← header.payload X datagram
    if payload.length < encodingPacketHeaderLen then .error (.packetTooShort datagram.length)
    else
      let packet := X.deserialize payload
      if packet.sourceBlockNumber ≠ 0 then
        .error (.unsupportedSourceBlockNumber packet.sourceBlockNumber)
      else if packet.data.length ≠ header.symbolSize.toNat then
        .error (.symbolSizeMismatch header.symbolSize.toNat packet.data.length)
      else fromHeader header

def oti (self : RaptorQBlockProfile) : ObjectTransmissionInformation :=
  exactOneBlockOti (UInt64.ofNat self.transferLength.toNat) self.symbolSize

/-- The geometry of the profile is that of one block. -/
def Geometry (self : RaptorQBlockProfile) : Prop :=
  OneBlockGeometry self.transferLength self.sourceSymbols self.symbolSize

end RaptorQBlockProfile

/-! ## The repair encoder -/

/-- `repair_packets(start, count)` of the one source block of `Encoder::new(object, oti)`. -/
abbrev RepairPackets :=
  Bytes → ObjectTransmissionInformation → UInt32 → UInt32 → List EncodingPacket

/-- The packet of one symbol of a block. -/
structure SymbolPacket (symbolSize : UInt16) (esi : ℕ) (packet : EncodingPacket) : Prop where
  sourceBlockNumber : packet.sourceBlockNumber = 0
  encodingSymbolId : packet.encodingSymbolId.toNat = esi
  length : packet.data.length = symbolSize.toNat

/-- Repair packets have consecutive symbol ids behind those of the source symbols, and data of one
symbol. -/
def RepairPackets.Consecutive (repairPackets : RepairPackets) : Prop :=
  ∀ object symbolSize (start count : UInt32), OneBlock object symbolSize →
    symbolsFor object.length symbolSize + start.toNat + count.toNat ≤ esiLimit →
    ∃ packet : ℕ → EncodingPacket,
      repairPackets object (oneBlockOti object symbolSize) start count
        = (List.range count.toNat).map packet ∧
      ∀ i < count.toNat, SymbolPacket symbolSize
        (symbolsFor object.length symbolSize + start.toNat + i) (packet i)

/-- An on-demand encoder; `encoder` holds what `Encoder::new` was given. -/
structure RaptorQRepairEncoder where
  profile : RaptorQBlockProfile
  encoder : Bytes × ObjectTransmissionInformation
  nextRepairSymbol : UInt32
  nextPacketSequence : UInt32
  deriving DecidableEq

/-- `validate_repair_symbol_range`. -/
def validateRepairSymbolRange (profile : RaptorQBlockProfile)
    (nextRepairSymbol requested : UInt32) : Except DatagramFecError Unit :=
  let endRepairSymbol := nextRepairSymbol.toNat + requested.toNat
  -- the addition is checked
  if u32Max < endRepairSymbol then
    .error (.repairSymbolIdExhausted profile.sourceSymbols nextRepairSymbol requested)
  else if esiLimit - profile.sourceSymbols.toNat < endRepairSymbol then
    .error (.repairSymbolIdExhausted profile.sourceSymbols nextRepairSymbol requested)
  else .ok ()

namespace RaptorQRepairEncoder

/-- `RaptorQRepairEncoder::new`. -/
def new (source : Bytes) (profile : RaptorQBlockProfile)
    (alreadyEmittedRepairSymbols nextPacketSequence : UInt32) :
    Except DatagramFecError RaptorQRepairEncoder := do
  validateOneBlockGeometry profile.transferLength profile.sourceSymbols profile.symbolSize
  if hardMaxRepairSourceBytes < profile.transferLength.toNat then
    .error (.repairSourceTooLarge profile.transferLength.toNat hardMaxRepairSourceBytes)
  else if source.length ≠ profile.transferLength.toNat then
    .error (.transferLengthMismatch profile.transferLength source.length)
  else
    validateRepairSymbolRange profile alreadyEmittedRepairSymbols 0
    .ok ⟨profile, (source, profile.oti), alreadyEmittedRepairSymbols, nextPacketSequence⟩

variable (X : Crates) (repairPackets : RepairPackets) (self : RaptorQRepairEncoder)

/-- `next_encoding_symbol_id`. -/
def nextEncodingSymbolId : Option UInt32 :=
  let encodingSymbolId := self.profile.sourceSymbols.toNat + self.nextRepairSymbol.toNat
  if u32Max < encodingSymbolId then none
  else if encodingSymbolId < esiLimit then some (UInt32.ofNat encodingSymbolId)
  else none

/-- The loop of `encode_additional` over the packets. -/
def encodePackets (profile : RaptorQBlockProfile) :
    List EncodingPacket → UInt32 → Except DatagramFecError (List Bytes × UInt32)
  | [], packetSequence => .ok ([], packetSequence)
  | packet :: packets, packetSequence => do
      let serialized := X.serialize packet
      let header ← DatagramFecHeader.raptorq X profile.blockId profile.transferLength
        packetSequence profile.sourceSymbols profile.symbolSize serialized
      let datagram ← header.encode (List.replicate headerLen 0)
      let (datagrams, packetSequence) ← encodePackets profile packets (packetSequence + 1)
      .ok ((datagram ++ serialized) :: datagrams, packetSequence)

/-- `encode_additional`, with the encoder after the call. -/
def encodeAdditional (repairSymbols : UInt32) :
    Except DatagramFecError (List Bytes) × RaptorQRepairEncoder :=
  if repairSymbols = 0 ∨ hardMaxExtraRepairSymbols < repairSymbols then
    (.error (.additionalRepairSymbolCount repairSymbols hardMaxExtraRepairSymbols), self)
  else
    let outputBytes := datagramSizeForSymbolSize self.profile.symbolSize * repairSymbols.toNat
    if hardMaxAdditionalRepairBytes < outputBytes then
      (.error (.additionalRepairOutputTooLarge outputBytes hardMaxAdditionalRepairBytes), self)
    else
      match validateRepairSymbolRange self.profile self.nextRepairSymbol repairSymbols with
      | .error error => (.error error, self)
      | .ok () =>
          let packets := repairPackets self.encoder.1 self.encoder.2 self.nextRepairSymbol
            repairSymbols
          match encodePackets X self.profile packets self.nextPacketSequence with
          | .error error => (.error error, self)
          | .ok (datagrams, packetSequence) =>
              (.ok datagrams,
                { self with
                  nextRepairSymbol := self.nextRepairSymbol + repairSymbols
                  nextPacketSequence := packetSequence })

end RaptorQRepairEncoder

/-! ## The datagrams of a batch -/

/-- The datagram of a packet of the block, under a packet sequence. -/
def RaptorQBlockProfile.datagram (X : Crates) (profile : RaptorQBlockProfile)
    (packet : EncodingPacket) (sequence : UInt32) : Bytes :=
  (DatagramFecHeader.sealed X profile.blockId profile.transferLength sequence profile.sourceSymbols
    profile.symbolSize (X.serialize packet)).headerBytes ++ X.serialize packet

section Batch

variable {X : Crates} (code : X.Systematic) {profile : RaptorQBlockProfile}
  {packet : EncodingPacket} {esi : ℕ}

include code

lemma length_serialized_packet (h : SymbolPacket profile.symbolSize esi packet) :
    (X.serialize packet).length = encodingPacketHeaderLen + profile.symbolSize.toNat := by
  rw [code.length_serialize, h.length]
  rfl

lemma length_serialized_packet_le (h : SymbolPacket profile.symbolSize esi packet) :
    (X.serialize packet).length ≤ u32Max := by
  have hsize : profile.symbolSize.toNat < 65536 := profile.symbolSize.toNat_lt
  rw [length_serialized_packet code h, encodingPacketHeaderLen, u32Max]
  omega

/-- What a decoder finds in the datagram of a packet. -/
lemma opens_datagram (hgeometry : profile.Geometry) (sequence : UInt32)
    (h : SymbolPacket profile.symbolSize esi packet) :
    DatagramFecHeader.decode (profile.datagram X packet sequence)
        = .ok (DatagramFecHeader.sealed X profile.blockId profile.transferLength sequence
          profile.sourceSymbols profile.symbolSize (X.serialize packet)) ∧
      (DatagramFecHeader.sealed X profile.blockId profile.transferLength sequence
          profile.sourceSymbols profile.symbolSize (X.serialize packet)).payload X
          (profile.datagram X packet sequence) = .ok (X.serialize packet) :=
  ⟨DatagramFecHeader.decode_headerBytes (DatagramFecHeader.sealed_valid hgeometry) _,
    DatagramFecHeader.payload_sealed hgeometry (length_serialized_packet_le code h)⟩

/-- The symbol id can be read off the datagram. -/
lemma wireSymbol_datagram (hgeometry : profile.Geometry) (sequence : UInt32)
    (h : SymbolPacket profile.symbolSize esi packet) (hesi : esi < esiLimit) :
    wireSymbol X (profile.datagram X packet sequence) = some (profile.blockId, esi) := by
  obtain ⟨hdecode, hpayload⟩ := opens_datagram code hgeometry sequence h
  rw [← h.encodingSymbolId] at hesi
  rw [wireSymbol, hdecode]
  simp only [hpayload, code.deserialize_serialize packet hesi, h.encodingSymbolId]
  rfl

lemma wireSequence_datagram (hgeometry : profile.Geometry) (sequence : UInt32)
    (h : SymbolPacket profile.symbolSize esi packet) :
    wireSequence (profile.datagram X packet sequence) = some sequence := by
  rw [wireSequence, (opens_datagram code hgeometry sequence h).1]
  rfl

/-- The datagram parses back to the profile. -/
lemma fromDatagram_datagram (hgeometry : profile.Geometry) (sequence : UInt32)
    (h : SymbolPacket profile.symbolSize esi packet) (hesi : esi < esiLimit) :
    RaptorQBlockProfile.fromDatagram X (profile.datagram X packet sequence) = .ok profile := by
  obtain ⟨hdecode, hpayload⟩ := opens_datagram code hgeometry sequence h
  have hserialized := length_serialized_packet code h
  have hlen : (profile.datagram X packet sequence).length
      = headerLen + (X.serialize packet).length := by
    rw [RaptorQBlockProfile.datagram, List.length_append, DatagramFecHeader.length_headerBytes]
    rfl
  have hfields : (DatagramFecHeader.sealed X profile.blockId profile.transferLength sequence
      profile.sourceSymbols profile.symbolSize (X.serialize packet)).validateFields = .ok () :=
    DatagramFecHeader.validateFields_eq_ok_iff.mpr (DatagramFecHeader.sealed_valid hgeometry)
  rw [← h.encodingSymbolId] at hesi
  rw [RaptorQBlockProfile.fromDatagram, if_neg (by omega), hdecode, ok_bind, hpayload, ok_bind,
    if_neg (by omega), code.deserialize_serialize packet hesi]
  simp only
  rw [if_neg (not_not.mpr h.sourceBlockNumber)]
  refine (if_neg (not_not.mpr h.length)).trans ?_
  rw [RaptorQBlockProfile.fromHeader, hfields, ok_bind, RaptorQBlockProfile.new]
  change (validateOneBlockGeometry profile.transferLength profile.sourceSymbols
    profile.symbolSize).bind _ = _
  rw [validateOneBlockGeometry_eq_ok_iff.mpr hgeometry]
  rfl

/-- The loop of `encode_additional` emits the datagram of each packet. -/
lemma encodePackets_range (hgeometry : profile.Geometry) (packet : ℕ → EncodingPacket)
    (first count : ℕ) (sequence : UInt32)
    (h : ∀ i < count, SymbolPacket profile.symbolSize (first + i) (packet i)) :
    RaptorQRepairEncoder.encodePackets X profile ((List.range count).map packet) sequence
      = .ok ((List.range count).map fun i =>
            profile.datagram X (packet i) (sequence + UInt32.ofNat i),
          sequence + UInt32.ofNat count) := by
  induction count generalizing packet first sequence with
  | zero => simp [RaptorQRepairEncoder.encodePackets]
  | succ count ih =>
      have hlen := length_serialized_packet_le code (h 0 (by omega))
      have hrest := ih (fun i => packet (i + 1)) (first + 1) (sequence + 1) fun i hi => by
        rw [Nat.add_assoc, Nat.add_comm 1 i]
        exact h (i + 1) (by omega)
      have hencode : (DatagramFecHeader.sealed X profile.blockId profile.transferLength sequence
          profile.sourceSymbols profile.symbolSize (X.serialize (packet 0))).encode
            (List.replicate headerLen 0) = .ok _ :=
        DatagramFecHeader.encode_eq (DatagramFecHeader.sealed_valid hgeometry) (by simp [headerLen])
      rw [List.range_succ_eq_map, List.map_cons, List.map_map, RaptorQRepairEncoder.encodePackets]
      simp only [DatagramFecHeader.raptorq_eq hgeometry hlen, ok_bind, hencode,
        Function.comp_def, hrest, add_one_add_ofNat, List.map_cons, List.map_map]
      simp [RaptorQBlockProfile.datagram, headerLen]

end Batch

/-! ## One call -/

namespace RaptorQRepairEncoder

variable {X : Crates} {repairPackets : RepairPackets} {source : Bytes}
  {profile : RaptorQBlockProfile} {self : RaptorQRepairEncoder}

/-- The encoder was made for the block, and its next symbol id is not past the last one. -/
structure Ready (source : Bytes) (profile : RaptorQBlockProfile)
    (state : RaptorQRepairEncoder) : Prop where
  profile_eq : state.profile = profile
  encoder_eq : state.encoder = (source, oneBlockOti source profile.symbolSize)
  geometry : profile.Geometry
  one : OneBlock source profile.symbolSize
  sourceSymbols : profile.sourceSymbols.toNat = symbolsFor source.length profile.symbolSize
  room : profile.sourceSymbols.toNat + state.nextRepairSymbol.toNat ≤ esiLimit

lemma validateRepairSymbolRange_eq_ok_iff {nextRepairSymbol requested : UInt32} :
    validateRepairSymbolRange profile nextRepairSymbol requested = .ok () ↔
      profile.sourceSymbols.toNat + (nextRepairSymbol.toNat + requested.toNat) ≤ esiLimit := by
  have hK : profile.sourceSymbols.toNat < 65536 := profile.sourceSymbols.toNat_lt
  have hlimit : esiLimit = 16777216 := rfl
  have hmax : u32Max = 4294967295 := rfl
  rw [validateRepairSymbolRange]
  constructor
  · intro h
    split_ifs at h with hover hroom
    omega
  · intro h
    rw [if_neg (by omega), if_neg (by omega)]

/-- A new encoder is ready, behind the repair symbols that were emitted already. -/
lemma ready_new {already sequence : UInt32} (h : new source profile already sequence = .ok self) :
    Ready source profile self ∧ self.nextRepairSymbol = already ∧
      self.nextPacketSequence = sequence := by
  obtain ⟨_, hgeometry, h⟩ := bind_eq_ok_iff.mp h
  have hgeometry := validateOneBlockGeometry_eq_ok_iff.mp hgeometry
  split_ifs at h with hlarge hlen
  obtain ⟨_, hrange, h⟩ := bind_eq_ok_iff.mp h
  have hrange := validateRepairSymbolRange_eq_ok_iff.mp hrange
  cases h
  have hlen : source.length = profile.transferLength.toNat := not_not.mp hlen
  have hsymbols := hgeometry.symbols_eq
  rw [← hlen] at hsymbols
  refine ⟨⟨rfl, ?_, hgeometry, ⟨?_, hgeometry.symbolSize_pos, ?_⟩, hsymbols, ?_⟩, rfl, rfl⟩
  · rw [RaptorQBlockProfile.oti, exactOneBlockOti, max_one_eq hgeometry.symbolSize_pos, ← hlen]
    rfl
  · rintro rfl
    have hpos := hgeometry.transferLength_pos
    rw [← hlen] at hpos
    exact absurd hpos (by simp)
  · rw [hlen]
    exact hgeometry.symbols_le
  · simpa using hrange

section Call

variable (code : X.Systematic) (hrepair : repairPackets.Consecutive)
  (h : Ready source profile self) {repairSymbols : UInt32}

include code hrepair h

/-- **A call that passes the checks** emits its batch, and moves both cursors past it. -/
theorem encodeAdditional_ok
    (hcount : ¬ (repairSymbols = 0 ∨ hardMaxExtraRepairSymbols < repairSymbols))
    (hbytes : datagramSizeForSymbolSize profile.symbolSize * repairSymbols.toNat
      ≤ hardMaxAdditionalRepairBytes)
    (hroom : profile.sourceSymbols.toNat + (self.nextRepairSymbol.toNat + repairSymbols.toNat)
      ≤ esiLimit) :
    ∃ packet : ℕ → EncodingPacket,
      (∀ i < repairSymbols.toNat, SymbolPacket profile.symbolSize
        (profile.sourceSymbols.toNat + self.nextRepairSymbol.toNat + i) (packet i)) ∧
      self.encodeAdditional X repairPackets repairSymbols
        = (.ok ((List.range repairSymbols.toNat).map fun i =>
              profile.datagram X (packet i) (self.nextPacketSequence + UInt32.ofNat i)),
            { self with
              nextRepairSymbol := self.nextRepairSymbol + repairSymbols
              nextPacketSequence := self.nextPacketSequence
                + UInt32.ofNat repairSymbols.toNat }) := by
  obtain ⟨packet, hpackets, hpacket⟩ := hrepair source profile.symbolSize self.nextRepairSymbol
    repairSymbols h.one (by rw [← h.sourceSymbols]; omega)
  rw [← h.sourceSymbols] at hpacket
  refine ⟨packet, hpacket, ?_⟩
  have hrange := validateRepairSymbolRange_eq_ok_iff.mpr hroom
  have hloop := encodePackets_range code h.geometry packet _ repairSymbols.toNat
    self.nextPacketSequence hpacket
  rw [encodeAdditional, if_neg hcount]
  simp only [h.profile_eq, h.encoder_eq, hrange, hpackets, hloop]
  rw [if_neg (Nat.not_lt.mpr hbytes)]

/-- **What a call does**: it fails and changes nothing, or emits its batch. -/
theorem encodeAdditional_cases (repairSymbols : UInt32) :
    (∃ error, self.encodeAdditional X repairPackets repairSymbols = (.error error, self)) ∨
    (profile.sourceSymbols.toNat + (self.nextRepairSymbol.toNat + repairSymbols.toNat)
        ≤ esiLimit ∧
      ∃ packet : ℕ → EncodingPacket,
        (∀ i < repairSymbols.toNat, SymbolPacket profile.symbolSize
          (profile.sourceSymbols.toNat + self.nextRepairSymbol.toNat + i) (packet i)) ∧
        self.encodeAdditional X repairPackets repairSymbols
          = (.ok ((List.range repairSymbols.toNat).map fun i =>
                profile.datagram X (packet i) (self.nextPacketSequence + UInt32.ofNat i)),
              { self with
                nextRepairSymbol := self.nextRepairSymbol + repairSymbols
                nextPacketSequence := self.nextPacketSequence
                  + UInt32.ofNat repairSymbols.toNat })) := by
  by_cases hcount : repairSymbols = 0 ∨ hardMaxExtraRepairSymbols < repairSymbols
  · exact Or.inl ⟨_, by rw [encodeAdditional, if_pos hcount]⟩
  by_cases hbytes : hardMaxAdditionalRepairBytes
      < datagramSizeForSymbolSize profile.symbolSize * repairSymbols.toNat
  · refine Or.inl ⟨.additionalRepairOutputTooLarge
      (datagramSizeForSymbolSize profile.symbolSize * repairSymbols.toNat)
      hardMaxAdditionalRepairBytes, ?_⟩
    rw [encodeAdditional, if_neg hcount]
    simp only [h.profile_eq]
    rw [if_pos hbytes]
  by_cases hroom : profile.sourceSymbols.toNat
      + (self.nextRepairSymbol.toNat + repairSymbols.toNat) ≤ esiLimit
  · exact Or.inr ⟨hroom, encodeAdditional_ok code hrepair h hcount (Nat.not_lt.mp hbytes) hroom⟩
  · cases hrange : validateRepairSymbolRange profile self.nextRepairSymbol repairSymbols with
    | ok _ => exact absurd (validateRepairSymbolRange_eq_ok_iff.mp hrange) hroom
    | error error =>
        refine Or.inl ⟨error, ?_⟩
        rw [encodeAdditional, if_neg hcount]
        simp only [h.profile_eq]
        rw [if_neg hbytes, hrange]

end Call

/-! ## A run of calls -/

/-- The datagrams of the calls that succeeded, in order. -/
def emitted (results : List (Except DatagramFecError (List Bytes))) : List Bytes :=
  results.flatMap fun result => result.toOption.getD []

lemma emitted_snoc (results : List (Except DatagramFecError (List Bytes)))
    (result : Except DatagramFecError (List Bytes)) :
    emitted (results ++ [result]) = emitted results ++ result.toOption.getD [] := by
  simp [emitted]

variable (X) in
/-- The datagrams an encoder emitted from repair ordinal `already` and a packet sequence on, and the
cursors behind them. -/
structure Emitted (profile : RaptorQBlockProfile) (already sequence : UInt32)
    (datagrams : List Bytes) (state : RaptorQRepairEncoder) : Prop where
  symbols : datagrams.map (wireSymbol X) = (List.range datagrams.length).map fun i =>
    some (profile.blockId, profile.sourceSymbols.toNat + already.toNat + i)
  sequences : datagrams.map wireSequence = (List.range datagrams.length).map fun i =>
    some (sequence + UInt32.ofNat i)
  profiles : ∀ datagram ∈ datagrams, RaptorQBlockProfile.fromDatagram X datagram = .ok profile
  nextRepairSymbol : state.nextRepairSymbol.toNat = already.toNat + datagrams.length
  nextPacketSequence : state.nextPacketSequence = sequence + UInt32.ofNat datagrams.length

section Run

variable (code : X.Systematic) (hrepair : repairPackets.Consecutive) {already sequence : UInt32}

include code hrepair

/-- A call keeps the encoder ready, and what was emitted gapless. -/
lemma Emitted.step {datagrams : List Bytes} (h : Ready source profile self)
    (hemitted : Emitted X profile already sequence datagrams self) (repairSymbols : UInt32) :
    Ready source profile (self.encodeAdditional X repairPackets repairSymbols).2 ∧
      Emitted X profile already sequence
        (datagrams ++ (self.encodeAdditional X repairPackets repairSymbols).1.toOption.getD [])
        (self.encodeAdditional X repairPackets repairSymbols).2 := by
  rcases encodeAdditional_cases code hrepair h repairSymbols with ⟨error, hcall⟩ |
    ⟨hroom, packet, hpacket, hcall⟩
  · rw [hcall]
    have hnone : (Except.error error : Except DatagramFecError (List Bytes)).toOption.getD [] = [] :=
      rfl
    rw [hnone, List.append_nil]
    exact ⟨h, hemitted⟩
  have hlimit : esiLimit = 16777216 := rfl
  have hordinal := hemitted.nextRepairSymbol
  have hnext : (self.nextRepairSymbol + repairSymbols).toNat
      = self.nextRepairSymbol.toNat + repairSymbols.toNat := by
    rw [UInt32.toNat_add]
    exact Nat.mod_eq_of_lt (by omega)
  have hbatch : ∀ i < repairSymbols.toNat, SymbolPacket profile.symbolSize
      (profile.sourceSymbols.toNat + already.toNat + (datagrams.length + i)) (packet i) := by
    intro i hi
    have hi' := hpacket i hi
    rw [hordinal] at hi'
    convert hi' using 1
    omega
  have hlength : (datagrams ++ (List.range repairSymbols.toNat).map fun i => profile.datagram X
      (packet i) (self.nextPacketSequence + UInt32.ofNat i)).length
        = datagrams.length + repairSymbols.toNat := by
    simp
  have hbatchOf : (self.encodeAdditional X repairPackets repairSymbols).1.toOption.getD []
      = (List.range repairSymbols.toNat).map fun i =>
        profile.datagram X (packet i) (self.nextPacketSequence + UInt32.ofNat i) := by
    rw [hcall]
    rfl
  rw [hbatchOf, hcall]
  refine ⟨⟨h.profile_eq, h.encoder_eq, h.geometry, h.one, h.sourceSymbols, ?_⟩, ?_, ?_, ?_, ?_, ?_⟩
  · rw [hnext]
    exact hroom
  · refine map_append_range hemitted.symbols ?_
    rw [List.map_map, List.length_map, List.length_range]
    refine List.map_congr_left fun i hi => ?_
    have hi := List.mem_range.mp hi
    have hsymbol := wireSymbol_datagram code h.geometry
      (self.nextPacketSequence + UInt32.ofNat i) (hbatch i hi) (by omega)
    exact hsymbol
  · refine map_append_range hemitted.sequences ?_
    rw [List.map_map, List.length_map, List.length_range]
    refine List.map_congr_left fun i hi => ?_
    have hi := List.mem_range.mp hi
    refine (wireSequence_datagram code h.geometry _ (hbatch i hi)).trans ?_
    rw [hemitted.nextPacketSequence, UInt32.add_assoc, ← UInt32.ofNat_add]
  · intro datagram hdatagram
    rcases List.mem_append.mp hdatagram with hold | hnew
    · exact hemitted.profiles datagram hold
    · obtain ⟨i, hi, rfl⟩ := List.mem_map.mp hnew
      have hi := List.mem_range.mp hi
      exact fromDatagram_datagram code h.geometry _ (hbatch i hi) (by omega)
  · rw [hlength, hnext, hordinal]
    omega
  · rw [hlength, hemitted.nextPacketSequence, UInt32.ofNat_add, UInt32.add_assoc]

/-- An encoder that was made for a block and called any number of times. -/
theorem emitted_run (hnew : new source profile already sequence = .ok self)
    (requests : List UInt32) :
    Ready source profile (runState (encodeAdditional X repairPackets) self requests) ∧
      Emitted X profile already sequence
        (emitted (runOutputs (encodeAdditional X repairPackets) self requests))
        (runState (encodeAdditional X repairPackets) self requests) := by
  obtain ⟨hready, hordinal, hsequence⟩ := ready_new hnew
  induction requests using List.reverseRecOn with
  | nil =>
      refine ⟨hready, rfl, rfl, by simp [emitted], ?_, ?_⟩
      · simp [emitted, hordinal]
      · simp [emitted, hsequence]
  | append_singleton requests repairSymbols ih =>
      rw [runState_snoc, runOutputs_snoc, emitted_snoc]
      exact ih.2.step code hrepair ih.1 repairSymbols

end Run

/-- The next symbol id is reported exactly when a call for one symbol succeeds with it. -/
theorem nextEncodingSymbolId_eq_some_iff (code : X.Systematic) (hrepair : repairPackets.Consecutive)
    (h : Ready source profile self) (esi : UInt32) :
    self.nextEncodingSymbolId = some esi ↔
      ∃ datagram, (self.encodeAdditional X repairPackets 1).1 = .ok [datagram] ∧
        wireSymbol X datagram = some (profile.blockId, esi.toNat) := by
  have hK : profile.sourceSymbols.toNat < 65536 := profile.sourceSymbols.toNat_lt
  have hlimit : esiLimit = 16777216 := rfl
  have hmax : u32Max = 4294967295 := rfl
  have hroom := h.room
  have hone : (1 : UInt32).toNat = 1 := rfl
  have hid : (UInt32.ofNat (profile.sourceSymbols.toNat + self.nextRepairSymbol.toNat)).toNat
      = profile.sourceSymbols.toNat + self.nextRepairSymbol.toNat :=
    UInt32.toNat_ofNat_of_lt' (by simp only [UInt32.size]; omega)
  have hnext : self.nextEncodingSymbolId = some esi ↔
      profile.sourceSymbols.toNat + self.nextRepairSymbol.toNat < esiLimit ∧
        profile.sourceSymbols.toNat + self.nextRepairSymbol.toNat = esi.toNat := by
    rw [nextEncodingSymbolId]
    simp only [h.profile_eq]
    rw [if_neg (by omega)]
    by_cases hlt : profile.sourceSymbols.toNat + self.nextRepairSymbol.toNat < esiLimit
    · rw [if_pos hlt, Option.some_inj, ← UInt32.toNat_inj, hid]
      exact ⟨fun heq => ⟨hlt, heq⟩, fun heq => heq.2⟩
    · rw [if_neg hlt]
      exact iff_of_false (by simp) fun hlt' => hlt hlt'.1
  rw [hnext]
  rcases encodeAdditional_cases code hrepair h 1 with
    ⟨error, hcall⟩ | ⟨hroom', packet, hpacket, hcall⟩
  · -- one symbol more passes the other two checks, so there is no room for it
    refine iff_of_false ?_ ?_
    · rintro ⟨hlt, -⟩
      have hsize : profile.symbolSize.toNat < 65536 := profile.symbolSize.toNat_lt
      have hbytes : datagramSizeForSymbolSize profile.symbolSize * (1 : UInt32).toNat
          ≤ hardMaxAdditionalRepairBytes := by
        rw [datagramSizeForSymbolSize, headerLen, encodingPacketHeaderLen,
          hardMaxAdditionalRepairBytes, hone]
        omega
      obtain ⟨packet, -, hok⟩ := encodeAdditional_ok code hrepair h (by decide) hbytes
        (by rw [hone]; omega)
      cases hcall.symm.trans hok
    · rintro ⟨datagram, hok, -⟩
      rw [hcall] at hok
      cases hok
  · have hsymbol := wireSymbol_datagram code h.geometry (self.nextPacketSequence + UInt32.ofNat 0)
      (hpacket 0 (by decide)) (by omega)
    rw [hcall]
    constructor
    · rintro ⟨-, heq⟩
      refine ⟨_, rfl, ?_⟩
      rw [← heq]
      exact hsymbol
    · rintro ⟨datagram, hok, hread⟩
      obtain rfl := List.singleton_injective (Except.ok.inj hok)
      have heq : profile.sourceSymbols.toNat + self.nextRepairSymbol.toNat + 0 = esi.toNat :=
        congrArg Prod.snd (Option.some.inj (hsymbol.symm.trans hread))
      exact ⟨by omega, heq⟩

/-- **Repair on demand never reuses a symbol id.**  An encoder for a block of `K` source symbols, made
to start at repair ordinal `already`, is called any number of times.  The datagrams it emits carry
the symbol ids `K + already`, `K + already + 1`, … without a gap, all of 24 bits; their packet
sequences are consecutive, and each parses back to the profile.  A call that fails changes nothing,
and the next symbol id is reported exactly while a call for one symbol succeeds with it. -/
theorem encodeAdditional_run (code : X.Systematic) (hrepair : repairPackets.Consecutive)
    {already sequence : UInt32} (hnew : new source profile already sequence = .ok self)
    (requests : List UInt32) :
    let datagrams := emitted (runOutputs (encodeAdditional X repairPackets) self requests)
    datagrams.map (wireSymbol X) = ((List.range datagrams.length).map fun i =>
        some (profile.blockId, profile.sourceSymbols.toNat + already.toNat + i)) ∧
      profile.sourceSymbols.toNat + already.toNat + datagrams.length ≤ esiLimit ∧
      (∀ datagram ∈ datagrams, RaptorQBlockProfile.fromDatagram X datagram = .ok profile) ∧
      datagrams.map wireSequence = ((List.range datagrams.length).map fun i =>
        some (sequence + UInt32.ofNat i)) ∧
      (EveryStep (encodeAdditional X repairPackets) self requests fun _ state repairSymbols =>
        ∀ error, (state.encodeAdditional X repairPackets repairSymbols).1 = .error error →
          (state.encodeAdditional X repairPackets repairSymbols).2 = state) ∧
      EveryState (encodeAdditional X repairPackets) self requests fun _ state =>
        ∀ esi, state.nextEncodingSymbolId = some esi ↔
          ∃ datagram, (state.encodeAdditional X repairPackets 1).1 = .ok [datagram] ∧
            wireSymbol X datagram = some (profile.blockId, esi.toNat) := by
  obtain ⟨hready, hemitted⟩ := emitted_run code hrepair hnew requests
  have hordinal := hemitted.nextRepairSymbol
  have hroom := hready.room
  refine ⟨hemitted.symbols, by omega, hemitted.profiles, hemitted.sequences, ?_, ?_⟩
  · intro past repairSymbols _ error herror
    have hpast := (emitted_run code hrepair hnew past).1
    rcases encodeAdditional_cases code hrepair hpast repairSymbols with ⟨_, hcall⟩ |
      ⟨-, packet, -, hcall⟩
    · rw [hcall]
    · rw [hcall] at herror
      cases herror
  · intro past _
    exact nextEncodingSymbolId_eq_some_iff code hrepair (emitted_run code hrepair hnew past).1

end RaptorQRepairEncoder

/-! ## A block of two symbols -/

/-- The repair packets of the repetition code. -/
def Repetition.repairPackets : RepairPackets := fun object oti start count =>
  (List.range count.toNat).map fun i =>
    let esi := symbolsFor object.length oti.symbolSize + start.toNat + i
    ⟨0, UInt32.ofNat esi, Repetition.symbol object oti.symbolSize esi⟩

lemma Repetition.consecutive_repairPackets : Repetition.repairPackets.Consecutive := by
  intro object symbolSize start count hone hroom
  have hlimit : esiLimit = 16777216 := rfl
  refine ⟨_, rfl, fun i hi => ⟨rfl, ?_, ?_⟩⟩
  · exact UInt32.toNat_ofNat_of_lt' (by simp only [UInt32.size, oneBlockOti]; omega)
  · exact repetitionIdeal.length_symbol object symbolSize _ hone

/-- Two repair symbols were emitted before; a call for two symbols, one that is refused and one for
three emit the next five. -/
theorem RaptorQRepairEncoder.encodeAdditional_run_five :
    (emitted (runOutputs (encodeAdditional repetition Repetition.repairPackets)
        ⟨⟨9, 3, 2, 2⟩, ([1, 2, 3], ⟨3, 2, 1, 1, 1⟩), 2, 400⟩ [2, 0, 3])).map
          (wireSymbol repetition)
      = (List.range 5).map fun i => some (9, 2 + 2 + i) := by
  have hnew : new [1, 2, 3] ⟨9, 3, 2, 2⟩ 2 400
      = .ok ⟨⟨9, 3, 2, 2⟩, ([1, 2, 3], ⟨3, 2, 1, 1, 1⟩), 2, 400⟩ := by rfl
  have hlength : (emitted (runOutputs (encodeAdditional repetition Repetition.repairPackets)
      ⟨⟨9, 3, 2, 2⟩, ([1, 2, 3], ⟨3, 2, 1, 1, 1⟩), 2, 400⟩ [2, 0, 3])).length = 5 := by
    decide +kernel
  have hrun := (encodeAdditional_run repetitionIdeal.toSystematic
    Repetition.consecutive_repairPackets hnew [2, 0, 3]).1
  rw [hlength] at hrun
  exact hrun

end RaptorFec
