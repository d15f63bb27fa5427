import RaptorFec.Crates
import RaptorFec.Library.Fallible

/-!
# The datagram header

Every datagram starts with a 32-byte header: magic, version, header length, packet kind and
flags, the block id, the transmission geometry of the block, the packet sequence number, the
payload length and a CRC over the header prefix and the payload.

* `DatagramFecHeader.encode`, `decode`, `payload` — the codec, with the source's checks in the
  source's order;
* `decode_eq_ok_iff` — `decode` accepts exactly the byte strings that start with the image of a
  valid header, and returns that header;
* `payload_append` — a header whose lengths and CRC fit what follows it gives that payload back;
* `raptorq_eq` — the header the encoder puts in front of a payload is such a header.
-/

namespace RaptorFec

/-- Four-byte magic prefix carried by every datagram, `b"RQD2"`. -/
def datagramMagic : Bytes := [0x52, 0x51, 0x44, 0x32]

/-- Current datagram wire version. -/
def datagramVersion : UInt8 := 2

/-- RaptorQ encoding-packet datagram kind. -/
def datagramKindRaptorq : UInt8 := 1

/-- Packet CRC32 is present and must verify against the header prefix and payload. -/
def datagramFlagPacketCrc32 : UInt8 := 1

/-- An eight-byte little-endian audio session id follows the RaptorQ payload. -/
def datagramFlagAudioSessionId : UInt8 := 2

def datagramAudioSessionIdLen : ℕ := 8

def supportedPacketFlags : UInt8 := datagramFlagPacketCrc32 ||| datagramFlagAudioSessionId

/-- Bytes in the per-datagram header. -/
def headerLen : ℕ := 32

/-- Bytes in RaptorQ's serialized encoding-packet header. -/
def encodingPacketHeaderLen : ℕ := 4

/-- `u32::MAX`. -/
def u32Max : ℕ := 2 ^ 32 - 1

/-- `DatagramFecError`, with `usize` and derived `u32` numbers as naturals. -/
inductive DatagramFecError where
  | headerTooShort (actual : ℕ)
  | packetTooShort (actual : ℕ)
  | invalidMagic (actual : Bytes)
  | unsupportedVersion (version : UInt8)
  | unsupportedHeaderLength (length : UInt8)
  | unsupportedPacketKind (kind : UInt8)
  | unsupportedPacketFlags (flags : UInt8)
  | invalidSourceSymbols (value : UInt16)
  | invalidSymbolSize (value : UInt16)
  | invalidTransferLength (value : UInt32)
  | sourceSymbolLimitExceeded (actual max : ℕ)
  | sourceSymbolCountMismatch (declared : UInt16) (required : ℕ)
  | payloadLengthMismatch (expected actual : ℕ)
  | symbolSizeMismatch (expected actual : ℕ)
  | unsupportedSourceBlockNumber (value : UInt8)
  | inconsistentBlockGeometry (blockId : UInt32)
  | packetCrc32Mismatch (expected actual : UInt32)
  | payloadTooLong (actual : ℕ)
  | payloadTooLargeForBlock (actual max : ℕ)
  | transferLengthMismatch (expected : UInt32) (actual : ℕ)
  | repairSourceTooLarge (actual max : ℕ)
  | additionalRepairSymbolCount (actual max : UInt32)
  | additionalRepairOutputTooLarge (actual max : ℕ)
  | repairSymbolIdExhausted (sourceSymbols : UInt16) (nextRepairSymbol requested : UInt32)
  deriving DecidableEq, Repr

/-! ## Block geometry -/

/-- `validate_one_block_geometry`. -/
def validateOneBlockGeometry (transferLength : UInt32) (sourceSymbols symbolSize : UInt16) :
    Except DatagramFecError Unit :=
  if sourceSymbols = 0 then .error (.invalidSourceSymbols sourceSymbols)
  else if symbolSize = 0 then .error (.invalidSymbolSize symbolSize)
  else if transferLength = 0 then .error (.invalidTransferLength transferLength)
  else if maxBlockSymbols < sourceSymbols.toNat then
    .error (.sourceSymbolLimitExceeded sourceSymbols.toNat maxBlockSymbols)
  else if maxBlockSymbols < symbolsFor transferLength.toNat symbolSize then
    .error (.sourceSymbolLimitExceeded (symbolsFor transferLength.toNat symbolSize)
      maxBlockSymbols)
  else if sourceSymbols.toNat ≠ symbolsFor transferLength.toNat symbolSize then
    .error (.sourceSymbolCountMismatch sourceSymbols
      (symbolsFor transferLength.toNat symbolSize))
  else .ok ()

/-- The geometries of one source block: the declared symbol count is the required one, and
within the limit of one block. -/
structure OneBlockGeometry (transferLength : UInt32) (sourceSymbols symbolSize : UInt16) : Prop where
  symbolSize_pos : 0 < symbolSize.toNat
  transferLength_pos : 0 < transferLength.toNat
  symbols_eq : sourceSymbols.toNat = symbolsFor transferLength.toNat symbolSize
  symbols_le : symbolsFor transferLength.toNat symbolSize ≤ maxBlockSymbols

/-- A non-empty object has at least one source symbol. -/
lemma symbolsFor_pos {len : ℕ} {symbolSize : UInt16} (hlen : 0 < len)
    (hsize : 0 < symbolSize.toNat) : 0 < symbolsFor len symbolSize := by
  by_contra hzero
  have hle : len ≤ symbolSize.toNat * 0 :=
    (ceilDiv_le_iff_le_mul hsize).mp (Nat.le_of_not_lt hzero)
  omega

lemma OneBlockGeometry.sourceSymbols_pos {transferLength : UInt32}
    {sourceSymbols symbolSize : UInt16}
    (h : OneBlockGeometry transferLength sourceSymbols symbolSize) : 0 < sourceSymbols.toNat :=
  h.symbols_eq ▸ symbolsFor_pos h.transferLength_pos h.symbolSize_pos

lemma validateOneBlockGeometry_eq_ok_iff {transferLength : UInt32}
    {sourceSymbols symbolSize : UInt16} :
    validateOneBlockGeometry transferLength sourceSymbols symbolSize = .ok ()
      ↔ OneBlockGeometry transferLength sourceSymbols symbolSize := by
  have hnat : ∀ x : UInt16, x = 0 ↔ ¬ 0 < x.toNat := fun x => by
    rw [← UInt16.toNat_inj]
    simp
  have hnat' : transferLength = 0 ↔ ¬ 0 < transferLength.toNat := by
    rw [← UInt32.toNat_inj]
    simp
  rw [validateOneBlockGeometry]
  constructor
  · intro h
    split_ifs at h with hsource hsize hlen hdecl hreq heq
    exact ⟨not_not.mp fun hno => hsize ((hnat _).mpr hno),
      not_not.mp fun hno => hlen (hnat'.mpr hno), not_not.mp heq, Nat.le_of_not_lt hreq⟩
  · intro h
    have hsource := h.sourceSymbols_pos
    have hle := h.symbols_le
    rw [if_neg (by rw [hnat]; omega), if_neg (by rw [hnat, not_not]; exact h.symbolSize_pos),
      if_neg (by rw [hnat', not_not]; exact h.transferLength_pos),
      if_neg (by rw [h.symbols_eq]; omega), if_neg (by omega), if_neg (not_not.mpr h.symbols_eq)]

/-- `source_symbol_count`. -/
def sourceSymbolCount (byteLen : ℕ) (symbolSize : UInt16) : UInt16 :=
  if byteLen = 0 then 1
  else UInt16.ofNat (min (byteLen ⌈/⌉ max symbolSize.toNat 1) (2 ^ 16 - 1))

/-- `datagram_size_for_symbol_size`. -/
def datagramSizeForSymbolSize (symbolSize : UInt16) : ℕ :=
  headerLen + encodingPacketHeaderLen + symbolSize.toNat

/-- `exact_one_block_oti`. -/
def exactOneBlockOti (transferLength : UInt64) (symbolSize : UInt16) :
    ObjectTransmissionInformation :=
  ⟨transferLength, max symbolSize 1, 1, 1, 1⟩

/-! ## The header -/

/-- The v2 prefix carried by every encoded datagram. -/
structure DatagramFecHeader where
  packetKind : UInt8
  packetFlags : UInt8
  blockId : UInt32
  transferLength : UInt32
  packetSequence : UInt32
  sourceSymbols : UInt16
  symbolSize : UInt16
  payloadLen : UInt32
  packetCrc32 : UInt32
  deriving DecidableEq, Repr

/-- `packet_crc32`: the CRC of the header prefix continued over the payload. -/
def packetCrc32 (X : Crates) (headerWithoutCrc payload : Bytes) : UInt32 :=
  X.crc32Update (X.crc32Update 0 headerWithoutCrc) payload

namespace DatagramFecHeader

variable (X : Crates) (header : DatagramFecHeader)

def validateFields : Except DatagramFecError Unit :=
  if header.packetKind ≠ datagramKindRaptorq then
    .error (.unsupportedPacketKind header.packetKind)
  else if header.packetFlags &&& ~~~ supportedPacketFlags ≠ 0 then
    .error (.unsupportedPacketFlags header.packetFlags)
  else validateOneBlockGeometry header.transferLength header.sourceSymbols header.symbolSize

/-- `payload_extension_len`. -/
def payloadExtensionLen : ℕ :=
  if header.packetFlags &&& datagramFlagAudioSessionId ≠ 0 then datagramAudioSessionIdLen else 0

/-- The fields of the header in front of its CRC, at their offsets. -/
def prefixFields : List (ℕ × Bytes) :=
  [(0, datagramMagic), (4, [datagramVersion]), (5, [UInt8.ofNat headerLen]),
    (6, [header.packetKind]), (7, [header.packetFlags]), (8, toLeBytes header.blockId),
    (12, toLeBytes header.transferLength), (16, toLeBytes header.packetSequence),
    (20, toLeBytes header.sourceSymbols), (22, toLeBytes header.symbolSize),
    (24, toLeBytes header.payloadLen)]

/-- `encode_prefix`; the result is the buffer after the call. -/
def encodePrefix (bytes : Bytes) : Except DatagramFecError Bytes :=
  if bytes.length < headerLen - 4 then .error (.headerTooShort bytes.length)
  else do
    header.validateFields
    .ok (writeFields bytes header.prefixFields)

/-- `encode`; the result is the buffer after the call. -/
def encode (bytes : Bytes) : Except DatagramFecError Bytes :=
  if bytes.length < headerLen then .error (.headerTooShort bytes.length)
  else do
    header.validateFields
    let bytes ← header.encodePrefix bytes
    .ok (writeAt bytes 28 (toLeBytes header.packetCrc32))

/-- `compute_packet_crc32`. -/
def computePacketCrc32 (payload : Bytes) : Except DatagramFecError UInt32 :=
  let expectedLen := header.payloadLen.toNat + header.payloadExtensionLen
  if payload.length ≠ expectedLen then
    .error (.payloadLengthMismatch expectedLen payload.length)
  else do
    let headerWithoutCrc ← header.encodePrefix (List.replicate (headerLen - 4) 0)
    .ok (RaptorFec.packetCrc32 X headerWithoutCrc payload)

/-- `DatagramFecHeader::raptorq`. -/
def raptorq (blockId transferLength packetSequence : UInt32) (sourceSymbols symbolSize : UInt16)
    (payload : Bytes) : Except DatagramFecError DatagramFecHeader :=
  if u32Max < payload.length then .error (.payloadTooLong payload.length)
  else do
    let header : DatagramFecHeader :=
      { packetKind := datagramKindRaptorq
        packetFlags := datagramFlagPacketCrc32
        blockId := blockId
        transferLength := transferLength
        packetSequence := packetSequence
        sourceSymbols := sourceSymbols
        symbolSize := symbolSize
        payloadLen := UInt32.ofNat payload.length
        packetCrc32 := 0 }
    let crc32 ← header.computePacketCrc32 X payload
    .ok { header with packetCrc32 := crc32 }

/-- `decode`, also `decode_header`. -/
def decode (bytes : Bytes) : Except DatagramFecError DatagramFecHeader :=
  if bytes.length < headerLen then .error (.headerTooShort bytes.length)
  else if slice bytes 0 4 ≠ datagramMagic then .error (.invalidMagic (slice bytes 0 4))
  else if byteAt bytes 4 ≠ datagramVersion then .error (.unsupportedVersion (byteAt bytes 4))
  else if (byteAt bytes 5).toNat ≠ headerLen then
    .error (.unsupportedHeaderLength (byteAt bytes 5))
  else
    let header : DatagramFecHeader :=
      { packetKind := byteAt bytes 6
        packetFlags := byteAt bytes 7
        blockId := fromLeBytes (slice bytes 8 12)
        transferLength := fromLeBytes (slice bytes 12 16)
        packetSequence := fromLeBytes (slice bytes 16 20)
        sourceSymbols := fromLeBytes (slice bytes 20 22)
        symbolSize := fromLeBytes (slice bytes 22 24)
        payloadLen := fromLeBytes (slice bytes 24 28)
        packetCrc32 := fromLeBytes (slice bytes 28 32) }
    do
      header.validateFields
      .ok header

/-- `payload`: the payload of a datagram with this header, without the session-id trailer. -/
def payload (datagram : Bytes) : Except DatagramFecError Bytes :=
  if datagram.length < headerLen then .error (.headerTooShort datagram.length)
  else
    let expected := header.payloadLen.toNat + header.payloadExtensionLen
    let actual := datagram.length - headerLen
    if actual ≠ expected then .error (.payloadLengthMismatch expected actual)
    else
      let wirePayload := datagram.drop headerLen
      if header.packetFlags &&& datagramFlagPacketCrc32 ≠ 0 then do
        let actualCrc32 ← header.computePacketCrc32 X wirePayload
        if actualCrc32 ≠ header.packetCrc32 then
          .error (.packetCrc32Mismatch header.packetCrc32 actualCrc32)
        else .ok (wirePayload.take header.payloadLen.toNat)
      else .ok (wirePayload.take header.payloadLen.toNat)

/-- `audio_session_id`: the session-id trailer of a datagram with this header. -/
def audioSessionId (datagram : Bytes) : Except DatagramFecError (Option UInt64) := do
  let _ ← header.payload X datagram
  if header.packetFlags &&& datagramFlagAudioSessionId = 0 then .ok none
  else
    let start := headerLen + header.payloadLen.toNat
    .ok (some (fromLeBytes (slice datagram start (start + datagramAudioSessionIdLen))))

def oti : ObjectTransmissionInformation :=
  exactOneBlockOti (UInt64.ofNat header.transferLength.toNat) header.symbolSize

/-! ## What the codec does -/

/-- The headers that pass the checks of the codec. -/
structure Valid : Prop where
  packetKind_eq : header.packetKind = datagramKindRaptorq
  flags_supported : header.packetFlags &&& ~~~ supportedPacketFlags = 0
  geometry : OneBlockGeometry header.transferLength header.sourceSymbols header.symbolSize

/-- The 28 bytes in front of the CRC. -/
def prefixBytes : Bytes := fieldBytes header.prefixFields

/-- The 32 bytes of a header. -/
def headerBytes : Bytes := header.prefixBytes ++ toLeBytes header.packetCrc32

variable {X header}

lemma validateFields_eq_ok_iff : header.validateFields = .ok () ↔ header.Valid := by
  rw [validateFields]
  constructor
  · intro h
    split_ifs at h with hkind hflags
    exact ⟨not_not.mp hkind, not_not.mp hflags, validateOneBlockGeometry_eq_ok_iff.mp h⟩
  · intro h
    rw [if_neg (not_not.mpr h.packetKind_eq), if_neg (not_not.mpr h.flags_supported)]
    exact validateOneBlockGeometry_eq_ok_iff.mpr h.geometry

@[simp] lemma length_prefixBytes : header.prefixBytes.length = 28 := rfl

@[simp] lemma length_headerBytes : header.headerBytes.length = 32 := rfl

lemma encodePrefix_eq {bytes : Bytes} (hvalid : header.Valid) (hlen : 28 ≤ bytes.length) :
    header.encodePrefix bytes = .ok (header.prefixBytes ++ bytes.drop 28) := by
  have hadj : Adjacent 0 header.prefixFields := by
    simp [prefixFields, Adjacent, datagramMagic]
  have hlong : ¬ bytes.length < headerLen - 4 := by
    rw [show headerLen - 4 = 28 from rfl]
    omega
  rw [encodePrefix, if_neg hlong, validateFields_eq_ok_iff.mpr hvalid,
    writeFields_adjacent bytes hadj]
  rfl

/-- `encode` writes the header bytes over the start of the buffer. -/
theorem encode_eq {bytes : Bytes} (hvalid : header.Valid) (hlen : 32 ≤ bytes.length) :
    header.encode bytes = .ok (header.headerBytes ++ bytes.drop 32) := by
  have hlong : ¬ bytes.length < headerLen := by
    rw [headerLen]
    omega
  rw [encode, if_neg hlong, validateFields_eq_ok_iff.mpr hvalid,
    encodePrefix_eq hvalid (by omega)]
  change Except.ok (writeAt (header.prefixBytes ++ bytes.drop 28) 28 _) = _
  rw [writeAt_adjacent length_prefixBytes, length_toLeBytes_u32, headerBytes]

/-- Only a valid header is written. -/
lemma valid_of_encode {bytes encoded : Bytes} (h : header.encode bytes = .ok encoded) :
    32 ≤ bytes.length ∧ header.Valid := by
  rw [encode] at h
  split_ifs at h with hshort
  obtain ⟨_, hvalid, -⟩ := bind_eq_ok_iff.mp h
  exact ⟨Nat.not_lt.mp hshort, validateFields_eq_ok_iff.mp hvalid⟩

lemma eq_of_encode {bytes encoded : Bytes} (h : header.encode bytes = .ok encoded) :
    encoded = header.headerBytes ++ bytes.drop 32 := by
  obtain ⟨hlen, hvalid⟩ := valid_of_encode h
  rw [encode_eq hvalid hlen] at h
  exact (Except.ok.inj h).symm

lemma computePacketCrc32_eq (payload : Bytes) (hvalid : header.Valid)
    (hlen : payload.length = header.payloadLen.toNat + header.payloadExtensionLen) :
    header.computePacketCrc32 X payload
      = .ok (RaptorFec.packetCrc32 X header.prefixBytes payload) := by
  have hprefix : header.encodePrefix (List.replicate (headerLen - 4) 0)
      = .ok header.prefixBytes := by
    rw [encodePrefix_eq hvalid (by simp [headerLen])]
    simp [headerLen]
  rw [computePacketCrc32, if_neg (not_not.mpr hlen), hprefix]
  rfl

/-- Only the CRC of a payload of the announced length behind a valid header is computed. -/
lemma eq_of_computePacketCrc32 {payload : Bytes} {crc32 : UInt32}
    (h : header.computePacketCrc32 X payload = .ok crc32) :
    header.Valid ∧ payload.length = header.payloadLen.toNat + header.payloadExtensionLen ∧
      crc32 = RaptorFec.packetCrc32 X header.prefixBytes payload := by
  have hparts : header.Valid ∧
      payload.length = header.payloadLen.toNat + header.payloadExtensionLen := by
    rw [computePacketCrc32] at h
    split_ifs at h with hlen
    obtain ⟨bytes, hbytes, -⟩ := bind_eq_ok_iff.mp h
    rw [encodePrefix] at hbytes
    split_ifs at hbytes
    obtain ⟨_, hvalid, -⟩ := bind_eq_ok_iff.mp hbytes
    exact ⟨validateFields_eq_ok_iff.mp hvalid, not_not.mp hlen⟩
  rw [computePacketCrc32_eq payload hparts.1 hparts.2] at h
  exact ⟨hparts.1, hparts.2, (Except.ok.inj h).symm⟩

lemma decode_headerBytes (hvalid : header.Valid) (rest : Bytes) :
    decode (header.headerBytes ++ rest) = .ok header := by
  have hlong : ¬ (header.headerBytes ++ rest).length < headerLen := by
    rw [List.length_append, length_headerBytes, headerLen]
    omega
  have hblock : slice (header.headerBytes ++ rest) 8 12 = toLeBytes header.blockId := rfl
  have htransfer : slice (header.headerBytes ++ rest) 12 16 = toLeBytes header.transferLength := rfl
  have hsequence : slice (header.headerBytes ++ rest) 16 20 = toLeBytes header.packetSequence := rfl
  have hsource : slice (header.headerBytes ++ rest) 20 22 = toLeBytes header.sourceSymbols := rfl
  have hsize : slice (header.headerBytes ++ rest) 22 24 = toLeBytes header.symbolSize := rfl
  have hpayload : slice (header.headerBytes ++ rest) 24 28 = toLeBytes header.payloadLen := rfl
  have hcrc : slice (header.headerBytes ++ rest) 28 32 = toLeBytes header.packetCrc32 := rfl
  have hkind : byteAt (header.headerBytes ++ rest) 6 = header.packetKind := rfl
  have hflags : byteAt (header.headerBytes ++ rest) 7 = header.packetFlags := rfl
  have hmagic : slice (header.headerBytes ++ rest) 0 4 = datagramMagic := rfl
  have hversion : byteAt (header.headerBytes ++ rest) 4 = datagramVersion := rfl
  have hlen : (byteAt (header.headerBytes ++ rest) 5).toNat = headerLen := rfl
  rw [decode, if_neg hlong, if_neg (not_not.mpr hmagic), if_neg (not_not.mpr hversion),
    if_neg (not_not.mpr hlen)]
  simp only [hblock, htransfer, hsequence, hsource, hsize, hpayload, hcrc, hkind, hflags,
    fromLeBytes_toLeBytes, validateFields_eq_ok_iff.mpr hvalid]
  rfl

lemma take_of_decode {bytes : Bytes} (h : decode bytes = .ok header) :
    header.Valid ∧ bytes.take 32 = header.headerBytes := by
  rw [decode] at h
  split_ifs at h with hlong hmagic hversion hlen
  rw [headerLen, not_lt] at hlong
  rw [not_not] at hmagic hversion hlen
  have hlen' : byteAt bytes 5 = UInt8.ofNat headerLen := by
    rw [← hlen, UInt8.ofNat_toNat]
  generalize hheader : DatagramFecHeader.mk _ _ _ _ _ _ _ _ _ = read at h
  obtain ⟨_, hval, hread⟩ := bind_eq_ok_iff.mp h
  obtain rfl := Except.ok.inj hread
  refine ⟨validateFields_eq_ok_iff.mp hval, ?_⟩
  rw [← hheader]
  simp only [headerBytes, prefixBytes, prefixFields, fieldBytes, List.map_cons, List.map_nil,
    List.flatten_cons, List.flatten_nil, List.append_nil, ← hmagic, ← hversion, ← hlen']
  -- every field was read from its slice, and the slices follow each other
  simp (disch := omega) only [byteAt_eq_slice, toLeBytes_slice_u16, toLeBytes_slice_u32]
  simp only [slice_append_slice, Nat.reduceAdd, Nat.reduceLeDiff]
  rw [slice, List.drop_zero, Nat.sub_zero]

/-- **What `decode` accepts**: exactly the byte strings that start with the bytes of a valid
header, which it returns. -/
theorem decode_eq_ok_iff {bytes : Bytes} :
    decode bytes = .ok header ↔ header.Valid ∧ bytes.take 32 = header.headerBytes := by
  constructor
  · exact take_of_decode
  · rintro ⟨hvalid, htake⟩
    rw [← List.take_append_drop 32 bytes, htake]
    exact decode_headerBytes hvalid _

/-- A payload that was returned is part of the datagram. -/
lemma length_of_payload {datagram payload : Bytes}
    (h : header.payload X datagram = .ok payload) :
    payload.length + headerLen ≤ datagram.length := by
  have htake : datagram.length ≥ headerLen ∧
      payload = (datagram.drop headerLen).take header.payloadLen.toNat := by
    rw [DatagramFecHeader.payload] at h
    simp only at h
    split_ifs at h with hshort hlen hcrc
    · obtain ⟨crc32, -, hrest⟩ := bind_eq_ok_iff.mp h
      split_ifs at hrest
      exact ⟨not_lt.mp hshort, (Except.ok.inj hrest).symm⟩
    · exact ⟨not_lt.mp hshort, (Except.ok.inj h).symm⟩
  rw [htake.2, List.length_take, List.length_drop]
  have := htake.1
  omega

/-- A valid header, a payload and a trailer of the announced lengths, and the right CRC. -/
lemma payload_append {payload trailer : Bytes} (hvalid : header.Valid)
    (hpayload : payload.length = header.payloadLen.toNat)
    (htrailer : trailer.length = header.payloadExtensionLen)
    (hcrc : header.packetCrc32
      = RaptorFec.packetCrc32 X header.prefixBytes (payload ++ trailer)) :
    header.payload X (header.headerBytes ++ (payload ++ trailer)) = .ok payload := by
  have hdrop : (header.headerBytes ++ (payload ++ trailer)).drop headerLen
      = payload ++ trailer := List.drop_left' length_headerBytes
  have hlen : (header.headerBytes ++ (payload ++ trailer)).length - headerLen
      = header.payloadLen.toNat + header.payloadExtensionLen := by
    rw [List.length_append, List.length_append, length_headerBytes, hpayload, htrailer, headerLen]
    omega
  have htake : (payload ++ trailer).take header.payloadLen.toNat = payload :=
    List.take_left' hpayload
  have hlong : ¬ (header.headerBytes ++ (payload ++ trailer)).length < headerLen := by
    rw [List.length_append, length_headerBytes, headerLen]
    omega
  have hcompute := computePacketCrc32_eq (X := X) (payload ++ trailer) hvalid
    (by rw [List.length_append, hpayload, htrailer])
  rw [DatagramFecHeader.payload, if_neg hlong]
  simp only [hlen, hdrop, htake, hcompute, ← hcrc, ok_bind, ne_eq, not_true_eq_false, if_false,
    ite_self]

variable (X) in
/-- The header in front of a payload without trailer. -/
def sealed (blockId transferLength packetSequence : UInt32) (sourceSymbols symbolSize : UInt16)
    (payload : Bytes) : DatagramFecHeader :=
  let header : DatagramFecHeader :=
    { packetKind := datagramKindRaptorq
      packetFlags := datagramFlagPacketCrc32
      blockId := blockId
      transferLength := transferLength
      packetSequence := packetSequence
      sourceSymbols := sourceSymbols
      symbolSize := symbolSize
      payloadLen := UInt32.ofNat payload.length
      packetCrc32 := 0 }
  { header with packetCrc32 := RaptorFec.packetCrc32 X header.prefixBytes payload }

section Sealed

variable {blockId transferLength packetSequence : UInt32} {sourceSymbols symbolSize : UInt16}
  {payload : Bytes}

lemma crc32Flag_supported : datagramFlagPacketCrc32 &&& ~~~ supportedPacketFlags = 0 := by decide

lemma crc32Flag_no_session : datagramFlagPacketCrc32 &&& datagramFlagAudioSessionId = 0 := by
  decide

lemma payloadExtensionLen_crc32 (h : header.packetFlags = datagramFlagPacketCrc32) :
    header.payloadExtensionLen = 0 := by
  rw [payloadExtensionLen, h, if_neg (not_not.mpr crc32Flag_no_session)]

lemma sealed_valid (hgeometry : OneBlockGeometry transferLength sourceSymbols symbolSize) :
    (sealed X blockId transferLength packetSequence sourceSymbols symbolSize payload).Valid :=
  ⟨rfl, crc32Flag_supported, hgeometry⟩

lemma toNat_payloadLen (hlen : payload.length ≤ u32Max) :
    (UInt32.ofNat payload.length).toNat = payload.length := by
  rw [u32Max] at hlen
  exact UInt32.toNat_ofNat_of_lt' (by simp only [UInt32.size]; omega)

/-- `raptorq` seals every payload whose length fits the header. -/
theorem raptorq_eq (hgeometry : OneBlockGeometry transferLength sourceSymbols symbolSize)
    (hlen : payload.length ≤ u32Max) :
    raptorq X blockId transferLength packetSequence sourceSymbols symbolSize payload
      = .ok (sealed X blockId transferLength packetSequence sourceSymbols symbolSize payload) := by
  rw [raptorq, if_neg (Nat.not_lt.mpr hlen)]
  have hvalid : ({ sealed X blockId transferLength packetSequence sourceSymbols symbolSize payload
      with packetCrc32 := 0 } : DatagramFecHeader).Valid := ⟨rfl, crc32Flag_supported, hgeometry⟩
  have hcompute := computePacketCrc32_eq (X := X) payload hvalid (by
    rw [payloadExtensionLen_crc32 rfl, Nat.add_zero]
    exact (toNat_payloadLen hlen).symm)
  simp only [sealed] at hcompute
  simp only [hcompute, ok_bind]
  rfl

/-- A geometry of more than one block, or of none, is refused. -/
lemma raptorq_error (hgeometry : ¬ OneBlockGeometry transferLength sourceSymbols symbolSize) :
    ∃ error, raptorq X blockId transferLength packetSequence sourceSymbols symbolSize payload
      = .error error := by
  cases hres : raptorq X blockId transferLength packetSequence sourceSymbols symbolSize payload with
  | error error => exact ⟨error, rfl⟩
  | ok header =>
      rw [raptorq] at hres
      split_ifs at hres
      obtain ⟨crc32, hcrc32, -⟩ := bind_eq_ok_iff.mp hres
      exact absurd (eq_of_computePacketCrc32 hcrc32).1.geometry hgeometry

/-- A header that `raptorq` made is valid. -/
lemma valid_of_raptorq (h : raptorq X blockId transferLength packetSequence sourceSymbols symbolSize
    payload = .ok header) : header.Valid := by
  rw [raptorq] at h
  split_ifs at h
  obtain ⟨crc32, hcrc32, hheader⟩ := bind_eq_ok_iff.mp h
  have hvalid := (eq_of_computePacketCrc32 hcrc32).1
  rw [← Except.ok.inj hheader]
  exact ⟨hvalid.packetKind_eq, hvalid.flags_supported, hvalid.geometry⟩

/-- The payload of a sealed datagram. -/
lemma payload_sealed (hgeometry : OneBlockGeometry transferLength sourceSymbols symbolSize)
    (hlen : payload.length ≤ u32Max) :
    (sealed X blockId transferLength packetSequence sourceSymbols symbolSize payload).payload X
        ((sealed X blockId transferLength packetSequence sourceSymbols symbolSize
          payload).headerBytes ++ payload) = .ok payload := by
  have hvalid : (sealed X blockId transferLength packetSequence sourceSymbols symbolSize
      payload).Valid := sealed_valid hgeometry
  have hnone : ([] : Bytes).length = (sealed X blockId transferLength packetSequence sourceSymbols
      symbolSize payload).payloadExtensionLen := (payloadExtensionLen_crc32 rfl).symm
  have happend := payload_append hvalid (toNat_payloadLen hlen).symm hnone
    (by rw [List.append_nil]; rfl)
  rwa [List.append_nil] at happend

end Sealed

end DatagramFecHeader

end RaptorFec
