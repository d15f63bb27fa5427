import RaptorFec.Audio.ShardHeader
import RaptorFec.Media.Header

/-!
# The header codecs are bijections

There are three headers on the wire: of a datagram, of an audio shard, and of a media fragment.
Each codec writes a header over the start of a buffer and leaves the rest of it alone; what it
writes is read back, and what it reads is written back.

* `DatagramFecHeader.datagramCodec_bijective`, with the byte strings that are accepted (`Accepted`);
* `MultichannelAudioShardHeader.shardCodec_bijective`, with the range of the payload, where pointers
  have 64 bits, and `bijectiveOn_iff` where they have any width;
* `MediaFragmentHeader.fragmentCodec_bijective`, with the headers that are accepted.
-/

namespace RaptorFec

/-! ## Datagrams -/

namespace DatagramFecHeader

/-- Only the flag bits 0 and 1 are known. -/
lemma flags_supported_iff (flags : UInt8) :
    flags &&& ~~~ supportedPacketFlags = 0 ↔ flags.toNat < 4 := by
  have hbits : ∀ n < 256, n &&& 252 = 0 ↔ n < 4 := by decide +kernel
  rw [← UInt8.toNat_inj, UInt8.toNat_and]
  exact hbits flags.toNat flags.toNat_lt

/-- The byte strings `decode` accepts, byte by byte. -/
structure Accepted (bytes : Bytes) : Prop where
  length_ge : 32 ≤ bytes.length
  magic : slice bytes 0 4 = [0x52, 0x51, 0x44, 0x32]
  version : byteAt bytes 4 = 2
  headerLength : byteAt bytes 5 = 32
  kind : byteAt bytes 6 = 1
  flags : (byteAt bytes 7).toNat < 4
  transferLength_pos : 0 < ofLeBytes (slice bytes 12 16)
  symbolSize_pos : 0 < ofLeBytes (slice bytes 22 24)
  symbols_eq : ofLeBytes (slice bytes 20 22)
    = ofLeBytes (slice bytes 12 16) ⌈/⌉ ofLeBytes (slice bytes 22 24)
  symbols_pos : 1 ≤ ofLeBytes (slice bytes 20 22)
  symbols_le : ofLeBytes (slice bytes 20 22) ≤ 56403

/-- The checks of `decode` on the fields it reads. -/
lemma accepted_iff {bytes : Bytes} (hlen : 32 ≤ bytes.length) :
    Accepted bytes ↔ slice bytes 0 4 = datagramMagic ∧ byteAt bytes 4 = datagramVersion ∧
      byteAt bytes 5 = 32 ∧ byteAt bytes 6 = datagramKindRaptorq ∧
      byteAt bytes 7 &&& ~~~ supportedPacketFlags = 0 ∧
      OneBlockGeometry (fromLeBytes (slice bytes 12 16)) (fromLeBytes (slice bytes 20 22))
        (fromLeBytes (slice bytes 22 24)) := by
  have htransfer : (fromLeBytes (slice bytes 12 16) : UInt32).toNat = ofLeBytes (slice bytes 12 16) :=
    toNat_fromLeBytes (α := UInt32) (length_slice_of_le (by omega : 16 ≤ bytes.length))
  have hsource : (fromLeBytes (slice bytes 20 22) : UInt16).toNat = ofLeBytes (slice bytes 20 22) :=
    toNat_fromLeBytes (α := UInt16) (length_slice_of_le (by omega : 22 ≤ bytes.length))
  have hsize : (fromLeBytes (slice bytes 22 24) : UInt16).toNat = ofLeBytes (slice bytes 22 24) :=
    toNat_fromLeBytes (α := UInt16) (length_slice_of_le (by omega : 24 ≤ bytes.length))
  rw [flags_supported_iff]
  constructor
  · intro h
    refine ⟨h.magic, h.version, h.headerLength, h.kind, h.flags, ?_, ?_, ?_, ?_⟩
    · rw [hsize]
      exact h.symbolSize_pos
    · rw [htransfer]
      exact h.transferLength_pos
    · rw [hsource, symbolsFor, htransfer, hsize]
      exact h.symbols_eq
    · rw [symbolsFor, htransfer, hsize, ← h.symbols_eq]
      exact h.symbols_le
  · rintro ⟨hmagic, hversion, hheader, hkind, hflags, hgeometry⟩
    have hpos := hgeometry.sourceSymbols_pos
    have heq := hgeometry.symbols_eq
    have hle := hgeometry.symbols_le
    rw [← heq, hsource] at hle
    rw [hsource, symbolsFor, htransfer, hsize] at heq
    rw [hsource] at hpos
    exact ⟨hlen, hmagic, hversion, hheader, hkind, hflags, htransfer ▸ hgeometry.transferLength_pos,
      hsize ▸ hgeometry.symbolSize_pos, heq, hpos, hle⟩

/-- **What `decode` accepts**, byte by byte. -/
lemma decode_isOk_iff (bytes : Bytes) :
    (∃ header, decode bytes = .ok header) ↔ Accepted bytes := by
  by_cases hlong : bytes.length < headerLen
  · rw [decode, if_pos hlong]
    constructor
    · rintro ⟨header, h⟩
      cases h
    · intro h
      exact absurd h.length_ge (Nat.not_le.mpr hlong)
  · have hbyte : (byteAt bytes 5).toNat = headerLen ↔ byteAt bytes 5 = 32 := by
      rw [← UInt8.toNat_inj]
      rfl
    rw [accepted_iff (Nat.not_lt.mp hlong), decode, if_neg hlong]
    constructor
    · rintro ⟨header, h⟩
      split_ifs at h with hmagic hversion hheader
      rw [not_not] at hmagic hversion hheader
      obtain ⟨_, hfields, -⟩ := bind_eq_ok_iff.mp h
      have hvalid := validateFields_eq_ok_iff.mp hfields
      exact ⟨hmagic, hversion, hbyte.mp hheader, hvalid.packetKind_eq, hvalid.flags_supported,
        hvalid.geometry⟩
    · rintro ⟨hmagic, hversion, hheader, hkind, hflags, hgeometry⟩
      rw [if_neg (not_not.mpr hmagic), if_neg (not_not.mpr hversion),
        if_neg (not_not.mpr (hbyte.mpr hheader))]
      simp only
      rw [validateFields_eq_ok_iff.mpr ⟨hkind, hflags, hgeometry⟩]
      exact ⟨_, rfl⟩

/-- **The datagram header codec is a bijection onto what it accepts.** -/
theorem datagramCodec_bijective :
    (∀ (header : DatagramFecHeader) (bytes encoded : Bytes), 32 ≤ bytes.length →
      header.encode bytes = .ok encoded → decode encoded = .ok header ∧
        encoded.length = bytes.length ∧ encoded.drop 32 = bytes.drop 32) ∧
    (∀ (bytes : Bytes) (header : DatagramFecHeader), decode bytes = .ok header →
      ∀ buffer : Bytes, 32 ≤ buffer.length →
        ∃ encoded, header.encode buffer = .ok encoded ∧ encoded.take 32 = bytes.take 32) ∧
    ∀ bytes : Bytes, (∃ header, decode bytes = .ok header) ↔ Accepted bytes := by
  refine ⟨?_, ?_, decode_isOk_iff⟩
  · intro header bytes encoded hlen h
    obtain ⟨-, hvalid⟩ := valid_of_encode h
    obtain rfl := eq_of_encode h
    refine ⟨decode_headerBytes hvalid _, ?_, List.drop_left' length_headerBytes⟩
    rw [List.length_append, length_headerBytes, List.length_drop]
    omega
  · intro bytes header h buffer hlen
    obtain ⟨hvalid, htake⟩ := take_of_decode h
    exact ⟨_, encode_eq hvalid hlen, (List.take_left' length_headerBytes).trans htake.symm⟩

end DatagramFecHeader

/-! ## Audio shards -/

lemma AudioPayloadKind.toU8_of_tryFrom {value : UInt8} {kind : AudioPayloadKind}
    (h : tryFrom value = .ok kind) : kind.toU8 = value := by
  rw [tryFrom] at h
  split_ifs at h with hpcm hopus hflac
  all_goals
    obtain rfl := Except.ok.inj h
    simp [toU8, *]

lemma AudioSampleFormat.toU8_of_tryFrom {value : UInt8} {format : AudioSampleFormat}
    (h : tryFrom value = .ok format) : format.toU8 = value := by
  rw [tryFrom] at h
  split_ifs at h
  all_goals
    obtain rfl := Except.ok.inj h
    simp [toU8, *]

namespace MultichannelAudioShardHeader

variable {width : PointerWidth} {header : MultichannelAudioShardHeader}

/-- A symbol that decodes starts with the bytes of the header it decodes to. -/
lemma take_of_decodeOn {symbol : Bytes} (h : decodeOn width symbol = .ok header) :
    symbol.take 72 = header.headerBytes := by
  rw [decodeOn] at h
  split_ifs at h with hlong hmagic hversion
  rw [multichannelAudioShardHeaderLen, not_lt] at hlong
  rw [not_not] at hmagic hversion
  obtain ⟨kind, hkind, hrest⟩ := bind_eq_ok_iff.mp h
  obtain ⟨format, hformat, hread⟩ := bind_eq_ok_iff.mp hrest
  generalize hheader : MultichannelAudioShardHeader.mk _ _ _ _ _ _ _ _ _ _ _ _ _ _ _ _ _ _ _ _ _
    = read at hread
  obtain ⟨_, -, hsame⟩ := bind_eq_ok_iff.mp hread
  obtain rfl := Except.ok.inj hsame
  rw [← hheader]
  simp only [headerBytes, fields, fieldBytes, List.map_cons, List.map_nil, List.flatten_cons,
    List.flatten_nil, List.append_nil, AudioPayloadKind.toU8_of_tryFrom hkind,
    AudioSampleFormat.toU8_of_tryFrom hformat, ← hmagic, ← hversion]
  simp (disch := omega) only [byteAt_eq_slice, toLeBytes_slice_u16, toLeBytes_slice_u32,
    toLeBytes_slice_u64]
  simp only [slice_append_slice, Nat.reduceAdd, Nat.reduceLeDiff]
  rw [slice, List.drop_zero, Nat.sub_zero]

/-- What is written leaves the rest of the symbol alone, and is read back. -/
lemma encodeOn_spec {symbol encoded : Bytes} (h : header.encodeOn width symbol = .ok encoded) :
    encoded.length = symbol.length ∧ encoded.drop 72 = symbol.drop 72 ∧
      decodeOn width encoded = .ok header := by
  obtain ⟨hvalid, rfl⟩ := encodeOn_eq_ok_iff.mp h
  have hlen : 72 + (symbol.drop 72).length = symbol.length := by
    have hfits : 72 + header.payloadLen.toNat ≤ symbol.length :=
      payload_in_symbol_of_validateOn hvalid
    rw [List.length_drop]
    omega
  refine ⟨?_, List.drop_left' length_headerBytes, decodeOn_headerBytes (hlen ▸ hvalid)⟩
  rw [List.length_append, length_headerBytes, hlen]

/-- What is read is written back, and has a payload. -/
lemma decodeOn_spec {symbol : Bytes} (h : decodeOn width symbol = .ok header) :
    (∀ buffer : Bytes, buffer.length = symbol.length →
      ∃ encoded, header.encodeOn width buffer = .ok encoded ∧ encoded.take 72 = symbol.take 72) ∧
    ∃ payload, header.payloadOn width symbol = .ok payload := by
  have hvalid := validateOn_of_decodeOn h
  refine ⟨fun buffer hbuffer => ?_, _, payloadOn_eq_ok_iff.mpr ⟨hvalid, rfl⟩⟩
  refine ⟨_, encodeOn_eq_ok_iff.mpr ⟨hbuffer ▸ hvalid, rfl⟩, ?_⟩
  exact (List.take_left' length_headerBytes).trans (take_of_decodeOn h).symm

/-- The payload is what follows the header, and lies in the symbol. -/
lemma payloadOn_spec {symbol payload : Bytes} (h : header.payloadOn width symbol = .ok payload) :
    payload = slice symbol 72 (72 + header.payloadLen.toNat) ∧
      payload.length = header.payloadLen.toNat ∧ 72 + header.payloadLen.toNat ≤ symbol.length := by
  obtain ⟨hvalid, rfl⟩ := payloadOn_eq_ok_iff.mp h
  have hfits : 72 + header.payloadLen.toNat ≤ symbol.length :=
    payload_in_symbol_of_validateOn hvalid
  exact ⟨rfl, by rw [length_slice_of_le hfits, Nat.add_sub_cancel_left], hfits⟩

/-- The codec on a symbol: what is written is read back, what is read is written back, and the
payload is the announced range of the symbol and of the payload of its group. -/
structure BijectiveOn (width : PointerWidth) (header : MultichannelAudioShardHeader)
    (symbol : Bytes) : Prop where
  encode : ∀ encoded, header.encodeOn width symbol = .ok encoded →
    encoded.length = symbol.length ∧ encoded.drop 72 = symbol.drop 72 ∧
      decodeOn width encoded = .ok header
  decode : decodeOn width symbol = .ok header →
    (∀ buffer : Bytes, buffer.length = symbol.length →
      ∃ encoded, header.encodeOn width buffer = .ok encoded ∧ encoded.take 72 = symbol.take 72) ∧
    ∃ payload, header.payloadOn width symbol = .ok payload
  payload : ∀ payload, header.payloadOn width symbol = .ok payload →
    payload = slice symbol 72 (72 + header.payloadLen.toNat) ∧
    payload.length = header.payloadLen.toNat ∧
    72 + header.payloadLen.toNat ≤ symbol.length ∧
    header.payloadOffset.toNat + header.payloadLen.toNat ≤ header.groupPayloadLen.toNat

/-- Where pointers have 64 bits, every range fits. -/
lemma range_lt_bits64 (header : MultichannelAudioShardHeader) :
    header.payloadOffset.toNat + header.payloadLen.toNat < PointerWidth.bits64.limit := by
  have hoffset := header.payloadOffset.toNat_lt
  have hlen : header.payloadLen.toNat < 65536 := header.payloadLen.toNat_lt
  rw [PointerWidth.limit]
  omega

lemma bijectiveOn_of_lt (symbol : Bytes)
    (hlt : header.payloadOffset.toNat + header.payloadLen.toNat < width.limit) :
    header.BijectiveOn width symbol := by
  refine ⟨fun encoded => encodeOn_spec, decodeOn_spec, fun payload h => ?_⟩
  obtain ⟨hslice, hlen, hfits⟩ := payloadOn_spec h
  have hvalid := (payloadOn_eq_ok_iff.mp h).1
  rw [validateOn_eq hlt] at hvalid
  exact ⟨hslice, hlen, hfits, (validate_eq_ok_iff.mp hvalid).payload_in_group⟩

/-- **The audio shard header codec is a bijection onto what it accepts**, where pointers have 64
bits. -/
theorem shardCodec_bijective :
    (∀ (header : MultichannelAudioShardHeader) (symbol encoded : Bytes),
      header.encode symbol = .ok encoded → encoded.length = symbol.length ∧
        encoded.drop 72 = symbol.drop 72 ∧ decode encoded = .ok header) ∧
    (∀ (symbol : Bytes) (header : MultichannelAudioShardHeader), decode symbol = .ok header →
      (∀ buffer : Bytes, buffer.length = symbol.length →
        ∃ encoded, header.encode buffer = .ok encoded ∧ encoded.take 72 = symbol.take 72) ∧
      ∃ payload, header.payload symbol = .ok payload) ∧
    ∀ (header : MultichannelAudioShardHeader) (symbol payload : Bytes),
      header.payload symbol = .ok payload →
        payload = slice symbol 72 (72 + header.payloadLen.toNat) ∧
        payload.length = header.payloadLen.toNat ∧
        72 + header.payloadLen.toNat ≤ symbol.length ∧
        header.payloadOffset.toNat + header.payloadLen.toNat ≤ header.groupPayloadLen.toNat := by
  have hbijective (header : MultichannelAudioShardHeader) (symbol : Bytes) :
      header.BijectiveOn .bits64 symbol := bijectiveOn_of_lt symbol header.range_lt_bits64
  exact ⟨fun header symbol => (hbijective header symbol).encode,
    fun symbol header => (hbijective header symbol).decode,
    fun header symbol => (hbijective header symbol).payload⟩

/-- **Where the codec is a bijection onto what it accepts**: where pointers have 64 bits, on every
symbol; where they have 32 bits, unless it accepts a payload that ends beyond `u32::MAX`. -/
theorem bijectiveOn_iff (width : PointerWidth) (header : MultichannelAudioShardHeader)
    (symbol : Bytes) :
    header.BijectiveOn width symbol ↔
      (header.validateOn width symbol.length = .ok () →
        width = .bits64 ∨ header.payloadOffset.toNat + header.payloadLen.toNat < 2 ^ 32) := by
  constructor
  · intro hbijective hvalid
    refine Or.inr ?_
    -- the payload is returned, so its range lies in a group of at most `u32::MAX` bytes
    obtain ⟨-, -, -, hrange⟩ := hbijective.payload _ (payloadOn_eq_ok_iff.mpr ⟨hvalid, rfl⟩)
    exact hrange.trans_lt header.groupPayloadLen.toNat_lt
  · intro hwidth
    by_cases hvalid : header.validateOn width symbol.length = .ok ()
    · obtain rfl | hlt := hwidth hvalid
      · exact bijectiveOn_of_lt symbol header.range_lt_bits64
      · exact bijectiveOn_of_lt symbol (hlt.trans_le width.limit_ge)
    · -- nothing is written, read or returned
      exact ⟨fun _ h => absurd (encodeOn_eq_ok_iff.mp h).1 hvalid,
        fun h => absurd (validateOn_of_decodeOn h) hvalid,
        fun _ h => absurd (payloadOn_eq_ok_iff.mp h).1 hvalid⟩

/-- A header whose payload starts five bytes before `u32::MAX` and has ten bytes. -/
def beyondGroup : MultichannelAudioShardHeader where
  payloadKind := .pcm
  sampleFormat := .s16Le
  flags := 0
  sessionId := 0
  configGeneration := 0
  sampleRate := 48000
  frameCount := 1
  epochId := 0
  ptsSamples := 0
  groupId := 0
  groupIndex := 0
  groupCount := 1
  channelStart := 0
  channelCount := 1
  fragmentIndex := 0
  fragmentCount := 1
  sourceIndex := 0
  sourceCount := 1
  payloadLen := 10
  payloadOffset := 4294967290
  groupPayloadLen := 4294967295

/-- Where pointers have 32 bits, a symbol with this header is read and its payload returned. -/
theorem beyondGroup_not_bijective :
    decodeOn .bits32 (beyondGroup.headerBytes ++ List.replicate 10 7) = .ok beyondGroup ∧
      beyondGroup.payloadOn .bits32 (beyondGroup.headerBytes ++ List.replicate 10 7)
        = .ok (List.replicate 10 7) ∧
      beyondGroup.groupPayloadLen.toNat
        < beyondGroup.payloadOffset.toNat + beyondGroup.payloadLen.toNat ∧
      ¬ beyondGroup.BijectiveOn .bits32 (beyondGroup.headerBytes ++ List.replicate 10 7) := by
  have hdecode : decodeOn .bits32 (beyondGroup.headerBytes ++ List.replicate 10 7)
      = .ok beyondGroup := by
    decide +kernel
  have hpayload : beyondGroup.payloadOn .bits32 (beyondGroup.headerBytes ++ List.replicate 10 7)
      = .ok (List.replicate 10 7) := by
    decide +kernel
  have hrange : beyondGroup.groupPayloadLen.toNat
      < beyondGroup.payloadOffset.toNat + beyondGroup.payloadLen.toNat := by
    decide
  refine ⟨hdecode, hpayload, hrange, fun hbijective => ?_⟩
  obtain ⟨-, -, -, hle⟩ := hbijective.payload _ hpayload
  exact Nat.not_le.mpr hrange hle

end MultichannelAudioShardHeader

/-! ## Media fragments -/

/-- The differences of time stamps that are encoded. -/
lemma exists_encodeDtsDeltaMs_iff (metadata : MediaFrameMetadata) :
    (∃ delta, encodeDtsDeltaMs metadata = .ok delta) ↔
      ∀ dtsMs, metadata.dtsMs = some dtsMs →
        -32767 ≤ (dtsMs.toNat : ℤ) - metadata.ptsMs.toNat ∧
        (dtsMs.toNat : ℤ) - metadata.ptsMs.toNat ≤ 32767 := by
  rw [encodeDtsDeltaMs]
  cases hdts : metadata.dtsMs with
  | none => simp
  | some dtsMs =>
      simp only [Option.some.injEq, forall_eq']
      split_ifs with hrange
      · simp only [exists_const, false_iff]
        omega
      · simp only [Except.ok.injEq, exists_eq', true_iff]
        omega

/-- The time stamp that is decoded encodes to the difference it came from. -/
lemma encodeDtsDeltaMs_decode {metadata : MediaFrameMetadata} {delta : Int16}
    (h : decodeDtsMs metadata.ptsMs delta = .ok metadata.dtsMs) :
    encodeDtsDeltaMs metadata = .ok delta := by
  have hpts := metadata.ptsMs.toNat_lt
  have hmin := delta.le_toInt
  have hmax := delta.toInt_lt
  rw [decodeDtsMs] at h
  split_ifs at h with hnone hneg hunder hover
  · have hdts := Except.ok.inj h
    rw [encodeDtsDeltaMs, ← hdts, hnone]
  all_goals
    have hdts := Except.ok.inj h
    have hnot : delta.toInt ≠ -32768 := fun heq => hnone (Int16.toInt_inj.mp heq)
    have hexact : ∀ n : ℕ, n < 2 ^ 64 → (UInt64.ofNat n).toNat = n := fun n hn =>
      UInt64.toNat_ofNat_of_lt' hn
    rw [encodeDtsDeltaMs, ← hdts]
    simp only
    rw [hexact _ (by omega), if_neg (by omega)]
  · have hback : ((metadata.ptsMs.toNat - delta.toInt.natAbs : ℕ) : ℤ) - metadata.ptsMs.toNat
        = delta.toInt := by omega
    rw [hback, Int16.ofInt_toInt]
  · have hback : ((metadata.ptsMs.toNat + delta.toInt.natAbs : ℕ) : ℤ) - metadata.ptsMs.toNat
        = delta.toInt := by omega
    rw [hback, Int16.ofInt_toInt]

/-- The discriminants. -/
lemma MediaCodec.toU8_fromU8 {value : UInt8} (h : value ∈ [0, 1, 2, 3, 255]) :
    (fromU8 value).toU8 = value := by
  simp only [List.mem_cons, List.not_mem_nil, or_false] at h
  rcases h with rfl | rfl | rfl | rfl | rfl <;> rfl

namespace MediaFragmentHeader

/-- A header with a known codec and nothing in the reserved bytes is written back. -/
lemma eq_of_decode {bytes : Bytes} {header : MediaFragmentHeader} (hlen : bytes.length = 44)
    (hcodec : byteAt bytes 0 ∈ [0, 1, 2, 3, 255]) (hreserved : slice bytes 42 44 = [0, 0])
    (h : decode bytes = .ok header) :
    ∃ dtsDeltaMs, header.metadata.Encodable dtsDeltaMs ∧ bytes = header.headerBytes dtsDeltaMs := by
  have hlong : ¬ bytes.length < mediaFrameHeaderLen := by
    rw [hlen, mediaFrameHeaderLen]
    omega
  rw [decode, if_neg hlong] at h
  simp only at h
  obtain ⟨dtsMs, hdts, hread⟩ := bind_eq_ok_iff.mp h
  obtain rfl := Except.ok.inj hread
  set dtsDeltaMs := (fromLeBytes (slice bytes 40 42) : UInt16).toInt16 with hdelta
  have hflags : (byteAt bytes 1).toUInt16.toUInt8 = byteAt bytes 1 := UInt8.toUInt8_toUInt16 _
  have hduration : ((fromLeBytes (slice bytes 6 8) : UInt16).toUInt32).toUInt16
      = fromLeBytes (slice bytes 6 8) := UInt16.toUInt16_toUInt32 _
  have hback : dtsDeltaMs.toUInt16 = fromLeBytes (slice bytes 40 42) := rfl
  refine ⟨dtsDeltaMs, ⟨?_, ?_, encodeDtsDeltaMs_decode hdts⟩, ?_⟩
  · rw [UInt16.le_iff_toNat_le, UInt8.toNat_toUInt16]
    have hlt := (byteAt bytes 1).toNat_lt
    change _ ≤ 255
    omega
  · rw [UInt32.le_iff_toNat_le, UInt16.toNat_toUInt32]
    have hlt := (fromLeBytes (slice bytes 6 8) : UInt16).toNat_lt
    change _ ≤ 65535
    omega
  · simp only [headerBytes, fields, fieldBytes, List.map_cons, List.map_nil, List.flatten_cons,
      List.flatten_nil, List.append_nil, MediaCodec.toU8_fromU8 hcodec, hflags, hduration, hback,
      ← hreserved]
    simp (disch := omega) only [byteAt_eq_slice, toLeBytes_slice_u16, toLeBytes_slice_u32,
      toLeBytes_slice_u64]
    simp only [slice_append_slice, Nat.reduceAdd, Nat.reduceLeDiff]
    rw [← hlen, slice_zero_length]

/-- **The media fragment header codec is a bijection** between the headers that fit and the byte
strings with a known codec and nothing in the reserved bytes. -/
theorem fragmentCodec_bijective :
    (∀ (header : MediaFragmentHeader) (bytes : Bytes), 44 ≤ bytes.length →
      ((∃ encoded, header.encode bytes = .ok encoded) ↔
        header.metadata.flags.bits.toNat ≤ 255 ∧ header.metadata.durationMs.toNat ≤ 65535 ∧
        ∀ dtsMs, header.metadata.dtsMs = some dtsMs →
          -32767 ≤ (dtsMs.toNat : ℤ) - header.metadata.ptsMs.toNat ∧
          (dtsMs.toNat : ℤ) - header.metadata.ptsMs.toNat ≤ 32767) ∧
      ∀ encoded, header.encode bytes = .ok encoded → decode encoded = .ok header ∧
        encoded.length = bytes.length ∧ encoded.drop 44 = bytes.drop 44) ∧
    ∀ (bytes : Bytes) (header : MediaFragmentHeader), bytes.length = 44 →
      byteAt bytes 0 ∈ [0, 1, 2, 3, 255] → byteAt bytes 42 = 0 → byteAt bytes 43 = 0 →
      decode bytes = .ok header →
        ∀ buffer : Bytes, buffer.length = 44 → header.encode buffer = .ok bytes := by
  refine ⟨fun header bytes hlen => ⟨?_, ?_⟩, ?_⟩
  · rw [← exists_encodeDtsDeltaMs_iff]
    constructor
    · rintro ⟨encoded, h⟩
      obtain ⟨dtsDeltaMs, hfits, -⟩ := (encode_over_eq_ok_iff hlen).mp h
      exact ⟨UInt16.le_iff_toNat_le.mp hfits.flags_le, UInt32.le_iff_toNat_le.mp hfits.durationMs_le,
        dtsDeltaMs, hfits.dtsDeltaMs_eq⟩
    · rintro ⟨hflags, hduration, dtsDeltaMs, hdelta⟩
      exact ⟨_, (encode_over_eq_ok_iff hlen).mpr ⟨dtsDeltaMs, ⟨UInt16.le_iff_toNat_le.mpr hflags,
        UInt32.le_iff_toNat_le.mpr hduration, hdelta⟩, rfl⟩⟩
  · intro encoded h
    obtain ⟨dtsDeltaMs, hfits, rfl⟩ := (encode_over_eq_ok_iff hlen).mp h
    refine ⟨decode_headerBytes_append hfits _, ?_, List.drop_left' (length_headerBytes _)⟩
    rw [List.length_append, length_headerBytes, List.length_drop]
    omega
  · intro bytes header hlen hcodec h42 h43 h buffer hbuffer
    have hreserved : slice bytes 42 44 = [0, 0] := by
      rw [← slice_append_slice (by omega : 42 ≤ 43) (by omega : 43 ≤ 44),
        ← byteAt_eq_slice (by omega), ← byteAt_eq_slice (by omega), h42, h43]
      rfl
    obtain ⟨dtsDeltaMs, hfits, heq⟩ := eq_of_decode hlen hcodec hreserved h
    exact (encode_eq_ok_iff hbuffer).mpr ⟨dtsDeltaMs, hfits, heq⟩

end MediaFragmentHeader

end RaptorFec
