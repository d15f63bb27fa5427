import RaptorFec.Datagram.Header
import RaptorFec.Library.Target
import RaptorFec.Library.Words

/-!
# The audio shard header

Every source symbol of a multichannel audio epoch starts with a 72-byte header: the epoch, the
channel group, the place of the fragment in its group and the place of the symbol in its block.

* `MultichannelAudioShardHeader.encodeOn`, `decodeOn`, `payloadOn` — the codec, with the checks of
  `validateOn` in the source's order, where pointers have a given width;
* `encodeOn_eq_ok_iff`, `decodeOn_headerBytes` — what is written, and that it is read back;
* `encode`, `decode`, `payload` — the codec where pointers have 64 bits;
* `Valid` — the headers that pass the checks there, in a symbol of a given length.
-/

namespace RaptorFec

/-- `b"MAE1"`. -/
def multichannelAudioShardMagic : Bytes := [0x4D, 0x41, 0x45, 0x31]

def multichannelAudioShardVersion : UInt8 := 1

def multichannelAudioShardHeaderLen : ℕ := 72

inductive AudioPayloadKind where
  | pcm
  | opus
  | flac
  deriving DecidableEq, Repr

inductive AudioSampleFormat where
  | unspecified
  | s16Le
  | s24Le
  | s32Le
  | f32Le
  deriving DecidableEq, Repr

/-- `MultichannelAudioFecError`, with `usize` numbers as naturals. -/
inductive MultichannelAudioFecError where
  | fec (error : DatagramFecError)
  | datagramBudgetTooSmall (maxDatagramSize required : ℕ)
  | symbolSizeTooLarge (actual : ℕ)
  | emptyEpoch
  | invalidFrameCount
  | invalidSampleRate
  | tooManyGroups (actual : ℕ)
  | invalidChannelCount (groupId : UInt16)
  | pcmFormatRequired (groupId : UInt16)
  | flacFormatRequired (groupId : UInt16)
  | groupPayloadTooLong (groupId : UInt16) (actual : ℕ)
  | tooManyFragments (groupId : UInt16) (actual : ℕ)
  | tooManySourceSymbols (actual : ℕ) (max : UInt16)
  | encodedDatagramTooLarge (actual max : ℕ)
  | shardTooShort (actual : ℕ)
  | invalidShardMagic (actual : Bytes)
  | unsupportedShardVersion (version : UInt8)
  | unsupportedPayloadKind (kind : UInt8)
  | unsupportedSampleFormat (format : UInt8)
  | invalidGroupIndex (index count : UInt16)
  | invalidFragmentIndex (index count : UInt16)
  | invalidSourceIndex (index count : UInt16)
  | invalidPayloadRange (offset : UInt32) (len : UInt16) (total : UInt32)
  | shardPayloadTooLong (actual max : ℕ)
  | sourceIdentityMismatch (expectedIndex actualIndex expectedCount actualCount : UInt16)
  | decodedObjectLengthMismatch (expected actual : ℕ)
  deriving DecidableEq, Repr

/-- The discriminant of the kind. -/
def AudioPayloadKind.toU8 : AudioPayloadKind → UInt8
  | .pcm => 1
  | .opus => 2
  | .flac => 3

/-- `AudioPayloadKind::try_from`. -/
def AudioPayloadKind.tryFrom (value : UInt8) : Except MultichannelAudioFecError AudioPayloadKind :=
  if value = 1 then .ok .pcm
  else if value = 2 then .ok .opus
  else if value = 3 then .ok .flac
  else .error (.unsupportedPayloadKind value)

/-- The discriminant of the format. -/
def AudioSampleFormat.toU8 : AudioSampleFormat → UInt8
  | .unspecified => 0
  | .s16Le => 1
  | .s24Le => 2
  | .s32Le => 3
  | .f32Le => 4

/-- `AudioSampleFormat::try_from`. -/
def AudioSampleFormat.tryFrom (value : UInt8) :
    Except MultichannelAudioFecError AudioSampleFormat :=
  if value = 0 then .ok .unspecified
  else if value = 1 then .ok .s16Le
  else if value = 2 then .ok .s24Le
  else if value = 3 then .ok .s32Le
  else if value = 4 then .ok .f32Le
  else .error (.unsupportedSampleFormat value)

@[simp] lemma AudioPayloadKind.tryFrom_toU8 (kind : AudioPayloadKind) :
    tryFrom kind.toU8 = .ok kind := by
  cases kind <;> rfl

@[simp] lemma AudioSampleFormat.tryFrom_toU8 (format : AudioSampleFormat) :
    tryFrom format.toU8 = .ok format := by
  cases format <;> rfl

structure MultichannelAudioShardHeader where
  payloadKind : AudioPayloadKind
  sampleFormat : AudioSampleFormat
  flags : UInt8
  sessionId : UInt64
  configGeneration : UInt32
  sampleRate : UInt32
  frameCount : UInt32
  epochId : UInt64
  ptsSamples : UInt64
  groupId : UInt16
  groupIndex : UInt16
  groupCount : UInt16
  channelStart : UInt16
  channelCount : UInt16
  fragmentIndex : UInt16
  fragmentCount : UInt16
  sourceIndex : UInt16
  sourceCount : UInt16
  payloadLen : UInt16
  payloadOffset : UInt32
  groupPayloadLen : UInt32
  deriving DecidableEq, Repr

namespace MultichannelAudioShardHeader

variable (header : MultichannelAudioShardHeader) (width : PointerWidth)

/-- `MultichannelAudioShardHeader::validate`.  The end of the payload saturates at `usize::MAX`,
which a `u32` reaches where pointers have 32 bits. -/
def validateOn (symbolLen : ℕ) : Except MultichannelAudioFecError Unit :=
  if header.frameCount = 0 then .error .invalidFrameCount
  else if header.sampleRate = 0 then .error .invalidSampleRate
  else if header.payloadKind = .flac ∧ header.sampleFormat = .unspecified then
    .error (.flacFormatRequired header.groupId)
  else if header.groupCount = 0 ∨ header.groupCount ≤ header.groupIndex then
    .error (.invalidGroupIndex header.groupIndex header.groupCount)
  else if header.channelCount = 0 then .error (.invalidChannelCount header.groupId)
  else if header.fragmentCount = 0 ∨ header.fragmentCount ≤ header.fragmentIndex then
    .error (.invalidFragmentIndex header.fragmentIndex header.fragmentCount)
  else if header.sourceCount = 0 ∨ header.sourceCount ≤ header.sourceIndex then
    .error (.invalidSourceIndex header.sourceIndex header.sourceCount)
  else if header.groupPayloadLen.toNat
      < width.satAdd header.payloadOffset.toNat header.payloadLen.toNat then
    .error (.invalidPayloadRange header.payloadOffset header.payloadLen header.groupPayloadLen)
  else if symbolLen < multichannelAudioShardHeaderLen + header.payloadLen.toNat then
    .error (.shardPayloadTooLong header.payloadLen.toNat
      (symbolLen - multichannelAudioShardHeaderLen))
  else .ok ()

/-- The fields of the header at their offsets. -/
def fields : List (ℕ × Bytes) :=
  [(0, multichannelAudioShardMagic), (4, [multichannelAudioShardVersion]),
    (5, [header.payloadKind.toU8]), (6, [header.sampleFormat.toU8]), (7, [header.flags]),
    (8, toLeBytes header.sessionId), (16, toLeBytes header.configGeneration),
    (20, toLeBytes header.frameCount), (24, toLeBytes header.epochId),
    (32, toLeBytes header.ptsSamples), (40, toLeBytes header.groupId),
    (42, toLeBytes header.groupIndex), (44, toLeBytes header.groupCount),
    (46, toLeBytes header.channelStart), (48, toLeBytes header.channelCount),
    (50, toLeBytes header.fragmentIndex), (52, toLeBytes header.fragmentCount),
    (54, toLeBytes header.sourceIndex), (56, toLeBytes header.sourceCount),
    (58, toLeBytes header.payloadLen), (60, toLeBytes header.payloadOffset),
    (64, toLeBytes header.groupPayloadLen), (68, toLeBytes header.sampleRate)]

/-- `MultichannelAudioShardHeader::encode`; the result is the symbol after the call. -/
def encodeOn (symbol : Bytes) : Except MultichannelAudioFecError Bytes :=
  if symbol.length < multichannelAudioShardHeaderLen then .error (.shardTooShort symbol.length)
  else do
    header.validateOn width symbol.length
    .ok (writeFields (writeAt symbol 0 (List.replicate multichannelAudioShardHeaderLen 0))
      header.fields)

/-- `MultichannelAudioShardHeader::decode`. -/
def decodeOn (symbol : Bytes) : Except MultichannelAudioFecError MultichannelAudioShardHeader :=
  if symbol.length < multichannelAudioShardHeaderLen then .error (.shardTooShort symbol.length)
  else if slice symbol 0 4 ≠ multichannelAudioShardMagic then
    .error (.invalidShardMagic (slice symbol 0 4))
  else if byteAt symbol 4 ≠ multichannelAudioShardVersion then
    .error (.unsupportedShardVersion (byteAt symbol 4))
  else do
    let payloadKind ← AudioPayloadKind.tryFrom (byteAt symbol 5)
    let sampleFormat ← AudioSampleFormat.tryFrom (byteAt symbol 6)
    let header : MultichannelAudioShardHeader :=
      { payloadKind := payloadKind
        sampleFormat := sampleFormat
        flags := byteAt symbol 7
        sessionId := fromLeBytes (slice symbol 8 16)
        configGeneration := fromLeBytes (slice symbol 16 20)
        sampleRate := fromLeBytes (slice symbol 68 72)
        frameCount := fromLeBytes (slice symbol 20 24)
        epochId := fromLeBytes (slice symbol 24 32)
        ptsSamples := fromLeBytes (slice symbol 32 40)
        groupId := fromLeBytes (slice symbol 40 42)
        groupIndex := fromLeBytes (slice symbol 42 44)
        groupCount := fromLeBytes (slice symbol 44 46)
        channelStart := fromLeBytes (slice symbol 46 48)
        channelCount := fromLeBytes (slice symbol 48 50)
        fragmentIndex := fromLeBytes (slice symbol 50 52)
        fragmentCount := fromLeBytes (slice symbol 52 54)
        sourceIndex := fromLeBytes (slice symbol 54 56)
        sourceCount := fromLeBytes (slice symbol 56 58)
        payloadLen := fromLeBytes (slice symbol 58 60)
        payloadOffset := fromLeBytes (slice symbol 60 64)
        groupPayloadLen := fromLeBytes (slice symbol 64 68) }
    header.validateOn width symbol.length
    .ok header

/-- `MultichannelAudioShardHeader::payload`. -/
def payloadOn (symbol : Bytes) : Except MultichannelAudioFecError Bytes := do
  header.validateOn width symbol.length
  .ok (slice symbol multichannelAudioShardHeaderLen
    (multichannelAudioShardHeaderLen + header.payloadLen.toNat))

/-! ## The codec where pointers have 64 bits -/

def validate (symbolLen : ℕ) : Except MultichannelAudioFecError Unit :=
  header.validateOn .bits64 symbolLen

def encode (symbol : Bytes) : Except MultichannelAudioFecError Bytes :=
  header.encodeOn .bits64 symbol

def decode (symbol : Bytes) : Except MultichannelAudioFecError MultichannelAudioShardHeader :=
  decodeOn .bits64 symbol

def payload (symbol : Bytes) : Except MultichannelAudioFecError Bytes :=
  header.payloadOn .bits64 symbol

/-! ## What the codec does -/

/-- The headers that pass the checks in a symbol of the given length. -/
structure Valid (symbolLen : ℕ) : Prop where
  frameCount_ne : header.frameCount ≠ 0
  sampleRate_ne : header.sampleRate ≠ 0
  format : ¬ (header.payloadKind = .flac ∧ header.sampleFormat = .unspecified)
  groupIndex_lt : header.groupIndex < header.groupCount
  channelCount_ne : header.channelCount ≠ 0
  fragmentIndex_lt : header.fragmentIndex < header.fragmentCount
  sourceIndex_lt : header.sourceIndex < header.sourceCount
  payload_in_group :
    header.payloadOffset.toNat + header.payloadLen.toNat ≤ header.groupPayloadLen.toNat
  payload_in_symbol : multichannelAudioShardHeaderLen + header.payloadLen.toNat ≤ symbolLen

/-- The 72 bytes of a header. -/
def headerBytes : Bytes := fieldBytes header.fields

variable {header} {width}

@[simp] lemma length_headerBytes : header.headerBytes.length = 72 := rfl

/-- The payload of a header that passes the checks lies in the symbol. -/
lemma payload_in_symbol_of_validateOn {symbolLen : ℕ}
    (h : header.validateOn width symbolLen = .ok ()) :
    multichannelAudioShardHeaderLen + header.payloadLen.toNat ≤ symbolLen := by
  rw [validateOn] at h
  split_ifs at h with _ _ _ _ _ _ _ _ hlong
  exact Nat.not_lt.mp hlong

/-- Where the end of the payload is below `usize::MAX`, the checks are those of 64 bits. -/
lemma validateOn_eq {symbolLen : ℕ}
    (h : header.payloadOffset.toNat + header.payloadLen.toNat < width.limit) :
    header.validateOn width symbolLen = header.validate symbolLen := by
  have hlen : header.payloadLen.toNat < 65536 := header.payloadLen.toNat_lt
  have hwide : header.payloadOffset.toNat + header.payloadLen.toNat
      < PointerWidth.bits64.limit := by
    have hoffset := header.payloadOffset.toNat_lt
    rw [PointerWidth.limit]
    omega
  rw [validate, validateOn, validateOn, PointerWidth.satAdd_eq h, PointerWidth.satAdd_eq hwide]

lemma validate_eq_ok_iff {symbolLen : ℕ} :
    header.validate symbolLen = .ok () ↔ header.Valid symbolLen := by
  -- the sum of a `u32` and a `u16` does not saturate
  have hsum : PointerWidth.bits64.satAdd header.payloadOffset.toNat header.payloadLen.toNat
      = header.payloadOffset.toNat + header.payloadLen.toNat := by
    have hoffset := header.payloadOffset.toNat_lt
    have hlen : header.payloadLen.toNat < 65536 := header.payloadLen.toNat_lt
    refine PointerWidth.satAdd_eq ?_
    rw [PointerWidth.limit]
    omega
  have hindex : ∀ {index count : UInt16}, ¬ (count = 0 ∨ count ≤ index) ↔ index < count := by
    intro index count
    rw [not_or, UInt16.not_le, and_iff_right_iff_imp]
    rintro hlt rfl
    exact absurd hlt (by simp)
  rw [validate, validateOn, hsum]
  constructor
  · intro h
    split_ifs at h with hframe hrate hformat hgroup hchannel hfragment hsource hrange hlong
    exact ⟨hframe, hrate, hformat, hindex.mp hgroup, hchannel, hindex.mp hfragment,
      hindex.mp hsource, Nat.not_lt.mp hrange, Nat.not_lt.mp hlong⟩
  · intro h
    rw [if_neg h.frameCount_ne, if_neg h.sampleRate_ne, if_neg h.format,
      if_neg (hindex.mpr h.groupIndex_lt), if_neg h.channelCount_ne,
      if_neg (hindex.mpr h.fragmentIndex_lt), if_neg (hindex.mpr h.sourceIndex_lt),
      if_neg (Nat.not_lt.mpr h.payload_in_group), if_neg (Nat.not_lt.mpr h.payload_in_symbol)]

/-- A header that is decoded passed the checks. -/
lemma validateOn_of_decodeOn {symbol : Bytes} (h : decodeOn width symbol = .ok header) :
    header.validateOn width symbol.length = .ok () := by
  rw [decodeOn] at h
  split_ifs at h
  obtain ⟨kind, -, h⟩ := bind_eq_ok_iff.mp h
  obtain ⟨format, -, h⟩ := bind_eq_ok_iff.mp h
  obtain ⟨_, hvalidate, hsame⟩ := bind_eq_ok_iff.mp h
  rw [← Except.ok.inj hsame]
  exact hvalidate

lemma valid_of_decode {symbol : Bytes} (h : decode symbol = .ok header) :
    header.Valid symbol.length := validate_eq_ok_iff.mp (validateOn_of_decodeOn h)

/-- `encode` succeeds on the headers that pass the checks, and writes the header bytes over the
start of the symbol. -/
theorem encodeOn_eq_ok_iff {symbol encoded : Bytes} :
    header.encodeOn width symbol = .ok encoded
      ↔ header.validateOn width symbol.length = .ok () ∧
        encoded = header.headerBytes ++ symbol.drop 72 := by
  by_cases hshort : symbol.length < multichannelAudioShardHeaderLen
  · rw [encodeOn, if_pos hshort]
    constructor
    · exact nofun
    · rintro ⟨hvalid, -⟩
      have hfits := payload_in_symbol_of_validateOn hvalid
      omega
  have hlen : 72 ≤ symbol.length := Nat.not_lt.mp hshort
  have hwrite : writeFields (writeAt symbol 0 (List.replicate multichannelAudioShardHeaderLen 0))
      header.fields = header.headerBytes ++ symbol.drop 72 := by
    have hadj : Adjacent 0 header.fields := by
      simp [fields, Adjacent, multichannelAudioShardMagic]
    have hrest : (writeAt symbol 0 (List.replicate 72 0)).drop 72 = symbol.drop 72 := by
      simp [writeAt]
    rw [writeFields_adjacent _ hadj]
    exact congrArg (header.headerBytes ++ ·) hrest
  rw [encodeOn, if_neg hshort, hwrite]
  constructor
  · intro h
    obtain ⟨_, hvalid, hencoded⟩ := bind_eq_ok_iff.mp h
    exact ⟨hvalid, (Except.ok.inj hencoded).symm⟩
  · rintro ⟨hvalid, rfl⟩
    rw [hvalid, ok_bind]

theorem encode_eq_ok_iff {symbol encoded : Bytes} :
    header.encode symbol = .ok encoded
      ↔ header.Valid symbol.length ∧ encoded = header.headerBytes ++ symbol.drop 72 := by
  rw [encode, encodeOn_eq_ok_iff]
  exact and_congr_left' validate_eq_ok_iff

/-- **The round trip.**  A symbol that starts with the bytes of a header that passes the checks
decodes to it. -/
theorem decodeOn_headerBytes {rest : Bytes}
    (hvalid : header.validateOn width (72 + rest.length) = .ok ()) :
    decodeOn width (header.headerBytes ++ rest) = .ok header := by
  have hlen : (header.headerBytes ++ rest).length = 72 + rest.length := by
    rw [List.length_append, length_headerBytes]
  have hmagic : slice (header.headerBytes ++ rest) 0 4 = multichannelAudioShardMagic := rfl
  have hversion : byteAt (header.headerBytes ++ rest) 4 = multichannelAudioShardVersion := rfl
  have hkind : byteAt (header.headerBytes ++ rest) 5 = header.payloadKind.toU8 := rfl
  have hformat : byteAt (header.headerBytes ++ rest) 6 = header.sampleFormat.toU8 := rfl
  have hflags : byteAt (header.headerBytes ++ rest) 7 = header.flags := rfl
  have hsession : slice (header.headerBytes ++ rest) 8 16 = toLeBytes header.sessionId := rfl
  have hgeneration : slice (header.headerBytes ++ rest) 16 20
      = toLeBytes header.configGeneration := rfl
  have hframes : slice (header.headerBytes ++ rest) 20 24 = toLeBytes header.frameCount := rfl
  have hepoch : slice (header.headerBytes ++ rest) 24 32 = toLeBytes header.epochId := rfl
  have hpts : slice (header.headerBytes ++ rest) 32 40 = toLeBytes header.ptsSamples := rfl
  have hgroup : slice (header.headerBytes ++ rest) 40 42 = toLeBytes header.groupId := rfl
  have hgindex : slice (header.headerBytes ++ rest) 42 44 = toLeBytes header.groupIndex := rfl
  have hgcount : slice (header.headerBytes ++ rest) 44 46 = toLeBytes header.groupCount := rfl
  have hstart : slice (header.headerBytes ++ rest) 46 48 = toLeBytes header.channelStart := rfl
  have hchannels : slice (header.headerBytes ++ rest) 48 50 = toLeBytes header.channelCount := rfl
  have hfindex : slice (header.headerBytes ++ rest) 50 52 = toLeBytes header.fragmentIndex := rfl
  have hfcount : slice (header.headerBytes ++ rest) 52 54 = toLeBytes header.fragmentCount := rfl
  have hsindex : slice (header.headerBytes ++ rest) 54 56 = toLeBytes header.sourceIndex := rfl
  have hscount : slice (header.headerBytes ++ rest) 56 58 = toLeBytes header.sourceCount := rfl
  have hplen : slice (header.headerBytes ++ rest) 58 60 = toLeBytes header.payloadLen := rfl
  have hoffset : slice (header.headerBytes ++ rest) 60 64 = toLeBytes header.payloadOffset := rfl
  have htotal : slice (header.headerBytes ++ rest) 64 68 = toLeBytes header.groupPayloadLen := rfl
  have hrate : slice (header.headerBytes ++ rest) 68 72 = toLeBytes header.sampleRate := rfl
  rw [decodeOn, if_neg (by rw [hlen, multichannelAudioShardHeaderLen]; omega),
    if_neg (not_not.mpr hmagic), if_neg (not_not.mpr hversion), hkind, hformat,
    AudioPayloadKind.tryFrom_toU8, AudioSampleFormat.tryFrom_toU8, ok_bind, ok_bind]
  simp only [hflags, hsession, hgeneration, hframes, hepoch, hpts, hgroup, hgindex, hgcount,
    hstart, hchannels, hfindex, hfcount, hsindex, hscount, hplen, hoffset, htotal, hrate,
    fromLeBytes_toLeBytes]
  rw [hlen, hvalid, ok_bind]

theorem decode_headerBytes {rest : Bytes} (hvalid : header.Valid (72 + rest.length)) :
    decode (header.headerBytes ++ rest) = .ok header :=
  decodeOn_headerBytes (validate_eq_ok_iff.mpr hvalid)

/-- The range of a payload that is returned. -/
lemma payloadOn_eq_ok_iff {symbol payload : Bytes} :
    header.payloadOn width symbol = .ok payload
      ↔ header.validateOn width symbol.length = .ok () ∧
        payload = slice symbol 72 (72 + header.payloadLen.toNat) := by
  rw [payloadOn]
  constructor
  · intro h
    obtain ⟨_, hvalidate, hpayload⟩ := bind_eq_ok_iff.mp h
    exact ⟨hvalidate, (Except.ok.inj hpayload).symm⟩
  · rintro ⟨hvalid, rfl⟩
    rw [hvalid, ok_bind]
    rfl

/-- The payload that follows the header bytes in a symbol. -/
lemma payload_headerBytes {bytes rest : Bytes}
    (hvalid : header.Valid (72 + (bytes ++ rest).length))
    (hlen : bytes.length = header.payloadLen.toNat) :
    header.payload (header.headerBytes ++ (bytes ++ rest)) = .ok bytes := by
  have hsymbol : (header.headerBytes ++ (bytes ++ rest)).length = 72 + (bytes ++ rest).length := by
    rw [List.length_append, length_headerBytes]
  refine payloadOn_eq_ok_iff.mpr ⟨hsymbol ▸ validate_eq_ok_iff.mpr hvalid, ?_⟩
  have hbytes : header.headerBytes.length = 72 := length_headerBytes
  rw [slice, ← hlen, Nat.add_sub_cancel_left, ← hbytes, List.drop_left, List.take_left]

end MultichannelAudioShardHeader

end RaptorFec
