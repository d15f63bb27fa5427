import RaptorFec.Media.Adaptive

/-!
# The media fragment header

Each block of a media frame starts with a 44-byte header: the metadata of the frame and the place
of the fragment in it.  The decoding time stamp travels as a 16-bit signed difference to the
presentation time stamp, with the smallest value standing for no time stamp.

`decode_headerBytes` is the round trip: a header that `encode` accepts is read back from its bytes.
-/

namespace RaptorFec

def mediaFrameHeaderLen : ℕ := 44

/-- `i16::MIN`, the difference that stands for no decoding time stamp. -/
def noDtsDeltaMs : Int16 := Int16.minValue

inductive MediaCodec where
  | unknown
  | h264
  | opus
  | aac
  | data
  deriving DecidableEq, Repr

/-- The discriminant of the codec. -/
def MediaCodec.toU8 : MediaCodec → UInt8
  | .unknown => 0
  | .h264 => 1
  | .opus => 2
  | .aac => 3
  | .data => 255

/-- `MediaCodec::from_u8`. -/
def MediaCodec.fromU8 (value : UInt8) : MediaCodec :=
  if value = 1 then .h264
  else if value = 2 then .opus
  else if value = 3 then .aac
  else if value = 255 then .data
  else .unknown

@[simp] lemma MediaCodec.fromU8_toU8 (codec : MediaCodec) : fromU8 codec.toU8 = codec := by
  cases codec <;> rfl

/-- `MediaFrameFlags`. -/
structure MediaFrameFlags where
  bits : UInt16
  deriving DecidableEq, Repr

/-- `is_keyframe`. -/
def MediaFrameFlags.isKeyframe (flags : MediaFrameFlags) : Prop := flags.bits &&& 1 ≠ 0

instance (flags : MediaFrameFlags) : Decidable flags.isKeyframe :=
  inferInstanceAs (Decidable (_ ≠ _))

structure MediaFrameMetadata where
  streamId : UInt64
  sequence : UInt64
  ptsMs : UInt64
  dtsMs : Option UInt64
  durationMs : UInt32
  codec : MediaCodec
  flags : MediaFrameFlags
  deriving DecidableEq, Repr

/-- `MediaFrameMetadata::priority`. -/
def MediaFrameMetadata.priority (metadata : MediaFrameMetadata) : MediaPriority :=
  match metadata.codec with
  | .opus | .aac => .audio
  | .h264 => if metadata.flags.isKeyframe then .videoKey else .videoDelta
  | .unknown | .data => .data

inductive MediaFecError where
  | fec (error : DatagramFecError)
  | headerTooShort (actual : ℕ)
  | flagsTooLarge (actual : UInt16)
  | durationTooLarge (actual : UInt32)
  | dtsDeltaOutOfRange (ptsMs dtsMs : UInt64)
  | invalidDtsDelta (ptsMs : UInt64) (deltaMs : Int16)
  | blockTooSmall (maxBlockPayload headerLen : ℕ)
  | tooManyFragments (actual : ℕ)
  | accessUnitTooLarge (actual : ℕ)
  | invalidFragmentIndex (index count : UInt16)
  | conflictingMetadata
  | conflictingAccessUnitLength
  | accessUnitLengthMismatch (expected actual : ℕ)
  | incompleteFrame
  deriving DecidableEq, Repr

structure MediaFragmentHeader where
  metadata : MediaFrameMetadata
  fragmentIndex : UInt16
  fragmentCount : UInt16
  accessUnitLen : UInt32
  fragmentOffset : UInt32
  deriving DecidableEq, Repr

/-- `encode_dts_delta_ms`. -/
def encodeDtsDeltaMs (metadata : MediaFrameMetadata) : Except MediaFecError Int16 :=
  match metadata.dtsMs with
  | none => .ok noDtsDeltaMs
  | some dtsMs =>
      let delta : ℤ := (dtsMs.toNat : ℤ) - (metadata.ptsMs.toNat : ℤ)
      if delta < -(2 ^ 15) + 1 ∨ 2 ^ 15 - 1 < delta then
        .error (.dtsDeltaOutOfRange metadata.ptsMs dtsMs)
      else .ok (Int16.ofInt delta)

/-- `decode_dts_ms`. -/
def decodeDtsMs (ptsMs : UInt64) (deltaMs : Int16) : Except MediaFecError (Option UInt64) :=
  if deltaMs = noDtsDeltaMs then .ok none
  else if deltaMs.toInt < 0 then
    if ptsMs.toNat < deltaMs.toInt.natAbs then .error (.invalidDtsDelta ptsMs deltaMs)
    else .ok (some (UInt64.ofNat (ptsMs.toNat - deltaMs.toInt.natAbs)))
  else
    if 2 ^ 64 ≤ ptsMs.toNat + deltaMs.toInt.natAbs then .error (.invalidDtsDelta ptsMs deltaMs)
    else .ok (some (UInt64.ofNat (ptsMs.toNat + deltaMs.toInt.natAbs)))

/-- The difference that is encoded decodes to the time stamp it came from. -/
lemma decodeDtsMs_encode {metadata : MediaFrameMetadata} {delta : Int16}
    (h : encodeDtsDeltaMs metadata = .ok delta) :
    decodeDtsMs metadata.ptsMs delta = .ok metadata.dtsMs := by
  have hpts := metadata.ptsMs.toNat_lt
  rw [encodeDtsDeltaMs] at h
  cases hdts : metadata.dtsMs with
  | none =>
      rw [hdts] at h
      obtain rfl := Except.ok.inj h
      exact if_pos rfl
  | some dtsMs =>
      have hlt := dtsMs.toNat_lt
      rw [hdts] at h
      simp only at h
      split_ifs at h with hrange
      obtain rfl := Except.ok.inj h
      rw [not_or, not_lt, not_lt] at hrange
      have hint := Int16.toInt_ofInt_of_le (n := (dtsMs.toNat : ℤ) - metadata.ptsMs.toNat)
        (by omega) (by omega)
      have hne : Int16.ofInt ((dtsMs.toNat : ℤ) - metadata.ptsMs.toNat) ≠ noDtsDeltaMs := by
        intro heq
        have hmin : noDtsDeltaMs.toInt = -32768 := rfl
        rw [← heq, hint] at hmin
        omega
      rw [decodeDtsMs, if_neg hne, hint]
      split_ifs with hneg hunder hover
      · omega
      · have hback : metadata.ptsMs.toNat
            - ((dtsMs.toNat : ℤ) - metadata.ptsMs.toNat).natAbs = dtsMs.toNat := by omega
        rw [hback, UInt64.ofNat_toNat]
      · omega
      · have hback : metadata.ptsMs.toNat
            + ((dtsMs.toNat : ℤ) - metadata.ptsMs.toNat).natAbs = dtsMs.toNat := by omega
        rw [hback, UInt64.ofNat_toNat]

/-! ## The codec -/

namespace MediaFragmentHeader

variable (header : MediaFragmentHeader)

/-- The fields of the header at their offsets. -/
def fields (dtsDeltaMs : Int16) : List (ℕ × Bytes) :=
  [(0, [header.metadata.codec.toU8]), (1, [header.metadata.flags.bits.toUInt8]),
    (2, toLeBytes header.fragmentIndex), (4, toLeBytes header.fragmentCount),
    (6, toLeBytes header.metadata.durationMs.toUInt16), (8, toLeBytes header.metadata.streamId),
    (16, toLeBytes header.metadata.sequence), (24, toLeBytes header.metadata.ptsMs),
    (32, toLeBytes header.accessUnitLen), (36, toLeBytes header.fragmentOffset),
    (40, toLeBytes dtsDeltaMs.toUInt16), (42, [0, 0])]

/-- `MediaFragmentHeader::encode`; the result is the buffer after the call. -/
def encode (bytes : Bytes) : Except MediaFecError Bytes :=
  if bytes.length < mediaFrameHeaderLen then .error (.headerTooShort bytes.length)
  else if 255 < header.metadata.flags.bits then
    .error (.flagsTooLarge header.metadata.flags.bits)
  else if 65535 < header.metadata.durationMs then
    .error (.durationTooLarge header.metadata.durationMs)
  else do
    let dtsDeltaMs ← encodeDtsDeltaMs header.metadata
    .ok (writeFields bytes (header.fields dtsDeltaMs))

/-- `MediaFragmentHeader::decode`. -/
def decode (bytes : Bytes) : Except MediaFecError MediaFragmentHeader :=
  if bytes.length < mediaFrameHeaderLen then .error (.headerTooShort bytes.length)
  else
    let ptsMs : UInt64 := fromLeBytes (slice bytes 24 32)
    let dtsDeltaMs := (fromLeBytes (slice bytes 40 42) : UInt16).toInt16
    do
      let dtsMs ← decodeDtsMs ptsMs dtsDeltaMs
      .ok
        { metadata :=
            { codec := MediaCodec.fromU8 (byteAt bytes 0)
              flags := ⟨(byteAt bytes 1).toUInt16⟩
              streamId := fromLeBytes (slice bytes 8 16)
              sequence := fromLeBytes (slice bytes 16 24)
              ptsMs := ptsMs
              dtsMs := dtsMs
              durationMs := (fromLeBytes (slice bytes 6 8) : UInt16).toUInt32 }
          fragmentIndex := fromLeBytes (slice bytes 2 4)
          fragmentCount := fromLeBytes (slice bytes 4 6)
          accessUnitLen := fromLeBytes (slice bytes 32 36)
          fragmentOffset := fromLeBytes (slice bytes 36 40) }

/-- The 44 bytes of a header. -/
def headerBytes (dtsDeltaMs : Int16) : Bytes := fieldBytes (header.fields dtsDeltaMs)

variable {header}

@[simp] lemma length_headerBytes (dtsDeltaMs : Int16) :
    (header.headerBytes dtsDeltaMs).length = 44 := rfl

end MediaFragmentHeader

/-- The metadata fits the field widths of the header. -/
structure MediaFrameMetadata.Encodable (metadata : MediaFrameMetadata) (dtsDeltaMs : Int16) :
    Prop where
  flags_le : metadata.flags.bits ≤ 255
  durationMs_le : metadata.durationMs ≤ 65535
  dtsDeltaMs_eq : encodeDtsDeltaMs metadata = .ok dtsDeltaMs

namespace MediaFragmentHeader

variable {header : MediaFragmentHeader}

/-- `encode` succeeds on metadata that fits, and writes the header bytes over the start of the
buffer. -/
lemma encode_over_eq_ok_iff {bytes encoded : Bytes} (hlen : 44 ≤ bytes.length) :
    header.encode bytes = .ok encoded
      ↔ ∃ dtsDeltaMs, header.metadata.Encodable dtsDeltaMs ∧
          encoded = header.headerBytes dtsDeltaMs ++ bytes.drop 44 := by
  have hwrite : ∀ dtsDeltaMs, writeFields bytes (header.fields dtsDeltaMs)
      = header.headerBytes dtsDeltaMs ++ bytes.drop 44 := by
    intro dtsDeltaMs
    have hadj : Adjacent 0 (header.fields dtsDeltaMs) := by simp [fields, Adjacent]
    exact writeFields_adjacent bytes hadj
  have hlong : ¬ bytes.length < mediaFrameHeaderLen := Nat.not_lt.mpr hlen
  rw [encode, if_neg hlong]
  constructor
  · intro h
    split_ifs at h with hflags hduration
    obtain ⟨dtsDeltaMs, hdelta, hencoded⟩ := bind_eq_ok_iff.mp h
    rw [hwrite] at hencoded
    exact ⟨dtsDeltaMs, ⟨UInt16.not_lt.mp hflags, UInt32.not_lt.mp hduration, hdelta⟩,
      (Except.ok.inj hencoded).symm⟩
  · rintro ⟨dtsDeltaMs, hfits, rfl⟩
    rw [if_neg (UInt16.not_lt.mpr hfits.flags_le), if_neg (UInt32.not_lt.mpr hfits.durationMs_le),
      hfits.dtsDeltaMs_eq, ok_bind, hwrite]

/-- In a buffer of the size of the header there is nothing behind it. -/
lemma encode_eq_ok_iff {bytes encoded : Bytes} (hlen : bytes.length = 44) :
    header.encode bytes = .ok encoded
      ↔ ∃ dtsDeltaMs, header.metadata.Encodable dtsDeltaMs ∧
          encoded = header.headerBytes dtsDeltaMs := by
  have hrest : bytes.drop 44 = [] := List.drop_eq_nil_of_le (Nat.le_of_eq hlen)
  rw [encode_over_eq_ok_iff (Nat.le_of_eq hlen.symm), hrest]
  simp only [List.append_nil]

/-- **The round trip.**  Bytes that start with a header whose metadata fits decode to the header. -/
theorem decode_headerBytes_append {dtsDeltaMs : Int16}
    (hfits : header.metadata.Encodable dtsDeltaMs) (rest : Bytes) :
    decode (header.headerBytes dtsDeltaMs ++ rest) = .ok header := by
  have hflags : header.metadata.flags.bits.toUInt8.toUInt16 = header.metadata.flags.bits := by
    have hle := UInt16.le_iff_toNat_le.mp hfits.flags_le
    rw [show (255 : UInt16).toNat = 255 from rfl] at hle
    refine UInt16.toNat_inj.mp ?_
    rw [UInt8.toNat_toUInt16, UInt16.toNat_toUInt8]
    omega
  have hduration : header.metadata.durationMs.toUInt16.toUInt32 = header.metadata.durationMs := by
    have hle := UInt32.le_iff_toNat_le.mp hfits.durationMs_le
    rw [show (65535 : UInt32).toNat = 65535 from rfl] at hle
    refine UInt32.toNat_inj.mp ?_
    rw [UInt16.toNat_toUInt32, UInt32.toNat_toUInt16]
    omega
  have hpts : slice (header.headerBytes dtsDeltaMs ++ rest) 24 32
      = toLeBytes header.metadata.ptsMs := rfl
  have hdelta : slice (header.headerBytes dtsDeltaMs ++ rest) 40 42
      = toLeBytes dtsDeltaMs.toUInt16 := rfl
  have hcodec : byteAt (header.headerBytes dtsDeltaMs ++ rest) 0 = header.metadata.codec.toU8 := rfl
  have hbits : byteAt (header.headerBytes dtsDeltaMs ++ rest) 1
      = header.metadata.flags.bits.toUInt8 := rfl
  have hstream : slice (header.headerBytes dtsDeltaMs ++ rest) 8 16
      = toLeBytes header.metadata.streamId := rfl
  have hsequence : slice (header.headerBytes dtsDeltaMs ++ rest) 16 24
      = toLeBytes header.metadata.sequence := rfl
  have hms : slice (header.headerBytes dtsDeltaMs ++ rest) 6 8
      = toLeBytes header.metadata.durationMs.toUInt16 := rfl
  have hindex : slice (header.headerBytes dtsDeltaMs ++ rest) 2 4
      = toLeBytes header.fragmentIndex := rfl
  have hcount : slice (header.headerBytes dtsDeltaMs ++ rest) 4 6
      = toLeBytes header.fragmentCount := rfl
  have hlen : slice (header.headerBytes dtsDeltaMs ++ rest) 32 36
      = toLeBytes header.accessUnitLen := rfl
  have hoffset : slice (header.headerBytes dtsDeltaMs ++ rest) 36 40
      = toLeBytes header.fragmentOffset := rfl
  have hback : dtsDeltaMs.toUInt16.toInt16 = dtsDeltaMs := rfl
  have hlong : ¬ (header.headerBytes dtsDeltaMs ++ rest).length < mediaFrameHeaderLen := by
    rw [List.length_append, length_headerBytes, mediaFrameHeaderLen]
    omega
  rw [decode, if_neg hlong]
  simp only [hpts, hdelta, hcodec, hbits, hstream, hsequence, hms, hindex, hcount, hlen, hoffset,
    fromLeBytes_toLeBytes, MediaCodec.fromU8_toU8, hback, hflags, hduration,
    decodeDtsMs_encode hfits.dtsDeltaMs_eq, ok_bind]

/-- The bytes of a header whose metadata fits decode to the header. -/
lemma decode_headerBytes {dtsDeltaMs : Int16} (hfits : header.metadata.Encodable dtsDeltaMs) :
    decode (header.headerBytes dtsDeltaMs) = .ok header := by
  have happend := decode_headerBytes_append hfits []
  rwa [List.append_nil] at happend

end MediaFragmentHeader

end RaptorFec
