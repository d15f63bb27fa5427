import RaptorFec.Crates.Repetition
import RaptorFec.Datagram.Header
import RaptorFec.Library.Target

/-!
# The codec on a target machine

`payload`, `compute_packet_crc32` and `audio_session_id` compute lengths and bounds in `usize`.  The
payload length of a header is any 32-bit number, and the length of the session-id trailer is added
to it.

* `payloadOn`, `computePacketCrc32On`, `audioSessionIdOn` — the functions with the arithmetic and
  the slices of a target;
* `Fits` — the announced lengths fit in a `usize`; then the functions are those over the naturals
  (`payloadOn_eq`, `computePacketCrc32On_eq`, `audioSessionIdOn_eq`);
* `payloadOn_eq_none_iff` — when `payload` slices out of bounds after the length check wrapped;
* `safeOn_iff` — the headers that are safe on a target.
-/

namespace RaptorFec

namespace DatagramFecHeader

variable (target : Target) (X : Crates) (header : DatagramFecHeader)

/-- `compute_packet_crc32` on a target. -/
def computePacketCrc32On (payload : Bytes) : Option (Except DatagramFecError UInt32) := do
  let expectedLen ← target.add header.payloadLen.toNat header.payloadExtensionLen
  if payload.length ≠ expectedLen then
    some (.error (.payloadLengthMismatch expectedLen payload.length))
  else
    some do
      let headerWithoutCrc ← header.encodePrefix (List.replicate (headerLen - 4) 0)
      .ok (RaptorFec.packetCrc32 X headerWithoutCrc payload)

/-- `payload` on a target. -/
def payloadOn (datagram : Bytes) : Option (Except DatagramFecError Bytes) :=
  if datagram.length < headerLen then some (.error (.headerTooShort datagram.length))
  else do
    let expected ← target.add header.payloadLen.toNat header.payloadExtensionLen
    let actual := datagram.length - headerLen
    if actual ≠ expected then some (.error (.payloadLengthMismatch expected actual))
    else do
      let wirePayload ← checkedSlice datagram headerLen datagram.length
      if header.packetFlags &&& datagramFlagPacketCrc32 ≠ 0 then do
        let computed ← header.computePacketCrc32On target X wirePayload
        match computed with
        | .error error => some (.error error)
        | .ok actualCrc32 =>
            if actualCrc32 ≠ header.packetCrc32 then
              some (.error (.packetCrc32Mismatch header.packetCrc32 actualCrc32))
            else (checkedSlice wirePayload 0 header.payloadLen.toNat).map .ok
      else (checkedSlice wirePayload 0 header.payloadLen.toNat).map .ok

/-- `audio_session_id` on a target. -/
def audioSessionIdOn (datagram : Bytes) : Option (Except DatagramFecError (Option UInt64)) := do
  let payload ← header.payloadOn target X datagram
  match payload with
  | .error error => some (.error error)
  | .ok _ =>
      if header.packetFlags &&& datagramFlagAudioSessionId = 0 then some (.ok none)
      else do
        let start ← target.add headerLen header.payloadLen.toNat
        let stop ← target.add start datagramAudioSessionIdLen
        let trailer ← checkedSlice datagram start stop
        some (.ok (some (fromLeBytes trailer)))

/-- The length of what follows the header fits in a `usize`. -/
def Fits (width : PointerWidth) : Prop :=
  header.payloadLen.toNat + header.payloadExtensionLen < width.limit

/-! ## Lengths that fit -/

variable {target X header} {datagram : Bytes}

lemma computePacketCrc32On_eq (h : header.Fits target.width) (payload : Bytes) :
    header.computePacketCrc32On target X payload = some (header.computePacketCrc32 X payload) := by
  rw [computePacketCrc32On, Target.add_eq_some h, computePacketCrc32]
  simp only [Option.bind_eq_bind, Option.bind_some]
  split_ifs <;> rfl

/-- A payload is returned only from a datagram of the announced length. -/
lemma length_eq_of_payload {payload : Bytes} (h : header.payload X datagram = .ok payload) :
    datagram.length = headerLen + header.payloadLen.toNat + header.payloadExtensionLen := by
  rw [DatagramFecHeader.payload] at h
  simp only at h
  split_ifs at h with hshort hlen hcrc
  · omega
  · omega

lemma payloadOn_eq (h : header.Fits target.width) :
    header.payloadOn target X datagram = some (header.payload X datagram) := by
  rw [payloadOn, payload]
  by_cases hshort : datagram.length < headerLen
  · rw [if_pos hshort, if_pos hshort]
  rw [if_neg hshort, if_neg hshort, Target.add_eq_some h]
  simp only [Option.bind_eq_bind, Option.bind_some]
  by_cases hlen : datagram.length - headerLen ≠ header.payloadLen.toNat + header.payloadExtensionLen
  · rw [if_pos hlen, if_pos hlen]
  rw [if_neg hlen, if_neg hlen]
  rw [not_not] at hlen
  -- both slices are in bounds
  have hwire : checkedSlice datagram headerLen datagram.length = some (datagram.drop headerLen) :=
    checkedSlice_drop (Nat.not_lt.mp hshort)
  have htake : checkedSlice (datagram.drop headerLen) 0 header.payloadLen.toNat
      = some ((datagram.drop headerLen).take header.payloadLen.toNat) := by
    rw [checkedSlice_eq_some (Nat.zero_le _) (by rw [List.length_drop]; omega), slice,
      List.drop_zero, Nat.sub_zero]
  rw [hwire, Option.bind_some, htake]
  split_ifs with hflag
  · rw [computePacketCrc32On_eq h, Option.bind_some]
    cases hcrc : header.computePacketCrc32 X (datagram.drop headerLen) with
    | error error => rfl
    | ok actualCrc32 =>
        simp only [ok_bind]
        split_ifs <;> rfl
  · rfl

/-- The bounds of the trailer are computed without overflow, as the trailer is in the datagram. -/
lemma audioSessionIdOn_eq (h : header.Fits target.width)
    (hlength : datagram.length < target.width.limit) :
    header.audioSessionIdOn target X datagram = some (header.audioSessionId X datagram) := by
  rw [audioSessionIdOn, payloadOn_eq h, audioSessionId]
  simp only [Option.bind_eq_bind, Option.bind_some]
  cases hpayload : header.payload X datagram with
  | error error => rfl
  | ok payload =>
      simp only [ok_bind]
      split_ifs with hflag
      · rfl
      have hextension : header.payloadExtensionLen = datagramAudioSessionIdLen := if_pos hflag
      have hlen := length_eq_of_payload hpayload
      rw [hextension] at hlen
      rw [Target.add_eq_some (by omega), Option.bind_some, Target.add_eq_some (by omega),
        Option.bind_some, checkedSlice_eq_some (Nat.le_add_right _ _) (by omega), Option.bind_some]

/-! ## Lengths that do not fit -/

lemma payloadExtensionLen_le (header : DatagramFecHeader) : header.payloadExtensionLen ≤ 8 := by
  rw [payloadExtensionLen, datagramAudioSessionIdLen]
  split_ifs
  · rfl
  · exact Nat.zero_le _

/-- A length that wrapped around is smaller than the payload length. -/
lemma wrapped_lt {width : PointerWidth} (h : ¬ header.Fits width) :
    (header.payloadLen.toNat + header.payloadExtensionLen) % width.limit
      < header.payloadLen.toNat := by
  have hextension := header.payloadExtensionLen_le
  have hpayload : header.payloadLen.toNat < 2 ^ 32 := header.payloadLen.toNat_lt
  have hlimit := width.limit_ge
  rw [Fits, not_lt] at h
  rw [Nat.mod_eq_sub_mod h, Nat.mod_eq_of_lt (by omega)]
  omega

/-- Where overflow is checked, the length check itself panics. -/
lemma computePacketCrc32On_eq_none {width : PointerWidth} (h : ¬ header.Fits width)
    (payload : Bytes) : header.computePacketCrc32On ⟨width, true⟩ X payload = none := by
  rw [computePacketCrc32On, Target.add_eq_none_iff.mpr (Nat.not_lt.mp h)]
  rfl

/-- Where overflow is not checked, the CRC is computed or refused. -/
lemma computePacketCrc32On_wraps {width : PointerWidth} (payload : Bytes) :
    ∃ computed, header.computePacketCrc32On ⟨width, false⟩ X payload = some computed := by
  rw [computePacketCrc32On, Target.add_wraps]
  simp only [Option.bind_eq_bind, Option.bind_some]
  split_ifs
  · exact ⟨_, rfl⟩
  · exact ⟨_, rfl⟩

/-- **When `payload` slices out of bounds** where overflow is not checked: the length check wrapped,
and the datagram passes the wrapped check and the CRC. -/
theorem payloadOn_eq_none_iff {width : PointerWidth} :
    header.payloadOn ⟨width, false⟩ X datagram = none ↔
      ¬ header.Fits width ∧
      datagram.length = headerLen
        + (header.payloadLen.toNat + header.payloadExtensionLen) % width.limit ∧
      (header.packetFlags &&& datagramFlagPacketCrc32 ≠ 0 →
        header.computePacketCrc32On ⟨width, false⟩ X (datagram.drop headerLen)
          = some (.ok header.packetCrc32)) := by
  by_cases hfits : header.Fits width
  · rw [payloadOn_eq hfits]
    simp [hfits]
  rw [payloadOn, Target.add_wraps]
  simp only [Option.bind_eq_bind, Option.bind_some]
  by_cases hshort : datagram.length < headerLen
  · rw [if_pos hshort]
    simp only [reduceCtorEq, false_iff, not_and]
    omega
  rw [if_neg hshort]
  by_cases hlen : datagram.length - headerLen
      ≠ (header.payloadLen.toNat + header.payloadExtensionLen) % width.limit
  · rw [if_pos hlen]
    simp only [reduceCtorEq, false_iff, not_and]
    omega
  rw [if_neg hlen]
  rw [not_not] at hlen
  have hwire : checkedSlice datagram headerLen datagram.length = some (datagram.drop headerLen) :=
    checkedSlice_drop (Nat.not_lt.mp hshort)
  -- the wrapped sum is smaller than the payload length
  have hout : checkedSlice (datagram.drop headerLen) 0 header.payloadLen.toNat = none := by
    refine checkedSlice_eq_none ?_
    rw [List.length_drop, hlen]
    exact header.wrapped_lt hfits
  rw [hwire, Option.bind_some, hout]
  by_cases hflag : header.packetFlags &&& datagramFlagPacketCrc32 ≠ 0
  · obtain ⟨computed, hcomputed⟩ : ∃ computed,
        header.computePacketCrc32On ⟨width, false⟩ X (datagram.drop headerLen) = some computed :=
      header.computePacketCrc32On_wraps _
    have hlength : datagram.length = headerLen
        + (header.payloadLen.toNat + header.payloadExtensionLen) % width.limit := by
      omega
    rw [if_pos hflag, hcomputed, Option.bind_some]
    simp only [hfits, not_false_eq_true, hlength, Option.some.injEq, true_and]
    cases computed with
    | error error => simp [hflag]
    | ok actualCrc32 =>
        by_cases hcrc : actualCrc32 = header.packetCrc32
        · simp [hcrc]
        · simp [hcrc, hflag]
  · rw [if_neg hflag]
    simp only [Option.map_none, true_iff]
    exact ⟨hfits, by omega, fun h => absurd h hflag⟩

/-! ## Safety -/

/-- What the functions return on a datagram is returned for its exact length only. -/
structure ExactOn (target : Target) (X : Crates) (header : DatagramFecHeader) (datagram : Bytes) :
    Prop where
  payload : ∀ payload, header.payloadOn target X datagram = some (.ok payload) →
    datagram.length = headerLen + header.payloadLen.toNat + header.payloadExtensionLen
  computePacketCrc32 : ∀ crc32,
    header.computePacketCrc32On target X (datagram.drop headerLen) = some (.ok crc32) →
    datagram.length = headerLen + header.payloadLen.toNat + header.payloadExtensionLen
  audioSessionId : ∀ sessionId, header.audioSessionIdOn target X datagram = some (.ok sessionId) →
    datagram.length = headerLen + header.payloadLen.toNat + header.payloadExtensionLen

/-- None of the functions panics on a datagram. -/
structure NoPanicOn (target : Target) (X : Crates) (header : DatagramFecHeader)
    (datagram : Bytes) : Prop where
  payload : header.payloadOn target X datagram ≠ none
  computePacketCrc32 : header.computePacketCrc32On target X (datagram.drop headerLen) ≠ none
  audioSessionId : header.audioSessionIdOn target X datagram ≠ none

/-- Nothing overflows, nothing is sliced out of bounds, and what is returned is returned for the
exact length only.  Where overflow is checked, an overflow is a panic. -/
structure SafeOn (width : PointerWidth) (X : Crates) (header : DatagramFecHeader)
    (datagram : Bytes) : Prop where
  no_overflow : header.NoPanicOn ⟨width, true⟩ X datagram
  in_bounds : header.NoPanicOn ⟨width, false⟩ X datagram
  exact_length : header.ExactOn ⟨width, false⟩ X datagram

lemma noPanicOn_of_fits (h : header.Fits target.width)
    (hlength : datagram.length < target.width.limit) : header.NoPanicOn target X datagram where
  payload := by simp [payloadOn_eq h]
  computePacketCrc32 := by simp [computePacketCrc32On_eq h]
  audioSessionId := by simp [audioSessionIdOn_eq h hlength]

lemma exactOn_of_fits (h : header.Fits target.width)
    (hlength : datagram.length < target.width.limit) (hlong : headerLen ≤ datagram.length) :
    header.ExactOn target X datagram where
  payload payload hpayload := by
    rw [payloadOn_eq h] at hpayload
    exact length_eq_of_payload (Option.some.inj hpayload)
  computePacketCrc32 crc32 hcrc32 := by
    rw [computePacketCrc32On_eq h] at hcrc32
    have hwire := (eq_of_computePacketCrc32 (Option.some.inj hcrc32)).2.1
    rw [List.length_drop] at hwire
    omega
  audioSessionId sessionId hsession := by
    rw [audioSessionIdOn_eq h hlength] at hsession
    obtain ⟨payload, hpayload, -⟩ := bind_eq_ok_iff.mp (Option.some.inj hsession)
    exact length_eq_of_payload hpayload

/-- On 64-bit targets every length fits. -/
lemma fits_bits64 (header : DatagramFecHeader) : header.Fits .bits64 := by
  have hextension := header.payloadExtensionLen_le
  have hpayload : header.payloadLen.toNat < 2 ^ 32 := header.payloadLen.toNat_lt
  rw [Fits, PointerWidth.limit]
  omega

/-- On 32-bit targets the lengths fit unless the trailer is announced behind one of the eight
largest payload lengths. -/
lemma fits_bits32_iff (header : DatagramFecHeader) :
    header.Fits .bits32 ↔
      header.packetFlags &&& datagramFlagAudioSessionId = 0 ∨
        header.payloadLen.toNat < 2 ^ 32 - datagramAudioSessionIdLen := by
  have hpayload : header.payloadLen.toNat < 2 ^ 32 := header.payloadLen.toNat_lt
  rw [Fits, payloadExtensionLen, PointerWidth.limit, datagramAudioSessionIdLen]
  by_cases hflag : header.packetFlags &&& datagramFlagAudioSessionId = 0
  · rw [if_neg (not_not.mpr hflag)]
    exact iff_of_true hpayload (Or.inl hflag)
  · rw [if_pos hflag]
    simp only [hflag, false_or]
    omega

/-- **The headers that are safe on a target**: on 64-bit targets all of them; on 32-bit targets
those that do not announce a trailer behind one of the eight largest payload lengths. -/
theorem safeOn_iff (width : PointerWidth) (X : Crates) {datagram : Bytes}
    {header : DatagramFecHeader} (hdecode : decode datagram = .ok header)
    (hlength : datagram.length < width.limit) :
    header.SafeOn width X datagram ↔
      width = .bits64 ∨ header.packetFlags &&& datagramFlagAudioSessionId = 0 ∨
        header.payloadLen.toNat < 2 ^ 32 - datagramAudioSessionIdLen := by
  have hlong : headerLen ≤ datagram.length := by
    rw [decode] at hdecode
    split_ifs at hdecode with hshort
    exact Nat.not_lt.mp hshort
  have hfits : header.SafeOn width X datagram ↔ header.Fits width := by
    constructor
    · intro hsafe
      by_contra hno
      exact hsafe.no_overflow.computePacketCrc32 (computePacketCrc32On_eq_none hno _)
    · intro hfits
      exact ⟨noPanicOn_of_fits hfits hlength, noPanicOn_of_fits hfits hlength,
        exactOn_of_fits hfits hlength hlong⟩
  rw [hfits]
  cases width with
  | bits32 => simp [fits_bits32_iff]
  | bits64 => simp [fits_bits64]

/-- A datagram with four bytes behind its header, which announces a trailer behind a payload of
`2 ^ 32 - 4` bytes and no CRC. -/
def wrappingDatagram : Bytes :=
  [0x52, 0x51, 0x44, 0x32, 2, 32, 1, 2, 0, 0, 0, 0, 1, 0, 0, 0, 0, 0, 0, 0, 1, 0, 1, 0,
    0xFC, 0xFF, 0xFF, 0xFF, 0, 0, 0, 0, 0, 0, 0, 0]

/-- Its header passes the checks of `decode`, and on a 32-bit target `payload` slices out of
bounds. -/
theorem wrappingDatagram_not_safe :
    ∃ header, decode wrappingDatagram = .ok header ∧
      header.payloadOn ⟨.bits32, false⟩ repetition wrappingDatagram = none ∧
      ¬ header.SafeOn .bits32 repetition wrappingDatagram := by
  have hdecode : decode wrappingDatagram = .ok ⟨1, 2, 0, 1, 0, 1, 1, 4294967292, 0⟩ := by
    decide +kernel
  have hpayload : DatagramFecHeader.payloadOn ⟨.bits32, false⟩ repetition
      ⟨1, 2, 0, 1, 0, 1, 1, 4294967292, 0⟩ wrappingDatagram = none := by
    decide +kernel
  exact ⟨_, hdecode, hpayload, fun hsafe => hsafe.in_bounds.payload hpayload⟩

/-- The same datagram is safe where a pointer has 64 bits. -/
theorem safeOn_iff_wrapping :
    ∃ header, decode wrappingDatagram = .ok header ∧
      header.SafeOn .bits64 repetition wrappingDatagram ∧
      ¬ header.SafeOn .bits32 repetition wrappingDatagram := by
  have hdecode : decode wrappingDatagram = .ok ⟨1, 2, 0, 1, 0, 1, 1, 4294967292, 0⟩ := by
    decide +kernel
  refine ⟨_, hdecode, ?_, ?_⟩
  · exact (safeOn_iff .bits64 repetition hdecode (by decide)).mpr (Or.inl rfl)
  · rw [safeOn_iff .bits32 repetition hdecode (by decide)]
    decide

end DatagramFecHeader

end RaptorFec
