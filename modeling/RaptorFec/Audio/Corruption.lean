import RaptorFec.Audio.Recovery
import RaptorFec.Crates.Crc32
import RaptorFec.Datagram.Calls

/-!
# Corrupted datagrams

The CRC of a datagram lies in the middle of the bytes it is computed over, and a decoder computes it
over a prefix that it encodes again.

* `Sealed` — the bytes 28 to 32 are the CRC of the other bytes;
* `Sealed.eq_of_differsWithin` — sealed strings that differ only within four bytes, all in front of
  the CRC, all in it or all behind it, are the same;
* `Produced.seals`, `sealed_of_opens` — what the encoders emit is sealed, and so is what a decoder
  opens with the CRC flag set;
* `corrupted_rejected` — a decoder rejects what differs so from a datagram of an encoder.
-/

namespace RaptorFec

variable {X : Crates}

/-- The bytes 28 to 32 are the CRC of the bytes in front of them and behind them. -/
def Sealed (X : Crates) (datagram : Bytes) : Prop :=
  ∃ front wire, front.length = 28 ∧ datagram = front ++ toLeBytes (packetCrc32 X front wire) ++ wire

lemma toLeBytes_injective {x y : UInt32} (h : toLeBytes x = toLeBytes y) : x = y := by
  rw [← fromLeBytes_toLeBytes x, h, fromLeBytes_toLeBytes]

/-- **Sealed strings that differ within four bytes**, which do not reach from the CRC into the rest,
are the same. -/
theorem Sealed.eq_of_differsWithin
    (hcrc : ∀ previous bytes, X.crc32Update previous bytes = referenceUpdate previous bytes)
    {datagram other : Bytes} (h : Sealed X datagram) (h' : Sealed X other) {start n : ℕ}
    (hdiffers : DiffersWithin start n datagram other) (hn : n ≤ 4)
    (hregion : start + n ≤ 28 ∨ 28 ≤ start ∧ start + n ≤ 32 ∨ 32 ≤ start) : datagram = other := by
  obtain ⟨front, wire, hfront, rfl⟩ := h
  obtain ⟨front', wire', hfront', rfl⟩ := h'
  have hlength : front.length = front'.length := hfront.trans hfront'.symm
  have hcover : ∀ part rest, packetCrc32 X part rest = referenceUpdate 0 (part ++ rest) := by
    intro part rest
    rw [packetCrc32, hcrc, hcrc, referenceUpdate_append]
  simp only [List.append_assoc, hcover] at hdiffers ⊢
  rcases hregion with hprefix | ⟨hstart, hend⟩ | hbehind
  · -- the CRC and the wire payload are the same, so the prefixes are
    obtain ⟨hwindow, hrest⟩ := hdiffers.left hlength (by omega)
    obtain ⟨hsum, rfl⟩ := List.append_inj hrest (by simp)
    have hcovered := hwindow.append [] wire
    simp only [List.nil_append, List.length_nil, Nat.zero_add] at hcovered
    have heq := eq_of_referenceUpdate_eq hcovered hn (toLeBytes_injective hsum)
    rw [List.append_cancel_right heq]
  · -- what the CRC is computed over is the same
    obtain ⟨rfl, hrest⟩ := hdiffers.right hlength (by omega)
    obtain ⟨-, rfl⟩ := hrest.left (by simp) (by simp; omega)
    rfl
  · -- the prefix and the CRC are the same, so the wire payloads are
    obtain ⟨rfl, hrest⟩ := hdiffers.right hlength (by omega)
    obtain ⟨hsum, hwindow⟩ := hrest.right (by simp) (by simp; omega)
    have hcovered := hwindow.append front []
    simp only [List.append_nil] at hcovered
    have heq := eq_of_referenceUpdate_eq hcovered hn (toLeBytes_injective hsum)
    rw [List.append_cancel_left heq]

/-! ## What is sealed -/

lemma sealed_of_crc {header : DatagramFecHeader} {wire : Bytes}
    (h : header.packetCrc32 = packetCrc32 X header.prefixBytes wire) :
    Sealed X (header.headerBytes ++ wire) :=
  ⟨header.prefixBytes, wire, rfl, by rw [DatagramFecHeader.headerBytes, h]⟩

lemma sealed_of_framed {datagram : Bytes} (h : Framed X datagram) : Sealed X datagram := by
  obtain ⟨blockId, transferLength, packetSequence, sourceSymbols, symbolSize, payload, header,
    hheader, rfl⟩ := h
  rw [DatagramFecHeader.raptorq] at hheader
  split_ifs at hheader
  obtain ⟨crc32, hcrc32, hresult⟩ := bind_eq_ok_iff.mp hheader
  obtain rfl := Except.ok.inj hresult
  exact sealed_of_crc (DatagramFecHeader.eq_of_computePacketCrc32 hcrc32).2.2

/-- The CRC is computed again when the session id is attached. -/
lemma sealed_attachAudioSessionId {datagram attached : Bytes} {sessionId : UInt64}
    (h : attachAudioSessionId X datagram sessionId = .ok attached) : Sealed X attached := by
  rw [attachAudioSessionId] at h
  obtain ⟨header, hdecode, hrest⟩ := bind_eq_ok_iff.mp h
  obtain ⟨crc32, hcrc32, hrest⟩ := bind_eq_ok_iff.mp hrest
  obtain ⟨encoded, hencoded, hresult⟩ := bind_eq_ok_iff.mp hrest
  obtain rfl := Except.ok.inj hresult
  have hlong : 32 ≤ datagram.length := by
    rw [DatagramFecHeader.decode] at hdecode
    split_ifs at hdecode with hshort
    exact Nat.not_lt.mp hshort
  have hencoded := DatagramFecHeader.eq_of_encode hencoded
  have hnone : ((datagram ++ toLeBytes sessionId).take headerLen).drop 32 = [] := by
    rw [List.drop_eq_nil_iff, List.length_take]
    exact Nat.min_le_left _ _
  rw [hnone, List.append_nil] at hencoded
  rw [hencoded, writeAt, List.take_zero, List.nil_append, Nat.zero_add,
    DatagramFecHeader.length_headerBytes]
  exact sealed_of_crc (DatagramFecHeader.eq_of_computePacketCrc32 hcrc32).2.2

lemma sealed_packetOf {encoder : MultichannelAudioFecEncoder} {sessionId : UInt64}
    {sourceCount : UInt16} {blockId : UInt32} {datagram : Bytes}
    {packet : MultichannelAudioDatagram} (hsealed : Sealed X datagram)
    (h : encoder.packetOf X sessionId sourceCount blockId datagram = .ok packet) :
    Sealed X packet.payload := by
  rw [MultichannelAudioFecEncoder.packetOf] at h
  obtain ⟨header, -, h⟩ := bind_eq_ok_iff.mp h
  obtain ⟨serialized, -, h⟩ := bind_eq_ok_iff.mp h
  simp only at h
  split at h
  · obtain ⟨attached, hattached, h⟩ := bind_eq_ok_iff.mp h
    obtain rfl := Except.ok.inj hattached
    split_ifs at h
    obtain rfl := Except.ok.inj h
    exact hsealed
  · obtain ⟨attached, hattached, h⟩ := bind_eq_ok_iff.mp h
    split_ifs at h
    obtain rfl := Except.ok.inj h
    exact sealed_attachAudioSessionId (mapError_eq_ok_iff.mp hattached)

lemma sealed_encodeEpoch {encoder encoder' : MultichannelAudioFecEncoder}
    {epoch : MultichannelAudioEpoch} {encoded : EncodedMultichannelAudioEpoch}
    (h : encoder.encodeEpoch X epoch = some (.ok encoded, encoder')) :
    ∀ packet ∈ encoded.datagrams, Sealed X packet.payload := by
  obtain ⟨geometry, state, datagrams, fec', pool', packets, -, -, hblock, hloop, rfl⟩ :=
    MultichannelAudioFecEncoder.encodeEpoch_eq_ok_some h
  have hframed := framed_encodeBlockWithRepairSymbols hblock
  intro packet hmem
  obtain ⟨datagram, hdatagram, hpacket⟩ := exists_of_mapM_eq_ok hloop packet
    (MultichannelAudioFecEncoder.mem_datagrams_encodedOf hmem)
  exact sealed_packetOf (sealed_of_framed (hframed datagram hdatagram)) hpacket

/-- The datagrams of the two encoders. -/
inductive Produced (X : Crates) : Bytes → Prop where
  | fec {call : EncoderCall} {encoder encoder' : DatagramFecEncoder} {data datagram : Bytes}
      {pool pool' : Option DatagramBufferPool} {datagrams : List Bytes}
      (hcall : call.run X encoder data pool = some (.ok datagrams, encoder', pool'))
      (hmem : datagram ∈ datagrams) : Produced X datagram
  | audio {encoder encoder' : MultichannelAudioFecEncoder} {epoch : MultichannelAudioEpoch}
      {encoded : EncodedMultichannelAudioEpoch} {packet : MultichannelAudioDatagram}
      (hcall : encoder.encodeEpoch X epoch = some (.ok encoded, encoder'))
      (hmem : packet ∈ encoded.datagrams) : Produced X packet.payload

/-- What the encoders emit is sealed. -/
lemma Produced.seals {datagram : Bytes} (h : Produced X datagram) : Sealed X datagram := by
  cases h with
  | fec hcall hmem => exact sealed_of_framed (framed_run hcall _ hmem)
  | audio hcall hmem => exact sealed_encodeEpoch hcall _ hmem

/-- What a decoder opens with the CRC flag set is sealed. -/
lemma sealed_of_opens {datagram : Bytes} {header : DatagramFecHeader} {packet : EncodingPacket}
    (h : Opens X datagram header packet)
    (hflag : byteAt datagram 7 &&& datagramFlagPacketCrc32 ≠ 0) : Sealed X datagram := by
  obtain ⟨hvalid, htake⟩ := DatagramFecHeader.decode_eq_ok_iff.mp h.decode
  have hflags : header.packetFlags = byteAt datagram 7 := by
    rw [← List.take_append_drop 32 datagram, htake]
    rfl
  obtain ⟨payload, hpayload, -, -⟩ := h.payload
  rw [DatagramFecHeader.payload] at hpayload
  simp only [hflags, if_pos hflag] at hpayload
  split_ifs at hpayload
  obtain ⟨crc32, hcrc32, hrest⟩ := bind_eq_ok_iff.mp hpayload
  split_ifs at hrest with hne
  rw [not_not] at hne
  have hsum := (DatagramFecHeader.eq_of_computePacketCrc32 hcrc32).2.2
  rw [← List.take_append_drop 32 datagram, htake]
  exact sealed_of_crc (hne.symm.trans hsum)

namespace DatagramFecDecoder

/-- **Corrupted datagrams are rejected.**  Let `other` differ from a datagram of an encoder, only
within at most four consecutive bytes that lie in front of the CRC, in the CRC or behind it, and
keep the CRC flag set.  Every decoder rejects it and does not change. -/
theorem corrupted_rejected
    (hcrc : ∀ previous bytes, X.crc32Update previous bytes = referenceUpdate previous bytes)
    {datagram other : Bytes} (hproduced : Produced X datagram) {start n : ℕ}
    (hdiffers : DiffersWithin start n datagram other) (hn : n ≤ 4)
    (hregion : start + n ≤ 28 ∨ 28 ≤ start ∧ start + n ≤ 32 ∨ 32 ≤ start)
    (hne : other ≠ datagram) (hflag : byteAt other 7 &&& datagramFlagPacketCrc32 ≠ 0)
    (decoder : DatagramFecDecoder X) :
    ∃ error, decoder.pushDatagram other = (.error error, decoder) := by
  rcases rejected_or_opens X other with ⟨header, packet, hopens⟩ | ⟨error, hreject⟩
  · have hsealed := sealed_of_opens hopens hflag
    exact absurd (hproduced.seals.eq_of_differsWithin hcrc hsealed hdiffers hn hregion).symm hne
  · exact ⟨error, hreject decoder⟩

open MultichannelAudioFecDecoder (sampleEpoch sampleEncoder) in
/-- One byte of the last repair datagram of an epoch is corrupted. -/
theorem corrupted_rejected_repair :
    ∃ encoded encoder packet,
      sampleEncoder.encodeEpoch repetition sampleEpoch = some (.ok encoded, encoder) ∧
      encoded.datagrams.getLast? = some packet ∧ packet.role.isSource = false ∧
      ∃ error, (new : DatagramFecDecoder repetition).pushDatagram
        (packet.payload.set 60 (byteAt packet.payload 60 ^^^ 1)) = (.error error, new) := by
  have hchecks : ((sampleEncoder.encodeEpoch repetition sampleEpoch).bind fun result =>
      result.1.toOption.bind fun encoded =>
        encoded.datagrams.getLast?.map fun packet =>
          (packet.role.isSource,
            decide (packet.payload.set 60 (byteAt packet.payload 60 ^^^ 1) ≠ packet.payload ∧
              byteAt (packet.payload.set 60 (byteAt packet.payload 60 ^^^ 1)) 7
                &&& datagramFlagPacketCrc32 ≠ 0))) = some (false, true) := by
    decide +kernel
  obtain ⟨⟨output, encoder⟩, hcall, hoption⟩ := Option.bind_eq_some_iff.mp hchecks
  cases output with
  | error error => cases hoption
  | ok encoded =>
      obtain ⟨packet, hlast, hpacket⟩ := Option.map_eq_some_iff.mp hoption
      obtain ⟨hrole, hdecide⟩ := Prod.mk.inj hpacket
      obtain ⟨hne, hflag⟩ := of_decide_eq_true hdecide
      exact ⟨encoded, encoder, packet, hcall, hlast, hrole,
        corrupted_rejected crc32Reference_eq (.audio hcall (List.mem_of_getLast? hlast))
          (differsWithin_set _ _ _) (by decide) (by decide) hne hflag new⟩

end DatagramFecDecoder

end RaptorFec
