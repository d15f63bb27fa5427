import RaptorFec.Audio.Accepted
import RaptorFec.Audio.Honest

/-!
# What a relay reads from a datagram

A relay routes the datagrams of an epoch by session without decoding the block.

**The parser.**  `inspectMultichannelAudioDatagram` reads the session of a source datagram from its
shard header, and that of a repair datagram from the trailer.

**Agreement.**  `inspect_sourceDatagram` and `inspect_repairDatagram` say what it reads from the
datagrams of a transmission; `inspect_encodeEpoch` says that this is what the encoder wrote, and
that the trailer leaves the packet in front of it as the code produced it.
-/

namespace RaptorFec

/-- Routing identity of a datagram, known without recovering its block. -/
structure MultichannelAudioDatagramIdentity where
  blockId : UInt32
  packetSequence : UInt32
  sourceIndex : Option UInt16
  sessionId : Option UInt64
  deriving DecidableEq, Repr

/-- `inspect_multichannel_audio_datagram`. -/
def inspectMultichannelAudioDatagram (X : Crates) (datagram : Bytes) :
    Except MultichannelAudioFecError MultichannelAudioDatagramIdentity := do
  let fecHeader ← (DatagramFecHeader.decode datagram).mapError .fec
  let serialized ← (fecHeader.payload X datagram).mapError .fec
  if serialized.length < encodingPacketHeaderLen then
    .error (.fec (.packetTooShort datagram.length))
  else
    let packet := X.deserialize serialized
    let encodingSymbolId := packet.encodingSymbolId
    if encodingSymbolId < fecHeader.sourceSymbols.toUInt32 then do
      let sourceIndex := encodingSymbolId.toUInt16
      let shard ← decodeSymbol fecHeader.blockId packet.data fecHeader.sourceSymbols sourceIndex
        .systematic
      .ok
        { blockId := fecHeader.blockId
          packetSequence := fecHeader.packetSequence
          sourceIndex := some sourceIndex
          sessionId := some shard.header.sessionId }
    else do
      let sessionId ← (fecHeader.audioSessionId X datagram).mapError .fec
      .ok
        { blockId := fecHeader.blockId
          packetSequence := fecHeader.packetSequence
          sourceIndex := none
          sessionId := sessionId }

/-! ## The datagrams of a transmission -/

section Transmission

variable {X : Crates} {code : X.Systematic} {block : AudioBlock} {sequence : UInt32} {esi : ℕ}
  {sessionId : UInt64}

/-- Every serialized packet has the bytes of its own header. -/
lemma not_length_serialized_lt (block : SourceBlock) (esi : ℕ) :
    ¬ (X.serialize (code.packet block.object block.symbolSize esi)).length
      < encodingPacketHeaderLen := by
  rw [length_serialized]
  omega

/-- The session of a source datagram is that of its shard. -/
lemma inspect_sourceDatagram (hesi : esi < esiLimit) (hi : esi < block.sourceSymbols) :
    inspectMultichannelAudioDatagram X (block.datagram code sequence esi)
      = .ok ⟨block.id, sequence, some (UInt16.ofNat esi),
          some (block.shardHeader esi).sessionId⟩ := by
  have hdata : (code.packet block.object block.symbolSize esi).data
      = piece block.object block.symbolSize.toNat esi := block.symbol_source code hi
  have hlt : UInt32.ofNat esi < (block.header code sequence esi).sourceSymbols.toUInt32 :=
    (block.ofNat_esi_lt_iff hesi).mpr hi
  have hshard : decodeSymbol (block.header code sequence esi).blockId
      (piece block.object block.symbolSize.toNat esi) (block.header code sequence esi).sourceSymbols
      (UInt16.ofNat esi) .systematic = .ok (block.shard .systematic esi) :=
    block.decodeSymbol_piece hi _
  rw [inspectMultichannelAudioDatagram, decode_datagram, Except.mapError, ok_bind, payload_datagram,
    Except.mapError, ok_bind, if_neg (not_length_serialized_lt _ _)]
  simp only [code.deserialize_packet _ _ hesi, hdata]
  rw [Crates.Systematic.packet, if_pos hlt, toUInt16_ofNat_esi hesi, hshard]
  rfl

/-- The session of a repair datagram is in its trailer. -/
lemma inspect_repairDatagram (hesi : esi < esiLimit) (hi : ¬ esi < block.sourceSymbols) :
    inspectMultichannelAudioDatagram X (block.sessionDatagram code sequence esi sessionId)
      = .ok ⟨block.id, sequence, none, some sessionId⟩ := by
  have hlt : ¬ UInt32.ofNat esi
      < (block.sessionHeader code sequence esi sessionId).sourceSymbols.toUInt32 :=
    fun h => hi ((block.ofNat_esi_lt_iff hesi).mp h)
  rw [inspectMultichannelAudioDatagram, decode_sessionDatagram, Except.mapError, ok_bind,
    payload_sessionDatagram, Except.mapError, ok_bind, if_neg (not_length_serialized_lt _ _)]
  simp only [code.deserialize_packet _ _ hesi, audioSessionId_sessionDatagram]
  rw [Crates.Systematic.packet, if_neg hlt]
  rfl

end Transmission

/-! ## The datagrams of an epoch -/

/-- What the parser reads from a datagram is what the encoder says of it. -/
structure Identified (X : Crates) (epoch : MultichannelAudioEpoch)
    (encoded : EncodedMultichannelAudioEpoch) (packet : MultichannelAudioDatagram)
    (identity : MultichannelAudioDatagramIdentity) : Prop where
  inspected : inspectMultichannelAudioDatagram X packet.payload = .ok identity
  blockId_eq : identity.blockId = encoded.blockId
  packetSequence_eq : identity.packetSequence = packet.packetSequence
  sessionId_eq : identity.sessionId = some epoch.sessionId
  source_iff : ∀ i, identity.sourceIndex = some i ↔ packet.role = .source i
  repair_iff : identity.sourceIndex = none ↔ ∃ esi, packet.role = .repair esi

/-- A repair datagram is a datagram of the block with a trailer behind it, and both have the same
payload: a packet as the code produced it. -/
structure TrailerKeeps (X : Crates) (sessionId : UInt64) (packet : MultichannelAudioDatagram)
    (raptorq : EncodingPacket) : Prop where
  role_eq : packet.role = .repair raptorq.encodingSymbolId
  before : ∃ datagram header, DatagramFecHeader.decode datagram = .ok header ∧
    header.payload X datagram = .ok (X.serialize raptorq) ∧
    attachAudioSessionId X datagram sessionId = .ok packet.payload
  after : ∃ header, DatagramFecHeader.decode packet.payload = .ok header ∧
    header.payload X packet.payload = .ok (X.serialize raptorq)

section Epoch

variable {X : Crates} {code : X.Systematic} {encoder encoder' : MultichannelAudioFecEncoder}
  {epoch : MultichannelAudioEpoch} {encoded : EncodedMultichannelAudioEpoch}
  {T : AudioTransmission} {esi : ℕ}

/-- The datagrams of a sent epoch are identified. -/
lemma AudioTransmission.IsSent.identified (hsent : T.IsSent code encoder epoch encoded encoder')
    (hof : T.IsOf encoder.config epoch) (hesi : esi < T.emitted) :
    ∃ identity, Identified X epoch encoded (T.packet code esi) identity := by
  have hlt : esi < esiLimit := Nat.lt_of_lt_of_le hesi T.limit
  by_cases hi : esi < T.block.sourceSymbols
  · have hsession : (T.block.shardHeader esi).sessionId = epoch.sessionId := by
      obtain ⟨geometry, -, -, hheaders, -⟩ := hsent.cut
      rw [hheaders]
      rfl
    have hrole : T.role esi = .source (UInt16.ofNat esi) := if_pos hi
    refine ⟨⟨T.block.id, _, some (UInt16.ofNat esi), _⟩, ?_, hsent.blockId_eq.symm, rfl,
      congrArg some hsession, fun i => ?_, ?_⟩
    · rw [AudioTransmission.packet, AudioTransmission.datagram, if_pos hi]
      exact inspect_sourceDatagram hlt hi
    · simp [AudioTransmission.packet, hrole]
    · simp [AudioTransmission.packet, hrole]
  · have hrole : T.role esi = .repair (UInt32.ofNat esi) := if_neg hi
    refine ⟨⟨T.block.id, _, none, some T.sessionId⟩, ?_, hsent.blockId_eq.symm, rfl,
      congrArg some hof.sessionId_eq, fun i => ?_, ?_⟩
    · rw [AudioTransmission.packet, AudioTransmission.datagram, if_neg hi]
      exact inspect_repairDatagram hlt hi
    · simp [AudioTransmission.packet, hrole]
    · simp [AudioTransmission.packet, hrole]

/-- The trailer of a repair datagram. -/
lemma AudioTransmission.trailerKeeps (hi : ¬ esi < T.block.sourceSymbols) :
    TrailerKeeps X T.sessionId (T.packet code esi)
      (code.packet T.block.object T.block.symbolSize esi) := by
  have hpayload : (T.packet code esi).payload
      = T.block.sessionDatagram code (T.baseSequence + UInt32.ofNat esi) esi T.sessionId := if_neg hi
  constructor
  · exact if_neg hi
  · refine ⟨_, _, decode_datagram code T.block.toSourceBlock (T.baseSequence + UInt32.ofNat esi) esi,
      payload_datagram code _ _ _, ?_⟩
    rw [hpayload]
    exact attachAudioSessionId_datagram
  · rw [hpayload]
    exact ⟨_, decode_sessionDatagram, payload_sessionDatagram⟩

/-- **What the parser reads is what the encoder wrote.** -/
theorem inspect_encodeEpoch (code : X.Systematic)
    (h : encoder.encodeEpoch X epoch = some (.ok encoded, encoder')) :
    (∀ packet ∈ encoded.datagrams, ∃ identity, Identified X epoch encoded packet identity) ∧
    ∃ geometry object count raptorqs,
      encoder.config.geometryForGroups epoch.groups = .ok geometry ∧
      (EpochCut.mk epoch geometry).encodeObject = .ok (object, count) ∧
      X.encodedPackets object (exactOneBlockOti (UInt64.ofNat object.length) encoded.symbolSize)
        encoded.repairSymbols = some raptorqs ∧
      raptorqs.length = encoded.datagrams.length ∧
      ∀ (i : ℕ) packet raptorq, encoded.datagrams[i]? = some packet → raptorqs[i]? = some raptorq →
        packet.role.isSource = false → TrailerKeeps X epoch.sessionId packet raptorq := by
  rcases encodeEpoch_transmits code h with ⟨_, hresult, -⟩ | ⟨encoded', hresult, T, hsent, hof⟩
  · cases hresult
  obtain rfl := Except.ok.inj hresult
  obtain ⟨geometry, count, hgeometry, hobject⟩ := hof.object_eq
  constructor
  · intro packet hpacket
    rw [hsent.datagrams_eq] at hpacket
    obtain ⟨esi, hesi, rfl⟩ := List.mem_map.mp hpacket
    exact hsent.identified hof (List.mem_range.mp hesi)
  · have hrepair : encoded.repairSymbols.toNat = T.repair := by
      rw [(encodeEpoch_packets h).1, hsent.repair_eq]
    have hraptorqs : X.encodedPackets T.block.object
        (exactOneBlockOti (UInt64.ofNat T.block.object.length) encoded.symbolSize)
        encoded.repairSymbols = some ((List.range T.emitted).map
          (code.packet T.block.object T.block.symbolSize)) := by
      have hlimit := T.limit
      rw [← hrepair] at hlimit
      rw [exactOneBlockOti, hsent.symbolSize_eq, max_one_eq T.block.one.symbolSize_pos,
        AudioTransmission.emitted, ← hrepair]
      exact code.encodedPackets_eq _ _ _ T.block.one hlimit
    refine ⟨geometry, T.block.object, count, _, hgeometry, hobject, hraptorqs, ?_, ?_⟩
    · simp [hsent.datagrams_eq]
    · intro i packet raptorq hpacket hraptorq hrepairRole
      rw [hsent.datagrams_eq, List.getElem?_map] at hpacket
      rw [List.getElem?_map] at hraptorq
      obtain ⟨esi, hesi, rfl⟩ := Option.map_eq_some_iff.mp hpacket
      rw [hesi] at hraptorq
      obtain rfl := Option.some.inj hraptorq
      rw [← hof.sessionId_eq]
      refine AudioTransmission.trailerKeeps fun hi => ?_
      have hsource := (T.isSource_role esi).trans (decide_eq_true hi)
      exact Bool.false_ne_true (hrepairRole.symm.trans hsource)

/-- The four datagrams of an epoch, the last one with a trailer. -/
theorem inspect_encodeEpoch_erased :
    ∃ encoded encoder',
      erasedEncoder.encodeEpoch repetition erasedEpoch = some (.ok encoded, encoder') ∧
      ∀ packet ∈ encoded.datagrams, ∃ identity, Identified repetition erasedEpoch encoded packet
        identity := by
  obtain ⟨encoded, encoder', hencode⟩ :=
    encodeEpoch_eq_ok repetitionIdeal.toSystematic erasedEpoch_encodable
  exact ⟨encoded, encoder', hencode,
    (inspect_encodeEpoch repetitionIdeal.toSystematic hencode).1⟩

end Epoch

end RaptorFec
