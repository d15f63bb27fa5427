import RaptorFec.Audio.Encoder

/-!
# What the audio encoder sends

* `AudioBlock` — a source block whose symbols are audio shards;
* `SourceBlock.sessionDatagram` — the datagram of a symbol with the session id as a trailer, which
  carries the same symbol (`carries_sessionDatagram`);
* `AudioTransmission` — an audio block with what it is sent under;
* `encodeEpoch_ok` — an accepted epoch is sent as the datagrams of a transmission, source symbols
  first, numbered on from the packet sequence of the encoder.
-/

namespace RaptorFec

/-! ## Audio blocks -/

/-- A source block whose symbols are audio shards. -/
structure AudioBlock extends SourceBlock where
  shardHeader : ℕ → MultichannelAudioShardHeader
  shardPayload : ℕ → Bytes
  length_object : object.length = toSourceBlock.sourceSymbols * symbolSize.toNat
  decode_piece : ∀ i < toSourceBlock.sourceSymbols,
    MultichannelAudioShardHeader.decode (piece object symbolSize.toNat i) = .ok (shardHeader i)
  payload_piece : ∀ i < toSourceBlock.sourceSymbols,
    (shardHeader i).payload (piece object symbolSize.toNat i) = .ok (shardPayload i)
  sourceIndex_eq : ∀ i < toSourceBlock.sourceSymbols, (shardHeader i).sourceIndex = UInt16.ofNat i
  sourceCount_eq : ∀ i < toSourceBlock.sourceSymbols,
    (shardHeader i).sourceCount = UInt16.ofNat toSourceBlock.sourceSymbols

namespace AudioBlock

variable (block : AudioBlock)

lemma length_piece {i : ℕ} (hi : i < block.sourceSymbols) :
    (piece block.object block.symbolSize.toNat i).length = block.symbolSize.toNat := by
  have hle : (i + 1) * block.symbolSize.toNat ≤ block.sourceSymbols * block.symbolSize.toNat :=
    Nat.mul_le_mul_right _ hi
  rw [Nat.add_mul, Nat.one_mul] at hle
  rw [RaptorFec.length_piece, block.length_object]
  omega

/-- The source symbols of the block are its pieces. -/
lemma symbol_source {X : Crates} (code : X.Systematic) {i : ℕ} (hi : i < block.sourceSymbols) :
    code.symbol block.object block.symbolSize i
      = piece block.object block.symbolSize.toNat i := by
  rw [code.symbol_source _ _ _ block.one hi, padTo, block.length_piece hi, Nat.sub_self,
    List.replicate_zero, List.append_nil]

end AudioBlock

namespace EpochCut

variable {cut : EpochCut} {config : MultichannelAudioFecConfig}

/-- The object of a cut has as many symbols as it has fragments. -/
lemma symbolsFor_object (fits : cut.geometry.Fits config cut.epoch.groups) :
    symbolsFor cut.object.length cut.geometry.symbolSize = cut.count := by
  have hpos : 0 < cut.size := by
    have := size_eq fits
    omega
  have hdiv := smul_ceilDiv hpos cut.count
  rw [smul_eq_mul, Nat.mul_comm] at hdiv
  rw [object, length_symbols fits, symbolsFor]
  exact hdiv

lemma piece_object (fits : cut.geometry.Fits config cut.epoch.groups) {i : ℕ}
    (hi : i < cut.count) : piece cut.object cut.size i = cut.symbolAt i := by
  have hi' : i < ((List.range cut.count).map cut.symbolAt).length := by simpa using hi
  rw [object, piece_flatten _ hi', List.getElem_map, List.getElem_range]
  intro symbol hsymbol
  obtain ⟨j, -, rfl⟩ := List.mem_map.mp hsymbol
  exact length_symbolAt fits j

/-- A symbol starts with its header and its fragment. -/
lemma piece_object_eq (fits : cut.geometry.Fits config cut.epoch.groups) {i : ℕ}
    (hi : i < cut.count) : ∃ zeros : Bytes,
      piece cut.object cut.size i = (cut.headerAt i).headerBytes ++ (cut.payloadAt i ++ zeros) ∧
      cut.size = 72 + (cut.payloadAt i ++ zeros).length := by
  have hsymbol : cut.symbolAt i = (cut.headerAt i).headerBytes ++ (cut.payloadAt i
      ++ List.replicate (cut.size - ((cut.headerAt i).headerBytes
        ++ cut.payloadAt i).length) 0) := by
    rw [symbolAt, padTo, List.append_assoc]
  have hlen := congrArg List.length hsymbol
  rw [length_symbolAt fits, List.length_append,
    MultichannelAudioShardHeader.length_headerBytes] at hlen
  exact ⟨_, (piece_object fits hi).trans hsymbol, hlen⟩

lemma length_object (fits : cut.geometry.Fits config cut.epoch.groups) :
    cut.object.length = cut.geometry.sourceSymbols.toNat * cut.geometry.symbolSize.toNat := by
  rw [object, length_symbols fits, count_eq fits]
  rfl

lemma symbolSize_pos (fits : cut.geometry.Fits config cut.epoch.groups) :
    0 < cut.geometry.symbolSize.toNat := by
  rw [fits.symbolSize_eq, multichannelAudioShardHeaderLen]
  omega

lemma object_ne_nil (fits : cut.geometry.Fits config cut.epoch.groups) : cut.object ≠ [] := by
  have hpos := Nat.mul_pos fits.sourceSymbols_pos (symbolSize_pos fits)
  rw [← length_object fits] at hpos
  exact List.ne_nil_of_length_pos hpos

/-- The block the object of a cut is sent in. -/
def block (cut : EpochCut) (id : UInt32) (one : OneBlock cut.object cut.geometry.symbolSize)
    (fits : cut.geometry.Fits config cut.epoch.groups)
    (hvalid : ∀ i < cut.count, (cut.headerAt i).Valid cut.size) : AudioBlock where
  id := id
  object := cut.object
  symbolSize := cut.geometry.symbolSize
  one := one
  shardHeader := cut.headerAt
  shardPayload := cut.payloadAt
  length_object := by
    rw [SourceBlock.sourceSymbols, symbolsFor_object fits, object, length_symbols fits]
    rfl
  decode_piece i hi := by
    rw [SourceBlock.sourceSymbols, symbolsFor_object fits] at hi
    obtain ⟨zeros, hpiece, hlen⟩ := piece_object_eq fits hi
    exact (congrArg MultichannelAudioShardHeader.decode hpiece).trans
      (MultichannelAudioShardHeader.decode_headerBytes (hlen ▸ hvalid i hi))
  payload_piece i hi := by
    rw [SourceBlock.sourceSymbols, symbolsFor_object fits] at hi
    obtain ⟨zeros, hpiece, hlen⟩ := piece_object_eq fits hi
    exact (congrArg (cut.headerAt i).payload hpiece).trans
      (MultichannelAudioShardHeader.payload_headerBytes (hlen ▸ hvalid i hi)
        (toNat_payloadLen fits i).symm)
  sourceIndex_eq i hi := rfl
  sourceCount_eq i hi := by
    rw [SourceBlock.sourceSymbols, symbolsFor_object fits, count_eq fits, UInt16.ofNat_toNat]
    rfl

end EpochCut

/-! ## Session trailers -/

section Session

variable {X : Crates} (code : X.Systematic) (block : SourceBlock)

/-- The header of a datagram with the session id as a trailer. -/
def SourceBlock.sessionHeader (sequence : UInt32) (esi : ℕ) (sessionId : UInt64) :
    DatagramFecHeader :=
  let header := { block.header code sequence esi with
    packetFlags := datagramFlagPacketCrc32 ||| datagramFlagAudioSessionId }
  { header with
    packetCrc32 := packetCrc32 X header.prefixBytes
      (X.serialize (code.packet block.object block.symbolSize esi) ++ toLeBytes sessionId) }

/-- The datagram of one symbol with the session id as a trailer. -/
def SourceBlock.sessionDatagram (sequence : UInt32) (esi : ℕ) (sessionId : UInt64) : Bytes :=
  (block.sessionHeader code sequence esi sessionId).headerBytes
    ++ (X.serialize (code.packet block.object block.symbolSize esi) ++ toLeBytes sessionId)

variable {code block} {sequence : UInt32} {esi : ℕ} {sessionId : UInt64}

lemma sessionFlags_supported : (datagramFlagPacketCrc32 ||| datagramFlagAudioSessionId)
    &&& ~~~ supportedPacketFlags = 0 := by
  decide

lemma sessionFlags_session : (datagramFlagPacketCrc32 ||| datagramFlagAudioSessionId)
    &&& datagramFlagAudioSessionId ≠ 0 := by
  decide

lemma sessionHeader_valid : (block.sessionHeader code sequence esi sessionId).Valid :=
  ⟨rfl, sessionFlags_supported, block.geometry⟩

lemma sessionHeader_extension :
    (block.sessionHeader code sequence esi sessionId).payloadExtensionLen = 8 :=
  if_pos sessionFlags_session

lemma toNat_serializedLen :
    (block.sessionHeader code sequence esi sessionId).payloadLen.toNat
      = (X.serialize (code.packet block.object block.symbolSize esi)).length :=
  DatagramFecHeader.toNat_payloadLen (length_serialized_le code block esi)

lemma decode_sessionDatagram : DatagramFecHeader.decode (block.sessionDatagram code sequence esi
    sessionId) = .ok (block.sessionHeader code sequence esi sessionId) :=
  DatagramFecHeader.decode_headerBytes sessionHeader_valid _

lemma payload_sessionDatagram : (block.sessionHeader code sequence esi sessionId).payload X
    (block.sessionDatagram code sequence esi sessionId)
      = .ok (X.serialize (code.packet block.object block.symbolSize esi)) :=
  DatagramFecHeader.payload_append sessionHeader_valid toNat_serializedLen.symm
    (by rw [sessionHeader_extension, length_toLeBytes_u64]) rfl

/-- The trailer is read back. -/
lemma audioSessionId_sessionDatagram :
    (block.sessionHeader code sequence esi sessionId).audioSessionId X
      (block.sessionDatagram code sequence esi sessionId) = .ok (some sessionId) := by
  have hhead : (block.sessionHeader code sequence esi sessionId).headerBytes.length = headerLen :=
    DatagramFecHeader.length_headerBytes
  have hslice : slice (block.sessionDatagram code sequence esi sessionId)
      (headerLen + (X.serialize (code.packet block.object block.symbolSize esi)).length)
      (headerLen + (X.serialize (code.packet block.object block.symbolSize esi)).length
        + datagramAudioSessionIdLen) = toLeBytes sessionId := by
    have hlen : (toLeBytes sessionId).length = datagramAudioSessionIdLen := length_toLeBytes_u64 _
    rw [SourceBlock.sessionDatagram, slice_append_right (by omega), slice_append_right (by omega),
      hhead, Nat.add_sub_cancel_left, Nat.add_assoc headerLen, Nat.add_sub_cancel_left,
      Nat.sub_self, Nat.add_sub_cancel_left, ← hlen, slice_zero_length]
  have hflags : ¬ (block.sessionHeader code sequence esi sessionId).packetFlags
      &&& datagramFlagAudioSessionId = 0 := sessionFlags_session
  rw [DatagramFecHeader.audioSessionId, payload_sessionDatagram, ok_bind, if_neg hflags]
  simp only [toNat_serializedLen, hslice, fromLeBytes_toLeBytes]

/-- **The trailer changes nothing but the length**: the datagram still carries its symbol. -/
theorem carries_sessionDatagram (hesi : esi < esiLimit) :
    Carries code block sequence esi (block.sessionDatagram code sequence esi sessionId) where
  esi_lt := hesi
  found := ⟨block.sessionHeader code sequence esi sessionId, decode_sessionDatagram,
    payload_sessionDatagram, ⟨rfl, rfl, rfl, rfl⟩, rfl⟩

/-- The trailer has eight bytes. -/
lemma length_sessionDatagram : (block.sessionDatagram code sequence esi sessionId).length
    = datagramSizeForSymbolSize block.symbolSize + datagramAudioSessionIdLen := by
  rw [SourceBlock.sessionDatagram, List.length_append, DatagramFecHeader.length_headerBytes,
    List.length_append, length_serialized, length_toLeBytes_u64, datagramSizeForSymbolSize,
    headerLen, datagramAudioSessionIdLen]
  omega

/-- What `attach_audio_session_id` makes of a datagram. -/
lemma attachAudioSessionId_datagram :
    attachAudioSessionId X (block.datagram code sequence esi) sessionId
      = .ok (block.sessionDatagram code sequence esi sessionId) := by
  have hdecode := decode_datagram code block sequence esi
  have hdrop : (block.datagram code sequence esi ++ toLeBytes sessionId).drop headerLen
      = X.serialize (code.packet block.object block.symbolSize esi) ++ toLeBytes sessionId := by
    rw [SourceBlock.datagram, List.append_assoc]
    exact List.drop_left' DatagramFecHeader.length_headerBytes
  have htake : (block.datagram code sequence esi ++ toLeBytes sessionId).take headerLen
      = (block.header code sequence esi).headerBytes := by
    rw [SourceBlock.datagram, List.append_assoc]
    exact List.take_left' DatagramFecHeader.length_headerBytes
  have hvalid : ({ block.header code sequence esi with
      packetFlags := datagramFlagPacketCrc32 ||| datagramFlagAudioSessionId }
        : DatagramFecHeader).Valid := ⟨rfl, sessionFlags_supported, block.geometry⟩
  have hlen : (X.serialize (code.packet block.object block.symbolSize esi)
        ++ toLeBytes sessionId).length
      = (block.sessionHeader code sequence esi sessionId).payloadLen.toNat
        + (block.sessionHeader code sequence esi sessionId).payloadExtensionLen := by
    rw [List.length_append, length_toLeBytes_u64, toNat_serializedLen, sessionHeader_extension]
  have hcrc := DatagramFecHeader.computePacketCrc32_eq (X := X) _ hvalid hlen
  have hencode : (block.sessionHeader code sequence esi sessionId).encode
      (block.header code sequence esi).headerBytes = .ok _ :=
    DatagramFecHeader.encode_eq sessionHeader_valid (by simp)
  rw [attachAudioSessionId, hdecode, ok_bind]
  simp only [hdrop, htake]
  change ((DatagramFecHeader.computePacketCrc32 X { block.header code sequence esi with
    packetFlags := datagramFlagPacketCrc32 ||| datagramFlagAudioSessionId } _) >>= _) = _
  rw [hcrc, ok_bind]
  change ((block.sessionHeader code sequence esi sessionId).encode _ >>= _) = _
  rw [hencode, ok_bind, SourceBlock.datagram, List.append_assoc, SourceBlock.sessionDatagram]
  rfl

end Session

/-! ## Transmissions of an epoch -/

/-- An audio block with what it is sent under: the session id, the packet sequence number of its
first datagram, and the number of repair symbols. -/
structure AudioTransmission where
  block : AudioBlock
  sessionId : UInt64
  baseSequence : UInt32
  repair : ℕ
  limit : block.sourceSymbols + repair ≤ esiLimit

namespace AudioTransmission

variable {X : Crates} (code : X.Systematic) (T : AudioTransmission)

/-- The number of datagrams. -/
def emitted : ℕ := T.block.sourceSymbols + T.repair

/-- The bytes of the datagram of one symbol. -/
def datagram (esi : ℕ) : Bytes :=
  if esi < T.block.sourceSymbols then
    T.block.datagram code (T.baseSequence + UInt32.ofNat esi) esi
  else T.block.sessionDatagram code (T.baseSequence + UInt32.ofNat esi) esi T.sessionId

/-- The role of the datagram of one symbol. -/
def role (esi : ℕ) : MultichannelAudioDatagramRole :=
  if esi < T.block.sourceSymbols then .source (UInt16.ofNat esi) else .repair (UInt32.ofNat esi)

/-- The datagram of one symbol with its description. -/
def packet (esi : ℕ) : MultichannelAudioDatagram :=
  ⟨T.block.id, T.baseSequence + UInt32.ofNat esi, T.role esi, T.datagram code esi⟩

variable {code T}

/-- Each datagram carries its symbol. -/
theorem carries {esi : ℕ} (hesi : esi < T.emitted) :
    Carries code T.block.toSourceBlock (T.baseSequence + UInt32.ofNat esi) esi
      (T.datagram code esi) := by
  have hlt : esi < esiLimit := Nat.lt_of_lt_of_le hesi T.limit
  rw [datagram]
  split_ifs
  · exact carries_datagram code _ _ hlt
  · exact carries_sessionDatagram hlt

lemma isSource_role (esi : ℕ) : (T.role esi).isSource = decide (esi < T.block.sourceSymbols) := by
  rw [role]
  split_ifs with h
  · exact (decide_eq_true h).symm
  · exact (decide_eq_false h).symm

variable (code T)

/-- The datagrams of the source symbols. -/
def sourcePackets : List MultichannelAudioDatagram :=
  (List.range T.block.sourceSymbols).map (T.packet code)

/-- The datagrams of the repair symbols. -/
def repairPackets : List MultichannelAudioDatagram :=
  (List.range T.repair).map fun i => T.packet code (T.block.sourceSymbols + i)

/-- Source datagrams come first. -/
lemma packets_eq : (List.range T.emitted).map (T.packet code)
    = T.sourcePackets code ++ T.repairPackets code := by
  rw [emitted, List.range_add, List.map_append, List.map_map]
  rfl

variable {code} {packet : MultichannelAudioDatagram}

lemma isSource_sourcePackets (h : packet ∈ T.sourcePackets code) :
    packet.role.isSource = true := by
  obtain ⟨esi, hesi, rfl⟩ := List.mem_map.mp h
  exact (T.isSource_role esi).trans (decide_eq_true (List.mem_range.mp hesi))

lemma isSource_repairPackets (h : packet ∈ T.repairPackets code) :
    packet.role.isSource = false := by
  obtain ⟨i, -, rfl⟩ := List.mem_map.mp h
  exact (T.isSource_role _).trans (decide_eq_false (Nat.not_lt.mpr (Nat.le_add_right _ _)))

end AudioTransmission

/-- What an encoder sent for an epoch. -/
structure AudioTransmission.IsSent {X : Crates} (code : X.Systematic) (T : AudioTransmission)
    (encoder : MultichannelAudioFecEncoder) (epoch : MultichannelAudioEpoch)
    (encoded : EncodedMultichannelAudioEpoch) (encoder' : MultichannelAudioFecEncoder) : Prop where
  cut : ∃ geometry, encoder.config.geometryForGroups epoch.groups = .ok geometry ∧
    T.block.sourceSymbols = (EpochCut.mk epoch geometry).count ∧
    T.block.shardHeader = (EpochCut.mk epoch geometry).headerAt ∧
    T.block.shardPayload = (EpochCut.mk epoch geometry).payloadAt
  id_eq : T.block.id = encoder.fec.blockId
  baseSequence_eq : T.baseSequence = encoder.fec.packetSequence
  repair_eq : T.repair = encoder.config.repairSymbols.toNat
  blockId_eq : encoded.blockId = T.block.id
  sourceSymbols_eq : encoded.sourceSymbols.toNat = T.block.sourceSymbols
  symbolSize_eq : encoded.symbolSize = T.block.symbolSize
  datagrams_eq : encoded.datagrams = (List.range T.emitted).map (T.packet code)
  config_eq : encoder'.config = encoder.config
  nextId_eq : encoder'.fec.blockId = encoder.fec.blockId + 1
  nextSequence_eq : encoder'.fec.packetSequence
    = encoder.fec.packetSequence + UInt32.ofNat T.emitted

/-- The transmission is made of the object that is written for an epoch. -/
structure AudioTransmission.IsOf (T : AudioTransmission) (config : MultichannelAudioFecConfig)
    (epoch : MultichannelAudioEpoch) : Prop where
  sessionId_eq : T.sessionId = epoch.sessionId
  object_eq : ∃ geometry count, config.geometryForGroups epoch.groups = .ok geometry ∧
    (EpochCut.mk epoch geometry).encodeObject = .ok (T.block.object, count)

section Encode

variable {X : Crates} {code : X.Systematic} {encoder encoder' : MultichannelAudioFecEncoder}

/-- The description the loop over the datagrams makes of a datagram within the budget. -/
lemma packetOf_datagram {T : AudioTransmission} {esi : ℕ} (hesi : esi < T.emitted)
    (hbudget : encoder.config.transportOverhead + headerLen + encodingPacketHeaderLen
      + datagramAudioSessionIdLen + T.block.symbolSize.toNat ≤ encoder.config.maxDatagramSize) :
    encoder.packetOf X T.sessionId (UInt16.ofNat T.block.sourceSymbols) T.block.id
      (T.block.datagram code (T.baseSequence + UInt32.ofNat esi) esi)
        = .ok (T.packet code esi) := by
  have hlt : esi < esiLimit := Nat.lt_of_lt_of_le hesi T.limit
  have hdecode := decode_datagram code T.block.toSourceBlock (T.baseSequence + UInt32.ofNat esi) esi
  have hpayload := payload_datagram code T.block.toSourceBlock (T.baseSequence + UInt32.ofNat esi) esi
  have hback := code.deserialize_packet T.block.object T.block.symbolSize hlt
  have hlt_iff := T.block.ofNat_esi_lt_iff hlt
  have hid : (code.packet T.block.object T.block.symbolSize esi).encodingSymbolId
      = UInt32.ofNat esi := rfl
  rw [MultichannelAudioFecEncoder.packetOf, hdecode, Except.mapError, ok_bind, hpayload,
    Except.mapError, ok_bind]
  by_cases hi : esi < T.block.sourceSymbols
  · have hindex := toUInt16_ofNat_esi hlt
    have hsmall : ¬ encoder.config.maxDatagramSize
        < (T.block.datagram code (T.baseSequence + UInt32.ofNat esi) esi).length
          + encoder.config.transportOverhead := by
      rw [length_datagram, datagramSizeForSymbolSize]
      omega
    simp only [hback, hid, if_pos (hlt_iff.mpr hi), MultichannelAudioDatagramRole.isSource,
      if_true, ok_bind, if_neg hsmall]
    rw [AudioTransmission.packet, AudioTransmission.role, AudioTransmission.datagram, if_pos hi,
      if_pos hi, hindex]
    rfl
  · have hsmall : ¬ encoder.config.maxDatagramSize
        < (T.block.sessionDatagram code (T.baseSequence + UInt32.ofNat esi) esi
          T.sessionId).length + encoder.config.transportOverhead := by
      rw [length_sessionDatagram, datagramSizeForSymbolSize]
      omega
    simp only [hback, hid, if_neg (fun hc => hi (hlt_iff.mp hc)),
      MultichannelAudioDatagramRole.isSource, attachAudioSessionId_datagram, Except.mapError,
      ok_bind, Bool.false_eq_true, if_false, if_neg hsmall]
    rw [AudioTransmission.packet, AudioTransmission.role, AudioTransmission.datagram, if_neg hi,
      if_neg hi]
    rfl

/-- The loop over the datagrams of a transmission. -/
lemma mapM_packetOf {T : AudioTransmission} {sourceSymbols : UInt16}
    (hsource : T.block.sourceSymbols = sourceSymbols.toNat)
    (hbudget : encoder.config.transportOverhead + headerLen + encodingPacketHeaderLen
      + datagramAudioSessionIdLen + T.block.symbolSize.toNat ≤ encoder.config.maxDatagramSize) :
    ((List.range T.emitted).map fun esi =>
      T.block.datagram code (T.baseSequence + UInt32.ofNat esi) esi).mapM
        (encoder.packetOf X T.sessionId sourceSymbols T.block.id)
      = .ok ((List.range T.emitted).map (T.packet code)) := by
  have hcount : UInt16.ofNat T.block.sourceSymbols = sourceSymbols := by
    rw [hsource, UInt16.ofNat_toNat]
  rw [← hcount]
  exact mapM_eq_ok_map fun esi hesi => packetOf_datagram (List.mem_range.mp hesi) hbudget

variable (code) in
/-- The object of an epoch, sent by an encoder that is set to its symbol size. -/
lemma encodeBlock_sent {fec fec' : DatagramFecEncoder} {object : Bytes} {symbolSize : UInt16}
    {repairSymbols : UInt32} {datagrams : List Bytes} {pool' : Option DatagramBufferPool}
    (hsymbol : fec.config.symbolSize = symbolSize) (hobject : object ≠ [])
    (hsize : 0 < symbolSize.toNat)
    (h : fec.encodeBlockWithRepairSymbols X object repairSymbols none
      = some (.ok datagrams, fec', pool')) :
    ∃ one : OneBlock object symbolSize,
      symbolsFor object.length symbolSize + repairSymbols.toNat ≤ esiLimit ∧
      datagrams = ((List.range (symbolsFor object.length symbolSize + repairSymbols.toNat)).map
        fun esi => (⟨fec.blockId, object, symbolSize, one⟩ : SourceBlock).datagram code
          (fec.packetSequence + UInt32.ofNat esi) esi) ∧
      fec' = { fec with
        packetSequence := fec.packetSequence
          + UInt32.ofNat (symbolsFor object.length symbolSize + repairSymbols.toNat)
        blockId := fec.blockId + 1 } := by
  subst hsymbol
  exact encodeBlockWithRepairSymbols_ok code hobject hsize h

/-- The order the datagrams are returned in is the order they were emitted in. -/
lemma sort_packets {T : AudioTransmission} (hsource : T.block.sourceSymbols < 2 ^ 16) :
    sortByKey (fun packet => packet.role.sortKey)
        (((List.range T.emitted).map (T.packet code)).filter fun packet => packet.role.isSource)
      ++ ((List.range T.emitted).map (T.packet code)).filter
        (fun packet => ¬ packet.role.isSource)
      = (List.range T.emitted).map (T.packet code) := by
  have hsorted : sortByKey (fun packet => packet.role.sortKey) (T.sourcePackets code)
      = T.sourcePackets code := by
    refine List.Pairwise.insertionSort_eq (List.pairwise_map.mpr ?_)
    refine List.pairwise_lt_range.imp_of_mem fun {a b} ha hb hlt => ?_
    have hkey : ∀ esi < T.block.sourceSymbols, (T.packet code esi).role.sortKey = esi := by
      intro esi hesi
      change (T.role esi).sortKey = esi
      rw [AudioTransmission.role, if_pos hesi]
      exact UInt16.toNat_ofNat_of_lt' (Nat.lt_trans hesi hsource)
    change (T.packet code a).role.sortKey ≤ (T.packet code b).role.sortKey
    rw [hkey a (List.mem_range.mp ha), hkey b (List.mem_range.mp hb)]
    exact Nat.le_of_lt hlt
  rw [T.packets_eq, List.filter_append, List.filter_append,
    List.filter_eq_self.mpr (fun packet hp => T.isSource_sourcePackets hp),
    List.filter_eq_nil_iff.mpr (fun packet hp => by
      rw [T.isSource_repairPackets hp]
      exact Bool.false_ne_true),
    List.filter_eq_nil_iff.mpr (fun packet hp => by
      rw [T.isSource_sourcePackets hp]
      simp),
    List.filter_eq_self.mpr (fun packet hp => by
      rw [T.isSource_repairPackets hp]
      simp), List.append_nil, List.nil_append, hsorted]

/-- A call of `encode_epoch` with the object that it sends. -/
theorem encodeEpoch_transmits (code : X.Systematic) {epoch : MultichannelAudioEpoch}
    {result : Except MultichannelAudioFecError EncodedMultichannelAudioEpoch}
    (h : encoder.encodeEpoch X epoch = some (result, encoder')) :
    (∃ error, result = .error error ∧ encoder'.config = encoder.config ∧
      encoder'.fec.blockId = encoder.fec.blockId ∧
      encoder'.fec.packetSequence = encoder.fec.packetSequence) ∨
    ∃ encoded, result = .ok encoded ∧
      ∃ T : AudioTransmission, T.IsSent code encoder epoch encoded encoder' ∧
        T.IsOf encoder.config epoch := by
  rcases MultichannelAudioFecEncoder.encodeEpoch_eq_some h with ⟨error, hresult, rfl⟩ |
    ⟨geometry, state, sent, fec', pool', hgeometry, hobject, hblock, rfl, hresult⟩
  · exact Or.inl ⟨error, hresult, rfl, rfl, rfl⟩
  have fits : (EpochCut.mk epoch geometry).geometry.Fits encoder.config
      (EpochCut.mk epoch geometry).epoch.groups :=
    MultichannelAudioFecConfig.geometryForGroups_fits hgeometry
  obtain ⟨hwritten, hvalid⟩ := EpochCut.encodeObject_ok fits hobject
  obtain ⟨object, count⟩ := state
  obtain rfl : object = (EpochCut.mk epoch geometry).object := hwritten
  have hcount := EpochCut.count_eq fits
  have hsymbols := EpochCut.symbolsFor_object fits
  have hsize : 0 < geometry.symbolSize.toNat := EpochCut.symbolSize_pos fits
  have hne := EpochCut.object_ne_nil fits
  cases sent with
  | error error =>
      obtain ⟨hid, hsequence⟩ := encodeBlockWithRepairSymbols_error code hne
        (by rw [DatagramFecEncoder.setSymbolSize, max_one_eq hsize]; exact hsize) hblock
      exact Or.inl ⟨.fec error, hresult, rfl, hid, hsequence⟩
  | ok datagrams =>
      obtain ⟨one, hlimit, hdatagrams, rfl⟩ := encodeBlock_sent code
        (max_one_eq hsize) hne hsize hblock
      -- the transmission is built from the object the encoder sent
      let T : AudioTransmission :=
        { block := EpochCut.block ⟨epoch, geometry⟩ encoder.fec.blockId one fits hvalid
          sessionId := epoch.sessionId
          baseSequence := encoder.fec.packetSequence
          repair := encoder.config.repairSymbols.toNat
          limit := hlimit }
      have hsource : T.block.sourceSymbols = geometry.sourceSymbols.toNat := hsymbols.trans hcount
      have hsource_lt : T.block.sourceSymbols < 2 ^ 16 :=
        hsource ▸ geometry.sourceSymbols.toNat_lt
      have hloop : datagrams.mapM (encoder.packetOf X epoch.sessionId geometry.sourceSymbols
          encoder.fec.blockId) = .ok ((List.range T.emitted).map (T.packet code)) := by
        rw [hdatagrams]
        exact mapM_packetOf (T := T) hsource fits.within_budget
      have hencoded : result = .ok (encoder.encodedOf epoch geometry
          ((List.range T.emitted).map (T.packet code))) := by
        rw [hresult]
        exact congrArg (Except.map (encoder.encodedOf epoch geometry)) hloop
      exact Or.inr ⟨_, hencoded, T,
        ⟨⟨geometry, hgeometry, hsymbols, rfl, rfl⟩, rfl, rfl, rfl, rfl, hsource.symm, rfl,
          sort_packets hsource_lt, rfl, rfl, rfl⟩, rfl, geometry, _, hgeometry, hobject⟩

/-- **What a call of `encode_epoch` does**: an epoch is refused and nothing is counted, or it is
sent. -/
theorem encodeEpoch_cases (code : X.Systematic) {epoch : MultichannelAudioEpoch}
    {result : Except MultichannelAudioFecError EncodedMultichannelAudioEpoch}
    (h : encoder.encodeEpoch X epoch = some (result, encoder')) :
    (∃ error, result = .error error ∧ encoder'.config = encoder.config ∧
      encoder'.fec.blockId = encoder.fec.blockId ∧
      encoder'.fec.packetSequence = encoder.fec.packetSequence) ∨
    ∃ encoded, result = .ok encoded ∧
      ∃ T : AudioTransmission, T.IsSent code encoder epoch encoded encoder' := by
  rcases encodeEpoch_transmits code h with hrefused | ⟨encoded, hresult, T, hsent, -⟩
  · exact Or.inl hrefused
  · exact Or.inr ⟨encoded, hresult, T, hsent⟩

/-- **What an accepted epoch is sent as.** -/
theorem encodeEpoch_ok (code : X.Systematic) {epoch : MultichannelAudioEpoch}
    {encoded : EncodedMultichannelAudioEpoch}
    (h : encoder.encodeEpoch X epoch = some (.ok encoded, encoder')) :
    ∃ T : AudioTransmission, T.IsSent code encoder epoch encoded encoder' := by
  rcases encodeEpoch_cases code h with ⟨error, hresult, -⟩ | ⟨encoded', hresult, hsent⟩
  · cases hresult
  · obtain rfl := Except.ok.inj hresult
    exact hsent

/-- The datagrams of an accepted epoch are those that the loop over the datagrams of the block let
pass. -/
lemma encodeEpoch_packets {epoch : MultichannelAudioEpoch}
    {encoded : EncodedMultichannelAudioEpoch}
    (h : encoder.encodeEpoch X epoch = some (.ok encoded, encoder')) :
    encoded.repairSymbols = encoder.config.repairSymbols ∧
      ∀ packet ∈ encoded.datagrams, ∃ datagram,
        encoder.packetOf X epoch.sessionId encoded.sourceSymbols encoder.fec.blockId datagram
          = .ok packet := by
  obtain ⟨geometry, state, datagrams, fec', pool', packets, -, -, -, hloop, rfl⟩ :=
    MultichannelAudioFecEncoder.encodeEpoch_eq_ok_some h
  refine ⟨rfl, fun packet hpacket => ?_⟩
  obtain ⟨datagram, -, hpass⟩ := exists_of_mapM_eq_ok hloop packet
    (MultichannelAudioFecEncoder.mem_datagrams_encodedOf hpacket)
  exact ⟨datagram, hpass⟩

/-- A datagram that passes the loop is within the budget. -/
lemma packetOf_within {sessionId : UInt64} {sourceCount : UInt16} {blockId : UInt32}
    {datagram : Bytes} {packet : MultichannelAudioDatagram}
    (h : encoder.packetOf X sessionId sourceCount blockId datagram = .ok packet) :
    packet.payload.length + encoder.config.transportOverhead ≤ encoder.config.maxDatagramSize := by
  obtain ⟨fecHeader, -, h⟩ := bind_eq_ok_iff.mp h
  obtain ⟨serialized, -, h⟩ := bind_eq_ok_iff.mp h
  -- both kinds of datagrams pass the check of their length
  have hcheck : ∀ {role : MultichannelAudioDatagramRole} {sealed : Bytes},
      (if encoder.config.maxDatagramSize < sealed.length + encoder.config.transportOverhead then
        Except.error (MultichannelAudioFecError.encodedDatagramTooLarge
          (sealed.length + encoder.config.transportOverhead) encoder.config.maxDatagramSize)
      else .ok ⟨blockId, fecHeader.packetSequence, role, sealed⟩) = .ok packet →
      packet.payload.length + encoder.config.transportOverhead
        ≤ encoder.config.maxDatagramSize := by
    intro role sealed hsealed
    split_ifs at hsealed with hlarge
    obtain rfl := Except.ok.inj hsealed
    exact Nat.le_of_not_lt hlarge
  simp only at h
  split at h
  · exact hcheck h
  · obtain ⟨sealed, -, h⟩ := bind_eq_ok_iff.mp h
    exact hcheck h

end Encode

end RaptorFec
