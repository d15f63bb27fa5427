import RaptorFec.Audio.Recovery
import RaptorFec.Audio.Flow

/-!
# Transport messages

A transport adapter sends the datagrams of an encoded audio epoch as transport messages: an
optional stream id of eight bytes, a magic of four bytes, and the datagram.

* `frame` — the message of a datagram; `payload_frame` takes it apart again, and another stream id
  does not (`payload_frame_other`);
* `wrapEpoch` — the source's function; `wrapEpoch_eq_ok_iff` says which epochs it accepts, and what
  it makes of them;
* `sourceDatagrams`, `repairDatagrams` — the two parts of a wrapped epoch;
* `Wraps` — what wrapping keeps;
* `wrapEpoch_prepared` — the epochs of an encoder with a prepared configuration are wrapped.
-/

namespace RaptorFec

/-! ## Prefixes -/

def streamIdPrefixLen : ℕ := 8

/-- `b"AEP1"`. -/
def multichannelAudioTransportMagic : Bytes := [0x41, 0x45, 0x50, 0x31]

def multichannelAudioTransportMagicLen : ℕ := 4

inductive FecTransportKind where
  | udp
  | webTransport
  | webRtc
  deriving DecidableEq, Repr

inductive StreamIdMode where
  | none
  | prefix64Be (streamId : UInt64)
  deriving DecidableEq, Repr

/-- `encode_stream_id_prefix`. -/
def encodeStreamIdPrefix (streamId : UInt64) : Bytes := toBeBytes streamId

/-- `StreamIdMode::prefix`. -/
def StreamIdMode.idPrefix : StreamIdMode → Option Bytes
  | .none => .none
  | .prefix64Be streamId => some (encodeStreamIdPrefix streamId)

structure FecTransportConfig where
  kind : FecTransportKind
  streamIdMode : StreamIdMode
  deriving DecidableEq, Repr

namespace FecTransportConfig

def udp : FecTransportConfig := ⟨.udp, .none⟩

def webtransport : FecTransportConfig := ⟨.webTransport, .none⟩

def webtransportWithStreamPrefix (streamId : UInt64) : FecTransportConfig :=
  ⟨.webTransport, .prefix64Be streamId⟩

def webrtc : FecTransportConfig := ⟨.webRtc, .none⟩

end FecTransportConfig

inductive FecTransportError where
  | missingStreamIdPrefix
  | unexpectedStreamId (expected actual : UInt64)
  | fec (error : DatagramFecError)
  deriving DecidableEq, Repr

inductive MultichannelAudioTransportError where
  | transport (error : FecTransportError)
  | audio (error : MultichannelAudioFecError)
  | datagramTooLarge (actual max : ℕ)
  | sourceAfterRepair (packetSequence : UInt32)
  | missingAudioEpochPrefix
  deriving DecidableEq, Repr

/-- `split_stream_id_prefix`. -/
def splitStreamIdPrefix (datagram : Bytes) : Option (UInt64 × Bytes) :=
  if datagram.length < streamIdPrefixLen then none
  else some (fromBeBytes (datagram.take streamIdPrefixLen), datagram.drop streamIdPrefixLen)

/-- `add_prefix`, also `add_prefix_bytes`. -/
def addPrefix (idPrefix : Option Bytes) (datagram : Bytes) : Bytes :=
  match idPrefix with
  | none => datagram
  | some idPrefix => idPrefix ++ datagram

/-- `add_audio_epoch_prefix`. -/
def addAudioEpochPrefix (datagram : Bytes) : Bytes := multichannelAudioTransportMagic ++ datagram

/-- `is_multichannel_audio_transport_datagram`. -/
def isMultichannelAudioTransportDatagram (datagram : Bytes) : Bool :=
  multichannelAudioTransportMagic.isPrefixOf datagram

/-- `strip_audio_epoch_prefix`. -/
def stripAudioEpochPrefix (datagram : Bytes) : Except MultichannelAudioTransportError Bytes :=
  if isMultichannelAudioTransportDatagram datagram then
    .ok (datagram.drop multichannelAudioTransportMagicLen)
  else .error .missingAudioEpochPrefix

/-- `strip_transport_prefix`. -/
def stripTransportPrefix (streamIdMode : StreamIdMode) (datagram : Bytes) :
    Except FecTransportError Bytes :=
  match streamIdMode with
  | .none => .ok datagram
  | .prefix64Be expected =>
      match splitStreamIdPrefix datagram with
      | none => .error .missingStreamIdPrefix
      | some (streamId, payload) =>
          if streamId ≠ expected then .error (.unexpectedStreamId expected streamId)
          else .ok payload

/-! ## The adapter -/

structure MultichannelAudioTransportDatagram where
  blockId : UInt32
  packetSequence : UInt32
  role : MultichannelAudioDatagramRole
  /-- The playout deadline in the sender's sample-clock domain. -/
  playoutPtsSamples : UInt64
  payload : Bytes
  deriving DecidableEq, Repr

structure EncodedTransportMultichannelAudioEpoch where
  sessionId : UInt64
  configGeneration : UInt32
  epochId : UInt64
  ptsSamples : UInt64
  sampleRate : UInt32
  frameCount : UInt32
  blockId : UInt32
  sourceSymbols : UInt16
  repairSymbols : UInt32
  datagrams : List MultichannelAudioTransportDatagram
  deriving DecidableEq, Repr

namespace EncodedTransportMultichannelAudioEpoch

variable (epoch : EncodedTransportMultichannelAudioEpoch)

def sourceDatagrams : List MultichannelAudioTransportDatagram :=
  epoch.datagrams.takeWhile fun datagram => datagram.role.isSource

def repairDatagrams : List MultichannelAudioTransportDatagram :=
  epoch.datagrams.dropWhile fun datagram => datagram.role.isSource

end EncodedTransportMultichannelAudioEpoch

structure MultichannelAudioTransportAdapter where
  transport : FecTransportConfig
  maxDatagramSize : ℕ
  deriving DecidableEq, Repr

namespace MultichannelAudioTransportAdapter

variable (adapter : MultichannelAudioTransportAdapter)

/-- `transport_overhead`. -/
def transportOverhead : ℕ :=
  multichannelAudioTransportMagicLen +
    match adapter.transport.streamIdMode with
    | .none => 0
    | .prefix64Be _ => streamIdPrefixLen

/-- `prepare_fec_config`. -/
def prepareFecConfig (config : MultichannelAudioFecConfig) : MultichannelAudioFecConfig :=
  { config with
    maxDatagramSize := adapter.maxDatagramSize
    transportOverhead := adapter.transportOverhead }

/-- The transport message of a datagram. -/
def frame (datagram : Bytes) : Bytes :=
  addPrefix adapter.transport.streamIdMode.idPrefix (addAudioEpochPrefix datagram)

/-- A datagram of an epoch as a transport message. -/
def wrap (ptsSamples : UInt64) (datagram : MultichannelAudioDatagram) :
    MultichannelAudioTransportDatagram :=
  { blockId := datagram.blockId
    packetSequence := datagram.packetSequence
    role := datagram.role
    playoutPtsSamples := ptsSamples
    payload := adapter.frame datagram.payload }

/-- The loop of `wrap_epoch`; the first argument is `saw_repair`. -/
def wrapDatagrams (ptsSamples : UInt64) : Bool → List MultichannelAudioDatagram →
    Except MultichannelAudioTransportError (List MultichannelAudioTransportDatagram)
  | _, [] => .ok []
  | sawRepair, datagram :: rest =>
      if datagram.role.isSource ∧ sawRepair then
        .error (.sourceAfterRepair datagram.packetSequence)
      else
        let payload := adapter.frame datagram.payload
        if adapter.maxDatagramSize < payload.length then
          .error (.datagramTooLarge payload.length adapter.maxDatagramSize)
        else do
          let wrapped ← wrapDatagrams ptsSamples (sawRepair || ! datagram.role.isSource) rest
          .ok (adapter.wrap ptsSamples datagram :: wrapped)

/-- `wrap_epoch`. -/
def wrapEpoch (encoded : EncodedMultichannelAudioEpoch) :
    Except MultichannelAudioTransportError EncodedTransportMultichannelAudioEpoch := do
  let datagrams ← adapter.wrapDatagrams encoded.ptsSamples false encoded.datagrams
  .ok
    { sessionId := encoded.sessionId
      configGeneration := encoded.configGeneration
      epochId := encoded.epochId
      ptsSamples := encoded.ptsSamples
      sampleRate := encoded.sampleRate
      frameCount := encoded.frameCount
      blockId := encoded.blockId
      sourceSymbols := encoded.sourceSymbols
      repairSymbols := encoded.repairSymbols
      datagrams := datagrams }

/-- `payload`. -/
def payload (datagram : Bytes) : Except MultichannelAudioTransportError Bytes := do
  let datagram ← (stripTransportPrefix adapter.transport.streamIdMode datagram).mapError .transport
  stripAudioEpochPrefix datagram

/-- `push_datagram`, with the decoder after the call. -/
def pushDatagram {X : Crates} (decoder : MultichannelAudioFecDecoder X) (datagram : Bytes) :
    Except MultichannelAudioTransportError (List DecodedMultichannelAudioShard)
      × MultichannelAudioFecDecoder X :=
  match adapter.payload datagram with
  | .error error => (.error error, decoder)
  | .ok datagram =>
      let (result, decoder) := decoder.pushDatagram datagram
      (result.mapError .audio, decoder)

/-! ## Messages -/

variable {adapter : MultichannelAudioTransportAdapter} {datagram : Bytes}

lemma stripAudioEpochPrefix_addAudioEpochPrefix (datagram : Bytes) :
    stripAudioEpochPrefix (addAudioEpochPrefix datagram) = .ok datagram := by
  have hmagic : isMultichannelAudioTransportDatagram (addAudioEpochPrefix datagram) = true :=
    List.isPrefixOf_iff_prefix.mpr (List.prefix_append _ _)
  rw [stripAudioEpochPrefix, if_pos hmagic]
  rfl

/-- A message starts with its stream id. -/
lemma splitStreamIdPrefix_append (streamId : UInt64) (datagram : Bytes) :
    splitStreamIdPrefix (encodeStreamIdPrefix streamId ++ datagram) = some (streamId, datagram) := by
  have hlen : (encodeStreamIdPrefix streamId).length = streamIdPrefixLen :=
    length_toBeBytes_u64 streamId
  have hlong : ¬ (encodeStreamIdPrefix streamId ++ datagram).length < streamIdPrefixLen := by
    rw [List.length_append, hlen]
    exact Nat.not_lt.mpr (Nat.le_add_right _ _)
  rw [splitStreamIdPrefix, if_neg hlong, List.take_left' hlen, List.drop_left' hlen,
    encodeStreamIdPrefix, fromBeBytes_toBeBytes]

lemma stripTransportPrefix_addPrefix (mode : StreamIdMode) (datagram : Bytes) :
    stripTransportPrefix mode (addPrefix mode.idPrefix datagram) = .ok datagram := by
  cases mode with
  | none => rfl
  | prefix64Be streamId =>
      rw [StreamIdMode.idPrefix, addPrefix, stripTransportPrefix, splitStreamIdPrefix_append]
      exact if_neg (not_not.mpr rfl)

/-- **A message gives its datagram back.** -/
theorem payload_frame (adapter : MultichannelAudioTransportAdapter) (datagram : Bytes) :
    adapter.payload (adapter.frame datagram) = .ok datagram := by
  rw [payload, frame, stripTransportPrefix_addPrefix, Except.mapError, ok_bind,
    stripAudioEpochPrefix_addAudioEpochPrefix]

/-- The prefixes of a message are its overhead. -/
lemma length_frame (adapter : MultichannelAudioTransportAdapter) (datagram : Bytes) :
    (adapter.frame datagram).length = datagram.length + adapter.transportOverhead := by
  have hmagic : (addAudioEpochPrefix datagram).length
      = multichannelAudioTransportMagicLen + datagram.length := by
    rw [addAudioEpochPrefix, List.length_append]
    rfl
  rw [frame, transportOverhead]
  cases adapter.transport.streamIdMode with
  | none =>
      rw [StreamIdMode.idPrefix, addPrefix, hmagic]
      exact Nat.add_comm _ _
  | prefix64Be streamId =>
      rw [StreamIdMode.idPrefix, addPrefix, List.length_append, hmagic, encodeStreamIdPrefix,
        length_toBeBytes_u64]
      change streamIdPrefixLen + (multichannelAudioTransportMagicLen + datagram.length)
        = datagram.length + (multichannelAudioTransportMagicLen + streamIdPrefixLen)
      omega

/-- Behind its first four bytes, a datagram does not start with the magic of a message: the byte
there is its version. -/
lemma not_magic_of_decode {header : DatagramFecHeader}
    (hdecode : DatagramFecHeader.decode datagram = .ok header) :
    isMultichannelAudioTransportDatagram (datagram.drop 4) = false := by
  obtain ⟨-, htake⟩ := DatagramFecHeader.take_of_decode hdecode
  have hsplit : datagram = header.headerBytes ++ datagram.drop 32 := by
    rw [← htake, List.take_append_drop]
  rw [hsplit]
  rfl

/-- **Another stream id rejects the message**, also where the adapter has none: a stream id that
reads like the start of a datagram leaves a message without its magic. -/
theorem payload_frame_other {other : MultichannelAudioTransportAdapter} {streamId : UInt64}
    {header : DatagramFecHeader} (hdecode : DatagramFecHeader.decode datagram = .ok header)
    (hother : other.transport.streamIdMode = .prefix64Be streamId)
    (hne : adapter.transport.streamIdMode ≠ .prefix64Be streamId) :
    ∃ error, other.payload (adapter.frame datagram) = .error error := by
  rw [payload, hother, frame, stripTransportPrefix]
  cases hmode : adapter.transport.streamIdMode with
  | none =>
      have hdrop : (addAudioEpochPrefix datagram).drop streamIdPrefixLen = datagram.drop 4 := rfl
      have hmagic := not_magic_of_decode hdecode
      rw [StreamIdMode.idPrefix, addPrefix, splitStreamIdPrefix]
      split_ifs
      · exact ⟨_, rfl⟩
      · simp only
        split_ifs
        · exact ⟨_, rfl⟩
        · rw [hdrop, Except.mapError, ok_bind, stripAudioEpochPrefix, hmagic]
          exact ⟨_, rfl⟩
  | prefix64Be expected =>
      have hids : expected ≠ streamId := fun heq => hne (by rw [hmode, heq])
      rw [StreamIdMode.idPrefix, addPrefix, splitStreamIdPrefix_append]
      simp only [if_pos hids]
      exact ⟨_, rfl⟩

/-- A message pushed into a decoder does what its datagram does. -/
theorem pushDatagram_frame {X : Crates} (decoder : MultichannelAudioFecDecoder X) :
    adapter.pushDatagram decoder (adapter.frame datagram)
      = ((decoder.pushDatagram datagram).1.mapError .audio, (decoder.pushDatagram datagram).2) := by
  rw [pushDatagram, payload_frame]

/-! ## Wrapped epochs -/

/-- No source datagram comes after a repair datagram. -/
def SourceFirst (datagrams : List MultichannelAudioDatagram) : Prop :=
  datagrams.Pairwise fun earlier later => later.role.isSource → earlier.role.isSource

/-- What the loop of `wrap_epoch` accepts, and what it collects. -/
lemma wrapDatagrams_eq_ok_iff {ptsSamples : UInt64} {sawRepair : Bool}
    {datagrams : List MultichannelAudioDatagram}
    {wrapped : List MultichannelAudioTransportDatagram} :
    adapter.wrapDatagrams ptsSamples sawRepair datagrams = .ok wrapped ↔
      (sawRepair → ∀ datagram ∈ datagrams, ¬ datagram.role.isSource) ∧
      SourceFirst datagrams ∧
      (∀ datagram ∈ datagrams, (adapter.frame datagram.payload).length ≤ adapter.maxDatagramSize) ∧
      wrapped = datagrams.map (adapter.wrap ptsSamples) := by
  induction datagrams generalizing sawRepair wrapped with
  | nil =>
      constructor
      · intro h
        obtain rfl := Except.ok.inj h
        simp [SourceFirst]
      · rintro ⟨-, -, -, rfl⟩
        rfl
  | cons datagram datagrams ih =>
      rw [wrapDatagrams]
      constructor
      · intro h
        simp only at h
        split_ifs at h with hrole hlarge
        obtain ⟨rest, hrest, hwrapped⟩ := bind_eq_ok_iff.mp h
        obtain ⟨hrepairs, hfirst, hfits, rfl⟩ := ih.mp hrest
        obtain rfl := Except.ok.inj hwrapped
        refine ⟨fun hsaw => ?_, ?_, ?_, rfl⟩
        · rw [List.forall_mem_cons]
          exact ⟨fun hsource => hrole ⟨hsource, hsaw⟩,
            hrepairs (by rw [hsaw, Bool.true_or])⟩
        · refine List.pairwise_cons.mpr ⟨fun later hlater hsource => ?_, hfirst⟩
          by_contra hrepair
          exact hrepairs (by rw [Bool.eq_false_of_not_eq_true hrepair]; simp) later hlater hsource
        · exact List.forall_mem_cons.mpr ⟨Nat.le_of_not_lt hlarge, hfits⟩
      · rintro ⟨hrepairs, hfirst, hfits, rfl⟩
        obtain ⟨hhead, hfirst⟩ := List.pairwise_cons.mp hfirst
        rw [List.forall_mem_cons] at hfits
        have hrole : ¬ (datagram.role.isSource ∧ sawRepair) := fun hboth =>
          hrepairs hboth.2 datagram List.mem_cons_self hboth.1
        have hrest : adapter.wrapDatagrams ptsSamples (sawRepair || ! datagram.role.isSource)
            datagrams = .ok (datagrams.map (adapter.wrap ptsSamples)) := by
          refine ih.mpr ⟨fun hsaw later hlater hsource => ?_, hfirst, hfits.2, rfl⟩
          rcases Bool.or_eq_true_iff.mp hsaw with hsaw | hrepair
          · exact hrepairs hsaw later (List.mem_cons_of_mem _ hlater) hsource
          · rw [hhead later hlater hsource] at hrepair
            cases hrepair
        rw [if_neg hrole, if_neg (Nat.not_lt.mpr hfits.1), hrest]
        rfl

/-- **What `wrap_epoch` accepts**: epochs with source datagrams first, whose messages are within the
size of the adapter. -/
theorem wrapEpoch_eq_ok_iff {encoded : EncodedMultichannelAudioEpoch}
    {wrapped : EncodedTransportMultichannelAudioEpoch} :
    adapter.wrapEpoch encoded = .ok wrapped ↔
      SourceFirst encoded.datagrams ∧
      (∀ datagram ∈ encoded.datagrams,
        (adapter.frame datagram.payload).length ≤ adapter.maxDatagramSize) ∧
      wrapped =
        { sessionId := encoded.sessionId
          configGeneration := encoded.configGeneration
          epochId := encoded.epochId
          ptsSamples := encoded.ptsSamples
          sampleRate := encoded.sampleRate
          frameCount := encoded.frameCount
          blockId := encoded.blockId
          sourceSymbols := encoded.sourceSymbols
          repairSymbols := encoded.repairSymbols
          datagrams := encoded.datagrams.map (adapter.wrap encoded.ptsSamples) } := by
  rw [wrapEpoch, bind_eq_ok_iff]
  constructor
  · rintro ⟨datagrams, hloop, hwrapped⟩
    obtain ⟨-, hfirst, hfits, rfl⟩ := wrapDatagrams_eq_ok_iff.mp hloop
    exact ⟨hfirst, hfits, (Except.ok.inj hwrapped).symm⟩
  · rintro ⟨hfirst, hfits, rfl⟩
    exact ⟨_, wrapDatagrams_eq_ok_iff.mpr ⟨fun hsaw => absurd hsaw (by simp), hfirst, hfits, rfl⟩,
      rfl⟩

/-- What wrapping keeps of an epoch. -/
structure Wraps (adapter : MultichannelAudioTransportAdapter)
    (encoded : EncodedMultichannelAudioEpoch)
    (wrapped : EncodedTransportMultichannelAudioEpoch) : Prop where
  described : wrapped.datagrams.map (fun datagram =>
      (datagram.blockId, datagram.packetSequence, datagram.role))
    = encoded.datagrams.map fun datagram =>
      (datagram.blockId, datagram.packetSequence, datagram.role)
  within : ∀ datagram ∈ wrapped.datagrams, datagram.payload.length ≤ adapter.maxDatagramSize
  sourceSymbols_eq : wrapped.sourceSymbols = encoded.sourceSymbols
  repairSymbols_eq : wrapped.repairSymbols = encoded.repairSymbols
  parts : wrapped.sourceDatagrams ++ wrapped.repairDatagrams = wrapped.datagrams
  sources : wrapped.sourceDatagrams.length = wrapped.sourceSymbols.toNat
  repairs : wrapped.repairDatagrams.length = wrapped.repairSymbols.toNat
  sources_role : ∀ datagram ∈ wrapped.sourceDatagrams, datagram.role.isSource
  repairs_role : ∀ datagram ∈ wrapped.repairDatagrams, ¬ datagram.role.isSource
  payloads : wrapped.datagrams.map (fun datagram => adapter.payload datagram.payload)
    = encoded.datagrams.map fun datagram => .ok datagram.payload
  others : ∀ datagram ∈ wrapped.datagrams,
    ∀ (other : MultichannelAudioTransportAdapter) (streamId : UInt64),
      other.transport.streamIdMode = .prefix64Be streamId →
      adapter.transport.streamIdMode ≠ .prefix64Be streamId →
      ∃ error, other.payload datagram.payload = .error error

section Prepared

variable {X : Crates} (code : X.Systematic) {config : MultichannelAudioFecConfig}
  {encoder encoder' : MultichannelAudioFecEncoder} {epoch : MultichannelAudioEpoch}
  {encoded : EncodedMultichannelAudioEpoch}

/-- The source datagrams of a wrapped transmission are those of its source symbols. -/
lemma split_wrapped {code : X.Systematic} {T : AudioTransmission}
    {wrapped : EncodedTransportMultichannelAudioEpoch}
    (hdatagrams : encoded.datagrams = (List.range T.emitted).map (T.packet code))
    (h : adapter.wrapEpoch encoded = .ok wrapped) :
    wrapped.sourceDatagrams = (T.sourcePackets code).map (adapter.wrap encoded.ptsSamples) ∧
      wrapped.repairDatagrams
        = (T.repairPackets code).map (adapter.wrap encoded.ptsSamples) := by
  obtain ⟨-, -, rfl⟩ := wrapEpoch_eq_ok_iff.mp h
  have hfront : ∀ datagram ∈ (T.sourcePackets code).map (adapter.wrap encoded.ptsSamples),
      datagram.role.isSource = true := by
    intro datagram hdatagram
    obtain ⟨packet, hpacket, rfl⟩ := List.mem_map.mp hdatagram
    exact T.isSource_sourcePackets hpacket
  have hback : ∀ datagram ∈ (T.repairPackets code).map (adapter.wrap encoded.ptsSamples),
      datagram.role.isSource = false := by
    intro datagram hdatagram
    obtain ⟨packet, hpacket, rfl⟩ := List.mem_map.mp hdatagram
    exact T.isSource_repairPackets hpacket
  rw [EncodedTransportMultichannelAudioEpoch.sourceDatagrams,
    EncodedTransportMultichannelAudioEpoch.repairDatagrams, hdatagrams, T.packets_eq,
    List.map_append]
  exact takeWhile_dropWhile_append hfront hback

/-- The datagrams of a transmission have their source datagrams first. -/
lemma sourceFirst_packets {code : X.Systematic} (T : AudioTransmission) :
    SourceFirst ((List.range T.emitted).map (T.packet code)) := by
  refine List.pairwise_map.mpr (List.pairwise_lt_range.imp fun {a b} hlt hsource => ?_)
  have hb : (T.role b).isSource = true := hsource
  rw [T.isSource_role, decide_eq_true_iff] at hb
  exact (T.isSource_role a).trans (decide_eq_true (Nat.lt_trans hlt hb))

include code in
/-- **Every epoch of an encoder with a prepared configuration is wrapped**: with the same datagrams
in the same order, source datagrams first, in messages within the size of the adapter. -/
theorem wrapEpoch_prepared
    (h : (encoder.setConfig (adapter.prepareFecConfig config)).encodeEpoch X epoch
      = some (.ok encoded, encoder')) :
    ∃ wrapped, adapter.wrapEpoch encoded = .ok wrapped ∧ adapter.Wraps encoded wrapped := by
  obtain ⟨T, hsent⟩ := encodeEpoch_ok code h
  obtain ⟨hrepair, hpackets⟩ := encodeEpoch_packets h
  have hdatagrams := hsent.datagrams_eq
  -- the budget of the encoder leaves room for the prefixes
  have hfits : ∀ datagram ∈ encoded.datagrams,
      (adapter.frame datagram.payload).length ≤ adapter.maxDatagramSize := by
    intro packet hpacket
    obtain ⟨datagram, hloop⟩ := hpackets packet hpacket
    rw [length_frame]
    exact packetOf_within hloop
  have hfirst : SourceFirst encoded.datagrams := by
    rw [hdatagrams]
    exact sourceFirst_packets T
  have hrepair_eq : T.repair = encoded.repairSymbols.toNat := by
    rw [hsent.repair_eq, hrepair]
  have hwrap := wrapEpoch_eq_ok_iff.mpr ⟨hfirst, hfits, rfl⟩
  obtain ⟨hsources, hrepairs⟩ := split_wrapped hdatagrams hwrap
  refine ⟨_, hwrap, ?_, ?_, rfl, rfl, List.takeWhile_append_dropWhile, ?_, ?_, ?_, ?_, ?_, ?_⟩
  · simp only [List.map_map]
    rfl
  · intro message hmessage
    obtain ⟨datagram, hdatagram, rfl⟩ := List.mem_map.mp hmessage
    exact hfits datagram hdatagram
  · rw [hsources, List.length_map, AudioTransmission.sourcePackets, List.length_map,
      List.length_range]
    exact hsent.sourceSymbols_eq.symm
  · rw [hrepairs, List.length_map, AudioTransmission.repairPackets, List.length_map,
      List.length_range]
    exact hrepair_eq
  · intro message hmessage
    rw [hsources] at hmessage
    obtain ⟨packet, hpacket, rfl⟩ := List.mem_map.mp hmessage
    exact T.isSource_sourcePackets hpacket
  · intro message hmessage
    rw [hrepairs] at hmessage
    obtain ⟨packet, hpacket, rfl⟩ := List.mem_map.mp hmessage
    rw [show (adapter.wrap encoded.ptsSamples packet).role.isSource = false from
      T.isSource_repairPackets hpacket]
    exact Bool.false_ne_true
  · simp only [List.map_map]
    exact List.map_congr_left fun datagram _ => payload_frame adapter datagram.payload
  · intro message hmessage other streamId hother hne
    obtain ⟨datagram, hdatagram, rfl⟩ := List.mem_map.mp hmessage
    rw [hdatagrams] at hdatagram
    obtain ⟨esi, hesi, rfl⟩ := List.mem_map.mp hdatagram
    have hcarries : Carries code T.block.toSourceBlock (T.baseSequence + UInt32.ofNat esi) esi
        (T.datagram code esi) := T.carries (List.mem_range.mp hesi)
    obtain ⟨header, hdecode, -⟩ := hcarries.found
    exact payload_frame_other hdecode hother hne

end Prepared

/-- An adapter with a stream id, with room for two bytes in a fragment. -/
def sampleAdapter : MultichannelAudioTransportAdapter := ⟨.webtransportWithStreamPrefix 42, 130⟩

open MultichannelAudioFecDecoder (sampleEpoch sampleEncoder)

/-- An epoch of two source datagrams and four repair datagrams. -/
theorem wrapEpoch_prepared_sample :
    ∃ encoded encoder', (sampleEncoder.setConfig
        (sampleAdapter.prepareFecConfig .default)).encodeEpoch repetition sampleEpoch
          = some (.ok encoded, encoder') ∧
      ∃ wrapped, sampleAdapter.wrapEpoch encoded = .ok wrapped ∧
        sampleAdapter.Wraps encoded wrapped := by
  have hok : ((sampleEncoder.setConfig
      (sampleAdapter.prepareFecConfig .default)).encodeEpoch repetition sampleEpoch).map
        (fun result => result.1.isOk) = some true := by
    decide +kernel
  obtain ⟨⟨result, encoder'⟩, hencode, hresult⟩ := Option.map_eq_some_iff.mp hok
  cases result with
  | error error => cases hresult
  | ok encoded =>
      exact ⟨encoded, encoder', hencode,
        wrapEpoch_prepared repetitionIdeal.toSystematic hencode⟩

end MultichannelAudioTransportAdapter

end RaptorFec
