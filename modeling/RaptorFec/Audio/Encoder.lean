import RaptorFec.Audio.Geometry
import RaptorFec.Datagram.Encoder

/-!
# The audio encoder

`MultichannelAudioFecEncoder` cuts the channel groups of one epoch into fragments, writes each of
them behind a shard header into one source symbol, and sends the object of all symbols as one
block.  Repair datagrams get the session id as a trailer.

* `encodeEpoch` — the source's function; `none` is a panic of the `raptorq` encoder;
* `encodeEpoch_eq_some` — what a call does, as one case distinction;
* `EpochCut` — an epoch with the geometry it is cut by: its shards, their symbols, and the object
  they make up.
-/

namespace RaptorFec

/-! ## Epochs -/

structure MultichannelAudioEpoch where
  sessionId : UInt64
  configGeneration : UInt32
  epochId : UInt64
  ptsSamples : UInt64
  sampleRate : UInt32
  frameCount : UInt32
  groups : List MultichannelAudioGroup
  deriving DecidableEq, Repr

inductive MultichannelAudioDatagramRole where
  | source (sourceIndex : UInt16)
  | repair (encodingSymbolId : UInt32)
  deriving DecidableEq, Repr

/-- The role is that of a source datagram. -/
def MultichannelAudioDatagramRole.isSource : MultichannelAudioDatagramRole → Bool
  | .source _ => true
  | .repair _ => false

/-- The key the source datagrams are sorted by. -/
def MultichannelAudioDatagramRole.sortKey : MultichannelAudioDatagramRole → ℕ
  | .source sourceIndex => sourceIndex.toNat
  | .repair _ => 2 ^ 16 - 1

structure MultichannelAudioDatagram where
  blockId : UInt32
  packetSequence : UInt32
  role : MultichannelAudioDatagramRole
  payload : Bytes
  deriving DecidableEq, Repr

structure EncodedMultichannelAudioEpoch where
  sessionId : UInt64
  configGeneration : UInt32
  epochId : UInt64
  ptsSamples : UInt64
  sampleRate : UInt32
  frameCount : UInt32
  blockId : UInt32
  sourceSymbols : UInt16
  repairSymbols : UInt32
  symbolSize : UInt16
  datagrams : List MultichannelAudioDatagram
  deriving DecidableEq, Repr

/-- `source_datagram_count`. -/
def EncodedMultichannelAudioEpoch.sourceDatagramCount (self : EncodedMultichannelAudioEpoch) : ℕ :=
  (self.datagrams.filter fun packet => packet.role.isSource).length

/-- `repair_datagram_count`. -/
def EncodedMultichannelAudioEpoch.repairDatagramCount (self : EncodedMultichannelAudioEpoch) : ℕ :=
  self.datagrams.length - self.sourceDatagramCount

/-- `validate_group`. -/
def validateGroup (group : MultichannelAudioGroup) : Except MultichannelAudioFecError Unit :=
  if group.channelCount = 0 then .error (.invalidChannelCount group.groupId)
  else if group.payloadKind = .pcm ∧ group.sampleFormat = .unspecified then
    .error (.pcmFormatRequired group.groupId)
  else if group.payloadKind = .flac ∧ group.sampleFormat = .unspecified then
    .error (.flacFormatRequired group.groupId)
  else .ok ()

/-- The loop over the groups in front of the cut. -/
def validateGroups : List MultichannelAudioGroup → Except MultichannelAudioFecError Unit
  | [] => .ok ()
  | group :: groups => do
      validateGroup group
      if u32Max < group.payload.length then
        .error (.groupPayloadTooLong group.groupId group.payload.length)
      else validateGroups groups

/-- The bytes of one fragment of a group. -/
def MultichannelAudioGroup.fragment (group : MultichannelAudioGroup)
    (fragmentPayload fragmentIndex : ℕ) : Bytes :=
  let payloadOffset := fragmentIndex * fragmentPayload
  let payloadEnd := min (payloadOffset + fragmentPayload) group.payload.length
  if payloadOffset < group.payload.length then slice group.payload payloadOffset payloadEnd else []

/-- An epoch with the geometry it is cut by. -/
structure EpochCut where
  epoch : MultichannelAudioEpoch
  geometry : MultichannelAudioFecGeometry

/-- A group with its index, and the index of one of its fragments. -/
abbrev FragmentPlace := (MultichannelAudioGroup × ℕ) × ℕ

namespace EpochCut

variable (cut : EpochCut)

/-- `group_count`. -/
def groupCount : UInt16 := UInt16.ofNat cut.epoch.groups.length

/-- The header of one fragment. -/
def header (place : FragmentPlace) (sourceIndex : ℕ) : MultichannelAudioShardHeader :=
  let group := place.1.1
  let payload := group.fragment cut.geometry.fragmentPayload place.2
  { payloadKind := group.payloadKind
    sampleFormat := group.sampleFormat
    flags := group.flags
    sessionId := cut.epoch.sessionId
    configGeneration := cut.epoch.configGeneration
    sampleRate := cut.epoch.sampleRate
    frameCount := cut.epoch.frameCount
    epochId := cut.epoch.epochId
    ptsSamples := cut.epoch.ptsSamples
    groupId := group.groupId
    groupIndex := UInt16.ofNat place.1.2
    groupCount := cut.groupCount
    channelStart := group.channelStart
    channelCount := group.channelCount
    fragmentIndex := UInt16.ofNat place.2
    fragmentCount := UInt16.ofNat (group.fragmentCount cut.geometry.fragmentPayload)
    sourceIndex := UInt16.ofNat sourceIndex
    sourceCount := cut.geometry.sourceSymbols
    payloadLen := UInt16.ofNat payload.length
    payloadOffset := UInt32.ofNat (place.2 * cut.geometry.fragmentPayload)
    groupPayloadLen := UInt32.ofNat group.payload.length }

/-- The inner loop body: one fragment is written into its symbol of the object. -/
def encodeFragment (group : MultichannelAudioGroup × ℕ) (state : Bytes × ℕ) (fragmentIndex : ℕ) :
    Except MultichannelAudioFecError (Bytes × ℕ) :=
  let payload := group.1.fragment cut.geometry.fragmentPayload fragmentIndex
  let symbolStart := state.2 * cut.geometry.symbolSize.toNat
  let symbolEnd := symbolStart + cut.geometry.symbolSize.toNat
  do
    let symbol ← (cut.header (group, fragmentIndex) state.2).encode
      (slice state.1 symbolStart symbolEnd)
    let symbol := writeAt symbol multichannelAudioShardHeaderLen payload
    .ok (writeAt state.1 symbolStart symbol, state.2 + 1)

/-- The outer loop body: all fragments of one group. -/
def encodeGroup (state : Bytes × ℕ) (group : MultichannelAudioGroup × ℕ) :
    Except MultichannelAudioFecError (Bytes × ℕ) :=
  let fragmentCount := group.1.fragmentCount cut.geometry.fragmentPayload
  if 2 ^ 16 ≤ fragmentCount then .error (.tooManyFragments group.1.groupId fragmentCount)
  else (List.range fragmentCount).foldlM (cut.encodeFragment group) state

/-- The object of the epoch, with the number of symbols written. -/
def encodeObject : Except MultichannelAudioFecError (Bytes × ℕ) :=
  cut.epoch.groups.zipIdx.foldlM cut.encodeGroup
    (List.replicate (cut.geometry.sourceSymbols.toNat * cut.geometry.symbolSize.toNat) 0, 0)

end EpochCut

/-- `attach_audio_session_id`; the result is the datagram after the call. -/
def attachAudioSessionId (X : Crates) (datagram : Bytes) (sessionId : UInt64) :
    Except DatagramFecError Bytes := do
  let header ← DatagramFecHeader.decode datagram
  let header := { header with packetFlags := header.packetFlags ||| datagramFlagAudioSessionId }
  let datagram := datagram ++ toLeBytes sessionId
  let packetCrc32 ← header.computePacketCrc32 X (datagram.drop headerLen)
  let header := { header with packetCrc32 := packetCrc32 }
  let encoded ← header.encode (datagram.take headerLen)
  .ok (writeAt datagram 0 encoded)

/-! ## The encoder -/

structure MultichannelAudioFecEncoder where
  config : MultichannelAudioFecConfig
  fec : DatagramFecEncoder
  deriving DecidableEq, Repr

namespace MultichannelAudioFecEncoder

/-- `MultichannelAudioFecEncoder::new`. -/
def new (config : MultichannelAudioFecConfig) : MultichannelAudioFecEncoder :=
  ⟨config, DatagramFecEncoder.new⟩

variable (X : Crates) (self : MultichannelAudioFecEncoder)

/-- `set_block_id`, also `with_initial_block_id`. -/
def setBlockId (blockId : UInt32) : MultichannelAudioFecEncoder :=
  { self with fec := self.fec.setBlockId blockId }

/-- `block_id`. -/
def blockId : UInt32 := self.fec.blockId

/-- The loop body over the datagrams of the block. -/
def packetOf (sessionId : UInt64) (sourceCount : UInt16) (blockId : UInt32) (datagram : Bytes) :
    Except MultichannelAudioFecError MultichannelAudioDatagram := do
  let fecHeader ← (DatagramFecHeader.decode datagram).mapError .fec
  let serialized ← (fecHeader.payload X datagram).mapError .fec
  let encodingSymbolId := (X.deserialize serialized).encodingSymbolId
  let role : MultichannelAudioDatagramRole :=
    if encodingSymbolId < sourceCount.toUInt32 then .source encodingSymbolId.toUInt16
    else .repair encodingSymbolId
  let datagram ←
    if role.isSource then .ok datagram
    else (attachAudioSessionId X datagram sessionId).mapError .fec
  if self.config.maxDatagramSize < datagram.length + self.config.transportOverhead then
    .error (.encodedDatagramTooLarge (datagram.length + self.config.transportOverhead)
      self.config.maxDatagramSize)
  else
    .ok
      { blockId := blockId
        packetSequence := fecHeader.packetSequence
        role := role
        payload := datagram }

/-- `encode_epoch`, with the encoder after the call. -/
def encodeEpoch (epoch : MultichannelAudioEpoch) :
    Option (Except MultichannelAudioFecError EncodedMultichannelAudioEpoch ×
      MultichannelAudioFecEncoder) :=
  if epoch.frameCount = 0 then some (.error .invalidFrameCount, self)
  else if epoch.sampleRate = 0 then some (.error .invalidSampleRate, self)
  else if epoch.groups = [] then some (.error .emptyEpoch, self)
  else if 2 ^ 16 ≤ epoch.groups.length then
    some (.error (.tooManyGroups epoch.groups.length), self)
  else
    match validateGroups epoch.groups with
    | .error error => some (.error error, self)
    | .ok _ =>
        match self.config.geometryForGroups epoch.groups with
        | .error error => some (.error error, self)
        | .ok geometry =>
            match (EpochCut.mk epoch geometry).encodeObject with
            | .error error => some (.error error, self)
            | .ok (object, _) =>
                let blockId := self.fec.blockId
                let fec := (self.fec.setSourceSymbols geometry.sourceSymbols).setSymbolSize
                  geometry.symbolSize
                match fec.encodeBlockWithRepairSymbols X object self.config.repairSymbols none with
                | none => none
                | some (.error error, fec, _) => some (.error (.fec error), { self with fec := fec })
                | some (.ok encoded, fec, _) =>
                    some
                      ((encoded.mapM (self.packetOf X epoch.sessionId geometry.sourceSymbols
                          blockId)).map fun packets =>
                        { sessionId := epoch.sessionId
                          configGeneration := epoch.configGeneration
                          epochId := epoch.epochId
                          ptsSamples := epoch.ptsSamples
                          sampleRate := epoch.sampleRate
                          frameCount := epoch.frameCount
                          blockId := blockId
                          sourceSymbols := geometry.sourceSymbols
                          repairSymbols := self.config.repairSymbols
                          symbolSize := geometry.symbolSize
                          datagrams :=
                            sortByKey (fun packet => packet.role.sortKey)
                                (packets.filter fun packet => packet.role.isSource)
                              ++ packets.filter fun packet => ¬ packet.role.isSource },
                        { self with fec := fec })

/-! ### What a call does -/

/-- What `encode_epoch` makes of the packets of an epoch. -/
def encodedOf (epoch : MultichannelAudioEpoch) (geometry : MultichannelAudioFecGeometry)
    (packets : List MultichannelAudioDatagram) : EncodedMultichannelAudioEpoch where
  sessionId := epoch.sessionId
  configGeneration := epoch.configGeneration
  epochId := epoch.epochId
  ptsSamples := epoch.ptsSamples
  sampleRate := epoch.sampleRate
  frameCount := epoch.frameCount
  blockId := self.fec.blockId
  sourceSymbols := geometry.sourceSymbols
  repairSymbols := self.config.repairSymbols
  symbolSize := geometry.symbolSize
  datagrams :=
    sortByKey (fun packet => packet.role.sortKey)
        (packets.filter fun packet => packet.role.isSource)
      ++ packets.filter fun packet => ¬ packet.role.isSource

variable {X self} {epoch : MultichannelAudioEpoch} {geometry : MultichannelAudioFecGeometry}

/-- Its datagrams are among the packets. -/
lemma mem_datagrams_encodedOf {packets : List MultichannelAudioDatagram}
    {packet : MultichannelAudioDatagram}
    (h : packet ∈ (self.encodedOf epoch geometry packets).datagrams) : packet ∈ packets := by
  rcases List.mem_append.mp h with hsource | hrepair
  · rw [sortByKey, List.mem_insertionSort] at hsource
    exact List.mem_of_mem_filter hsource
  · exact List.mem_of_mem_filter hrepair

/-- **What a call does**: the epoch is refused before anything is changed, or its object is given to
the encoder of the block, and the datagrams of the block to the loop over them. -/
theorem encodeEpoch_eq_some {result : Except MultichannelAudioFecError EncodedMultichannelAudioEpoch}
    {encoder' : MultichannelAudioFecEncoder}
    (h : self.encodeEpoch X epoch = some (result, encoder')) :
    (∃ error, result = .error error ∧ encoder' = self) ∨
    ∃ geometry state sent fec' pool',
      self.config.geometryForGroups epoch.groups = .ok geometry ∧
      (EpochCut.mk epoch geometry).encodeObject = .ok state ∧
      ((self.fec.setSourceSymbols geometry.sourceSymbols).setSymbolSize
        geometry.symbolSize).encodeBlockWithRepairSymbols X state.1 self.config.repairSymbols none
          = some (sent, fec', pool') ∧
      encoder' = { self with fec := fec' } ∧
      result = (sent.mapError .fec).bind fun datagrams =>
        (datagrams.mapM (self.packetOf X epoch.sessionId geometry.sourceSymbols
          self.fec.blockId)).map (self.encodedOf epoch geometry) := by
  have hrefused : ∀ {error}, some (Except.error error, self) = some (result, encoder') →
      ∃ error, result = .error error ∧ encoder' = self := by
    intro error heq
    obtain ⟨rfl, rfl⟩ := Prod.mk.inj (Option.some.inj heq)
    exact ⟨error, rfl, rfl⟩
  rw [encodeEpoch] at h
  split_ifs at h
  · exact Or.inl (hrefused h)
  · exact Or.inl (hrefused h)
  · exact Or.inl (hrefused h)
  · exact Or.inl (hrefused h)
  cases hgroups : validateGroups epoch.groups with
  | error error =>
      rw [hgroups] at h
      exact Or.inl (hrefused h)
  | ok _ =>
  rw [hgroups] at h
  cases hgeometry : self.config.geometryForGroups epoch.groups with
  | error error =>
      rw [hgeometry] at h
      exact Or.inl (hrefused h)
  | ok geometry =>
  rw [hgeometry] at h
  simp only at h
  cases hobject : (EpochCut.mk epoch geometry).encodeObject with
  | error error =>
      rw [hobject] at h
      exact Or.inl (hrefused h)
  | ok state =>
  rw [hobject] at h
  simp only at h
  refine Or.inr ⟨geometry, state, ?_⟩
  rcases hblock : ((self.fec.setSourceSymbols geometry.sourceSymbols).setSymbolSize
      geometry.symbolSize).encodeBlockWithRepairSymbols X state.1 self.config.repairSymbols none with
    - | ⟨error | datagrams, fec', pool'⟩
  · rw [hblock] at h
    cases h
  · rw [hblock] at h
    obtain ⟨rfl, rfl⟩ := Prod.mk.inj (Option.some.inj h)
    exact ⟨_, fec', pool', rfl, hobject, rfl, rfl, rfl⟩
  · rw [hblock] at h
    obtain ⟨rfl, rfl⟩ := Prod.mk.inj (Option.some.inj h)
    exact ⟨_, fec', pool', rfl, hobject, rfl, rfl, rfl⟩

/-- A call that accepts the epoch. -/
lemma encodeEpoch_eq_ok_some {encoded : EncodedMultichannelAudioEpoch}
    {encoder' : MultichannelAudioFecEncoder}
    (h : self.encodeEpoch X epoch = some (.ok encoded, encoder')) :
    ∃ geometry state datagrams fec' pool' packets,
      self.config.geometryForGroups epoch.groups = .ok geometry ∧
      (EpochCut.mk epoch geometry).encodeObject = .ok state ∧
      ((self.fec.setSourceSymbols geometry.sourceSymbols).setSymbolSize
        geometry.symbolSize).encodeBlockWithRepairSymbols X state.1 self.config.repairSymbols none
          = some (.ok datagrams, fec', pool') ∧
      datagrams.mapM (self.packetOf X epoch.sessionId geometry.sourceSymbols self.fec.blockId)
        = .ok packets ∧
      encoded = self.encodedOf epoch geometry packets := by
  rcases encodeEpoch_eq_some h with ⟨error, hresult, -⟩ |
    ⟨geometry, state, sent, fec', pool', hgeometry, hobject, hblock, -, hresult⟩
  · cases hresult
  · obtain ⟨datagrams, hsent, hpackets⟩ := bind_eq_ok_iff.mp hresult.symm
    obtain rfl := mapError_eq_ok_iff.mp hsent
    obtain ⟨packets, hloop, rfl⟩ := map_eq_ok_iff.mp hpackets
    exact ⟨geometry, state, datagrams, fec', pool', packets, hgeometry, hobject, hblock, hloop, rfl⟩

end MultichannelAudioFecEncoder

/-! ## What the cut writes -/

instance : Inhabited MultichannelAudioGroup := ⟨⟨0, 0, 0, .pcm, .unspecified, 0, []⟩⟩

namespace EpochCut

variable (cut : EpochCut)

/-- The size of a symbol. -/
def size : ℕ := cut.geometry.symbolSize.toNat

/-- The fragments of all groups, in the order of their symbols. -/
def places : List FragmentPlace :=
  cut.epoch.groups.zipIdx.flatMap fun group =>
    (List.range (group.1.fragmentCount cut.geometry.fragmentPayload)).map fun i => (group, i)

/-- The number of fragments. -/
def count : ℕ := cut.places.length

/-- The fragment in a symbol. -/
def place (i : ℕ) : FragmentPlace := cut.places.getD i default

/-- The header in a symbol. -/
def headerAt (i : ℕ) : MultichannelAudioShardHeader := cut.header (cut.place i) i

/-- The bytes of the fragment in a symbol. -/
def payloadAt (i : ℕ) : Bytes :=
  (cut.place i).1.1.fragment cut.geometry.fragmentPayload (cut.place i).2

/-- The bytes of a symbol: the header, the fragment, and zeros. -/
def symbolAt (i : ℕ) : Bytes := padTo cut.size ((cut.headerAt i).headerBytes ++ cut.payloadAt i)

/-- The symbols of the epoch put together. -/
def object : Bytes := ((List.range cut.count).map cut.symbolAt).flatten

/-- The object and the symbol counter after `n` symbols. -/
def written (n : ℕ) : Bytes × ℕ :=
  (((List.range n).map cut.symbolAt).flatten
    ++ List.replicate ((cut.count - n) * cut.size) 0, n)

/-- One turn of the two loops, by the index of the symbol. -/
def encodePlace (state : Bytes × ℕ) (i : ℕ) : Except MultichannelAudioFecError (Bytes × ℕ) :=
  cut.encodeFragment (cut.place i).1 state (cut.place i).2

variable {cut}

/-- A fragment is a piece of its group. -/
lemma fragment_eq_piece (group : MultichannelAudioGroup) (size i : ℕ) :
    group.fragment size i = piece group.payload size i := by
  have hstop : (i + 1) * size = i * size + size := by rw [Nat.add_mul, Nat.one_mul]
  rw [MultichannelAudioGroup.fragment, piece, hstop]
  split_ifs with hlt
  · rw [slice, slice, List.take_eq_take_iff, List.length_drop]
    omega
  · rw [slice, List.drop_eq_nil_of_le (Nat.not_lt.mp hlt), List.take_nil]

lemma length_fragment_le (group : MultichannelAudioGroup) (size i : ℕ) :
    (group.fragment size i).length ≤ size := by
  rw [fragment_eq_piece, length_piece]
  exact Nat.min_le_left _ _

/-- The loop over the groups is one loop over all places, when no group has too many fragments. -/
lemma foldlM_encodeGroup {groups : List (MultichannelAudioGroup × ℕ)} {state : Bytes × ℕ}
    (h : ∀ group ∈ groups, group.1.fragmentCount cut.geometry.fragmentPayload < 2 ^ 16) :
    groups.foldlM cut.encodeGroup state
      = (groups.flatMap fun group =>
          (List.range (group.1.fragmentCount cut.geometry.fragmentPayload)).map fun i =>
            ((group, i) : FragmentPlace)).foldlM
        (fun state place => cut.encodeFragment place.1 state place.2) state := by
  induction groups generalizing state with
  | nil => rfl
  | cons group groups ih =>
      obtain ⟨hfirst, hrest⟩ := List.forall_mem_cons.mp h
      rw [List.foldlM_cons, List.flatMap_cons, List.foldlM_append, List.foldlM_map, encodeGroup,
        if_neg (Nat.not_le.mpr hfirst)]
      exact bind_congr fun _ => ih hrest

/-- Groups that are written have no more fragments than the header can count. -/
lemma fragmentCount_lt_of_foldlM {groups : List (MultichannelAudioGroup × ℕ)}
    {state state' : Bytes × ℕ}
    (h : groups.foldlM cut.encodeGroup state = .ok state') :
    ∀ group ∈ groups, group.1.fragmentCount cut.geometry.fragmentPayload < 2 ^ 16 := by
  induction groups generalizing state with
  | nil => exact List.forall_mem_nil _
  | cons group groups ih =>
      rw [List.foldlM_cons] at h
      obtain ⟨next, hgroup, hrest⟩ := bind_eq_ok_iff.mp h
      rw [encodeGroup] at hgroup
      split_ifs at hgroup with hmany
      exact List.forall_mem_cons.mpr ⟨Nat.not_le.mp hmany, ih hrest⟩

lemma map_place : (List.range cut.count).map cut.place = cut.places := by
  refine List.ext_getElem (by simp [count]) fun i h₁ h₂ => ?_
  rw [List.getElem_map, List.getElem_range, place, List.getD_eq_getElem _ _ h₂]

lemma rest_eq {n : ℕ} (hn : n < cut.count) :
    (cut.count - n) * cut.size = cut.size + (cut.count - (n + 1)) * cut.size := by
  rw [show cut.count - n = cut.count - (n + 1) + 1 by omega, Nat.add_mul, Nat.one_mul, Nat.add_comm]

/-- The object the loops end with. -/
lemma written_count : (cut.written cut.count).1 = cut.object := by
  rw [written, Nat.sub_self, Nat.zero_mul, List.replicate_zero, List.append_nil, object]

section Fits

variable {config : MultichannelAudioFecConfig}
  (fits : cut.geometry.Fits config cut.epoch.groups)

include fits

lemma count_eq : cut.count = cut.geometry.sourceSymbols.toNat := by
  rw [fits.sourceSymbols_eq, count, places, List.length_flatMap]
  have hgroups := congrArg (List.map fun group : MultichannelAudioGroup =>
    group.fragmentCount cut.geometry.fragmentPayload) (List.zipIdx_map_fst 0 cut.epoch.groups)
  rw [List.map_map] at hgroups
  simp only [List.length_map, List.length_range]
  exact congrArg List.sum hgroups

lemma size_eq : cut.size = 72 + cut.geometry.fragmentPayload := fits.symbolSize_eq

lemma length_payloadAt_le (i : ℕ) : (cut.payloadAt i).length ≤ cut.size - 72 := by
  rw [size_eq fits, Nat.add_sub_cancel_left]
  exact length_fragment_le _ _ _

lemma length_symbolAt (i : ℕ) : (cut.symbolAt i).length = cut.size := by
  have hle := length_payloadAt_le fits i
  have hsize := size_eq fits
  rw [symbolAt, padTo, List.length_append, List.length_replicate, List.length_append,
    MultichannelAudioShardHeader.length_headerBytes]
  omega

lemma toNat_payloadLen (i : ℕ) :
    (cut.headerAt i).payloadLen.toNat = (cut.payloadAt i).length := by
  have hle := length_payloadAt_le fits i
  have hsize : cut.size < 65536 := cut.geometry.symbolSize.toNat_lt
  exact UInt16.toNat_ofNat_of_lt' (by
    change (cut.payloadAt i).length < 65536
    omega)

lemma length_symbols (n : ℕ) :
    ((List.range n).map cut.symbolAt).flatten.length = n * cut.size := by
  rw [length_flatten_of_forall, List.length_map, List.length_range]
  intro symbol hsymbol
  obtain ⟨i, -, rfl⟩ := List.mem_map.mp hsymbol
  exact length_symbolAt fits i

/-- The symbol that is written next is all zeros. -/
lemma slice_written {n : ℕ} (hn : n < cut.count) :
    slice (cut.written n).1 (n * cut.size) (n * cut.size + cut.size)
      = List.replicate cut.size 0 := by
  have hfront := length_symbols fits n
  rw [written, slice_append_right (Nat.le_of_eq hfront), hfront, Nat.sub_self,
    Nat.add_sub_cancel_left, slice, List.drop_zero, Nat.sub_zero, rest_eq hn,
    List.replicate_add, List.take_left' (List.length_replicate ..)]

/-- One turn of the loops writes the next symbol when its header is valid. -/
lemma encodePlace_eq {n : ℕ} (hn : n < cut.count) (hvalid : (cut.headerAt n).Valid cut.size) :
    cut.encodePlace (cut.written n) n = .ok (cut.written (n + 1)) := by
  have hfront := length_symbols fits n
  have hencode : (cut.headerAt n).encode (List.replicate cut.size 0)
      = .ok ((cut.headerAt n).headerBytes ++ List.replicate (cut.size - 72) 0) := by
    rw [MultichannelAudioShardHeader.encode_eq_ok_iff, List.length_replicate, List.drop_replicate]
    exact ⟨hvalid, rfl⟩
  have hsymbol : writeAt ((cut.headerAt n).headerBytes ++ List.replicate (cut.size - 72) 0) 72
      (cut.payloadAt n) = cut.symbolAt n := by
    rw [writeAt_back MultichannelAudioShardHeader.length_headerBytes, List.drop_replicate, symbolAt,
      padTo, List.length_append, MultichannelAudioShardHeader.length_headerBytes, Nat.sub_sub]
  have hwrite : writeAt (cut.written n).1 (n * cut.size) (cut.symbolAt n)
      = (cut.written (n + 1)).1 := by
    rw [written, written, writeAt_back hfront, length_symbolAt fits, rest_eq hn,
      List.replicate_add, List.drop_left' (List.length_replicate ..), List.range_succ,
      List.map_append, List.flatten_append, List.map_singleton, List.flatten_singleton]
  change ((cut.headerAt n).encode (slice (cut.written n).1 (n * cut.size)
    (n * cut.size + cut.size)) >>= fun symbol => .ok (writeAt (cut.written n).1 (n * cut.size)
      (writeAt symbol multichannelAudioShardHeaderLen (cut.payloadAt n)), n + 1)) = _
  rw [slice_written fits hn, hencode, ok_bind, multichannelAudioShardHeaderLen, hsymbol, hwrite]
  rfl

/-- One turn of the loops writes the next symbol, whose header is valid. -/
lemma encodePlace_written {n : ℕ} (hn : n < cut.count) {state : Bytes × ℕ}
    (h : cut.encodePlace (cut.written n) n = .ok state) :
    state = cut.written (n + 1) ∧ (cut.headerAt n).Valid cut.size := by
  have hvalid : (cut.headerAt n).Valid cut.size := by
    obtain ⟨symbol, hencode, -⟩ := bind_eq_ok_iff.mp h
    change (cut.headerAt n).encode (slice (cut.written n).1 (n * cut.size)
      (n * cut.size + cut.size)) = .ok symbol at hencode
    rw [slice_written fits hn, MultichannelAudioShardHeader.encode_eq_ok_iff,
      List.length_replicate] at hencode
    exact hencode.1
  rw [encodePlace_eq fits hn hvalid] at h
  exact ⟨(Except.ok.inj h).symm, hvalid⟩

/-- The loops write all symbols when their headers are valid. -/
lemma foldlM_encodePlace {n : ℕ} (hn : n ≤ cut.count)
    (hvalid : ∀ i < n, (cut.headerAt i).Valid cut.size) :
    (List.range n).foldlM cut.encodePlace (cut.written 0) = .ok (cut.written n) := by
  induction n with
  | zero => rfl
  | succ n ih =>
      have hlast := encodePlace_eq fits (by omega) (hvalid n (Nat.lt_succ_self n))
      rw [List.range_succ, List.foldlM_append, ih (by omega) fun i hi => hvalid i (by omega),
        ok_bind, List.foldlM_cons, hlast, ok_bind]
      rfl

/-- The object the loops start from. -/
lemma written_zero : cut.written 0 = (List.replicate
    (cut.geometry.sourceSymbols.toNat * cut.geometry.symbolSize.toNat) 0, 0) := by
  rw [written, count_eq fits]
  rfl

/-- **What the loops write**: the symbols of all fragments, whose headers are valid. -/
theorem encodeObject_ok {state : Bytes × ℕ} (h : cut.encodeObject = .ok state) :
    state.1 = cut.object ∧ ∀ i < cut.count, (cut.headerAt i).Valid cut.size := by
  have hloop : ∀ n ≤ cut.count, ∀ state,
      (List.range n).foldlM cut.encodePlace (cut.written 0) = .ok state →
      state = cut.written n ∧ ∀ i < n, (cut.headerAt i).Valid cut.size := by
    intro n
    induction n with
    | zero => exact fun _ state hstate => ⟨(Except.ok.inj hstate).symm, by simp⟩
    | succ n ih =>
        intro hn state hstate
        rw [List.range_succ, List.foldlM_append] at hstate
        obtain ⟨next, hnext, hlast⟩ := bind_eq_ok_iff.mp hstate
        obtain ⟨rfl, hvalid⟩ := ih (by omega) next hnext
        rw [List.foldlM_cons] at hlast
        obtain ⟨last, hturn, hrest⟩ := bind_eq_ok_iff.mp hlast
        obtain rfl := Except.ok.inj hrest
        obtain ⟨rfl, hvalid'⟩ := encodePlace_written fits (by omega) hturn
        refine ⟨rfl, fun i hi => ?_⟩
        rcases Nat.lt_succ_iff_lt_or_eq.mp hi with hi | rfl
        · exact hvalid i hi
        · exact hvalid'
  have hplaces := (foldlM_encodeGroup (fragmentCount_lt_of_foldlM h)).symm.trans h
  change cut.places.foldlM _ _ = _ at hplaces
  rw [← map_place, List.foldlM_map, ← written_zero fits] at hplaces
  obtain ⟨rfl, hvalid⟩ := hloop cut.count le_rfl state hplaces
  exact ⟨written_count, hvalid⟩

/-- **The loops succeed** when the headers are valid and no group has too many fragments. -/
theorem encodeObject_eq (hvalid : ∀ i < cut.count, (cut.headerAt i).Valid cut.size)
    (hmany : ∀ group ∈ cut.epoch.groups,
      group.fragmentCount cut.geometry.fragmentPayload < 2 ^ 16) :
    cut.encodeObject = .ok (cut.object, cut.count) := by
  have hplaces : cut.encodeObject = cut.places.foldlM
      (fun state place => cut.encodeFragment place.1 state place.2) _ :=
    foldlM_encodeGroup fun group hgroup => hmany _ (List.fst_mem_of_mem_zipIdx hgroup)
  rw [hplaces, ← map_place, List.foldlM_map, ← written_zero fits]
  refine (foldlM_encodePlace fits le_rfl hvalid).trans (congrArg Except.ok ?_)
  exact Prod.ext written_count rfl

end Fits

end EpochCut
end RaptorFec
