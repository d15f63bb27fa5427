import RaptorFec.Audio.Fragments
import RaptorFec.Crates.Repetition

/-!
# Every epoch that fits is encoded

The encoder checks an epoch before it cuts it, and again while it writes and while it sends.  The
later checks never fail on an epoch that passed the first ones.

**What is written.**  `AudioShard` is a shard as a receiver reads it.  `CutInto` says what the
shards of one group are, `Numbered` what all shards of an epoch are, and `EpochCut.numbered_shards`
that these are the shards of the cut.

**What is sent.**  `ShardsSent` says how the shards are found in the datagrams.

**That it is sent.**  `headerAt_valid` and `encodeEpoch_eq_ok` go through the checks in the order
the encoder makes them; `encodeEpoch_succeeds` puts the parts together.
-/

namespace RaptorFec

/-- A shard: its header and the bytes of its fragment. -/
abbrev AudioShard := MultichannelAudioShardHeader × Bytes

/-- The shards of one group: its fragments, in order. -/
structure MultichannelAudioGroup.CutInto (group : MultichannelAudioGroup)
    (shards : List AudioShard) : Prop where
  payload_eq : (shards.map Prod.snd).flatten = group.payload
  /-- An empty group has one empty fragment. -/
  of_empty : group.payload = [] → shards.map Prod.snd = [[]]
  indices : ∀ (f : ℕ) (shard : AudioShard), shards[f]? = some shard →
    shard.1.fragmentIndex.toNat = f ∧ shard.1.fragmentCount.toNat = shards.length
  offsets : ∀ (f : ℕ) (shard : AudioShard), shards[f]? = some shard →
    shard.1.payloadOffset.toNat = ((shards.take f).map Prod.snd).flatten.length ∧
      shard.1.payloadLen.toNat = shard.2.length ∧
      shard.1.groupPayloadLen.toNat = group.payload.length
  described : ∀ shard ∈ shards, shard.1.groupId = group.groupId ∧
    shard.1.channelStart = group.channelStart ∧ shard.1.channelCount = group.channelCount ∧
    shard.1.payloadKind = group.payloadKind ∧ shard.1.sampleFormat = group.sampleFormat ∧
    shard.1.flags = group.flags

/-- The shards of an epoch: numbered on over the groups, which follow each other in order. -/
structure MultichannelAudioEpoch.Numbered (epoch : MultichannelAudioEpoch)
    (shards : List AudioShard) : Prop where
  indices : ∀ (i : ℕ) (shard : AudioShard), shards[i]? = some shard →
    shard.1.sourceIndex.toNat = i ∧ shard.1.sourceCount.toNat = shards.length
  group_order : shards.Pairwise fun a b => a.1.groupIndex ≤ b.1.groupIndex
  in_groups : ∀ shard ∈ shards, shard.1.groupIndex.toNat < epoch.groups.length ∧
    shard.1.groupCount.toNat = epoch.groups.length
  groups : ∀ (g : ℕ) group, epoch.groups[g]? = some group →
    group.CutInto (shards.filter fun shard => shard.1.groupIndex.toNat = g)
  described : ∀ shard ∈ shards, shard.1.sessionId = epoch.sessionId ∧
    shard.1.configGeneration = epoch.configGeneration ∧ shard.1.epochId = epoch.epochId ∧
    shard.1.ptsSamples = epoch.ptsSamples ∧ shard.1.sampleRate = epoch.sampleRate ∧
    shard.1.frameCount = epoch.frameCount

/-- What `validate_group` checks. -/
lemma validateGroup_eq_ok {group : MultichannelAudioGroup} (h : validateGroup group = .ok ()) :
    group.channelCount ≠ 0 ∧
      ¬ (group.payloadKind = .flac ∧ group.sampleFormat = .unspecified) := by
  rw [validateGroup] at h
  split_ifs at h with hchannels hpcm hflac
  exact ⟨hchannels, hflac⟩

/-! ## The shards of a cut -/

namespace EpochCut

variable (cut : EpochCut)

/-- The shards of the cut, in the order of their symbols. -/
def shards : List AudioShard :=
  (List.range cut.count).map fun i => (cut.headerAt i, cut.payloadAt i)

/-- The symbols of one group. -/
def symbolsOf (g : ℕ) : List ℕ := (List.range cut.count).filter fun i => (cut.place i).1.2 = g

variable {cut} {config : MultichannelAudioFecConfig} {group : MultichannelAudioGroup} {g : ℕ}

/-- The places of one group are its fragments in order. -/
lemma filter_places (hgroup : cut.epoch.groups[g]? = some group) :
    cut.places.filter (fun place => place.1.2 = g)
      = (List.range (group.fragmentCount cut.geometry.fragmentPayload)).map ((group, g), ·) := by
  have hpart : ∀ tagged : MultichannelAudioGroup × ℕ,
      ((List.range (tagged.1.fragmentCount cut.geometry.fragmentPayload)).map
        ((tagged, ·) : ℕ → FragmentPlace)).filter (fun place => place.1.2 = g)
      = if tagged.2 = g then
          (List.range (tagged.1.fragmentCount cut.geometry.fragmentPayload)).map (tagged, ·)
        else [] := by
    intro tagged
    split_ifs with h <;> simp [h]
  have hone : cut.epoch.groups.zipIdx.filter (fun tagged => tagged.2 = g) = [(group, g)] :=
    filter_eq_singleton (f := Prod.snd) (List.nodup_zipIdx_map_snd _)
      (x := (group, g)) (List.mem_zipIdx_iff_getElem?.mpr hgroup)
  simp only [places, List.filter_flatMap, hpart]
  rw [flatMap_ite, hone, List.flatMap_singleton]

lemma map_place_symbolsOf (hgroup : cut.epoch.groups[g]? = some group) :
    (cut.symbolsOf g).map cut.place
      = (List.range (group.fragmentCount cut.geometry.fragmentPayload)).map ((group, g), ·) := by
  rw [← filter_places hgroup, ← map_place, List.filter_map]
  rfl

lemma length_symbolsOf (hgroup : cut.epoch.groups[g]? = some group) :
    (cut.symbolsOf g).length = group.fragmentCount cut.geometry.fragmentPayload := by
  simpa using congrArg List.length (map_place_symbolsOf hgroup)

/-- The symbol of a fragment of a group. -/
lemma place_of_symbolsOf (hgroup : cut.epoch.groups[g]? = some group) {f i : ℕ}
    (h : (cut.symbolsOf g)[f]? = some i) :
    cut.place i = ((group, g), f) ∧ f < group.fragmentCount cut.geometry.fragmentPayload := by
  have hplace : ((cut.symbolsOf g).map cut.place)[f]? = some (cut.place i) := by simp [h]
  rw [map_place_symbolsOf hgroup, List.getElem?_map] at hplace
  obtain ⟨f', hf, heq⟩ := Option.map_eq_some_iff.mp hplace
  obtain ⟨hlt, rfl⟩ := List.getElem?_eq_some_iff.mp hf
  rw [List.length_range] at hlt
  rw [List.getElem_range] at heq
  exact ⟨heq.symm, hlt⟩

lemma map_payloadAt_symbolsOf (hgroup : cut.epoch.groups[g]? = some group) :
    (cut.symbolsOf g).map cut.payloadAt
      = (List.range (group.fragmentCount cut.geometry.fragmentPayload)).map
        (group.fragment cut.geometry.fragmentPayload) := by
  have hmap := congrArg (List.map fun place : FragmentPlace =>
    place.1.1.fragment cut.geometry.fragmentPayload place.2) (map_place_symbolsOf hgroup)
  rw [List.map_map, List.map_map] at hmap
  exact hmap

section Fits

variable (fits : cut.geometry.Fits config cut.epoch.groups) {i : ℕ}

include fits

lemma toNat_groupCount : cut.groupCount.toNat = cut.epoch.groups.length :=
  UInt16.toNat_ofNat_of_lt' (length_groups_lt fits)

lemma toNat_groupIndex (hi : i < cut.count) :
    (cut.headerAt i).groupIndex.toNat = (cut.place i).1.2 :=
  UInt16.toNat_ofNat_of_lt' (Nat.lt_trans (place_lt hi) (length_groups_lt fits))

lemma toNat_fragmentIndex (hi : i < cut.count) :
    (cut.headerAt i).fragmentIndex.toNat = (cut.place i).2 :=
  UInt16.toNat_ofNat_of_lt'
    (Nat.lt_trans (place_spec hi).2 (fragmentCount_lt fits (place_mem hi)))

lemma toNat_fragmentCount (hi : i < cut.count) : (cut.headerAt i).fragmentCount.toNat
    = (cut.place i).1.1.fragmentCount cut.geometry.fragmentPayload :=
  UInt16.toNat_ofNat_of_lt' (fragmentCount_lt fits (place_mem hi))

lemma toNat_groupPayloadLen (hi : i < cut.count) :
    (cut.headerAt i).groupPayloadLen.toNat = (cut.place i).1.1.payload.length :=
  UInt32.toNat_ofNat_of_lt' (length_payload_lt fits (place_mem hi))

lemma toNat_sourceIndex (hi : i < cut.count) : (cut.headerAt i).sourceIndex.toNat = i := by
  have hcount : cut.count < 2 ^ 16 := by
    rw [count_eq fits]
    exact cut.geometry.sourceSymbols.toNat_lt
  exact UInt16.toNat_ofNat_of_lt' (Nat.lt_trans hi hcount)

/-- **The shard headers are valid** when the groups are. -/
theorem headerAt_valid (hframes : cut.epoch.frameCount ≠ 0) (hrate : cut.epoch.sampleRate ≠ 0)
    (hgroups : ∀ group ∈ cut.epoch.groups, validateGroup group = .ok ()) (hi : i < cut.count) :
    (cut.headerAt i).Valid cut.size where
  frameCount_ne := hframes
  sampleRate_ne := hrate
  format := (validateGroup_eq_ok (hgroups _ (place_mem hi))).2
  groupIndex_lt := by
    rw [UInt16.lt_iff_toNat_lt, toNat_groupIndex fits hi]
    exact (place_lt hi).trans_eq (toNat_groupCount fits).symm
  channelCount_ne := (validateGroup_eq_ok (hgroups _ (place_mem hi))).1
  fragmentIndex_lt := by
    rw [UInt16.lt_iff_toNat_lt, toNat_fragmentIndex fits hi, toNat_fragmentCount fits hi]
    exact (place_spec hi).2
  sourceIndex_lt := by
    rw [UInt16.lt_iff_toNat_lt, toNat_sourceIndex fits hi]
    exact hi.trans_eq (count_eq fits)
  payload_in_group := by
    have hoffset : (cut.headerAt i).payloadOffset.toNat = _ :=
      toNat_payloadOffset fits (place_mem hi) (place_spec hi).2
    have hcover := (fragments_cover fits (cut.place i).1.1).2
    have hle : (cut.place i).2 * cut.geometry.fragmentPayload ≤ _ * cut.geometry.fragmentPayload :=
      Nat.mul_le_mul_right _ (Nat.le_sub_one_of_lt (place_spec hi).2)
    have hlen : (cut.payloadAt i).length = min cut.geometry.fragmentPayload
        ((cut.place i).1.1.payload.length - (cut.place i).2 * cut.geometry.fragmentPayload) := by
      rw [payloadAt, fragment_eq_piece, length_piece]
    rw [hoffset, toNat_payloadLen fits, toNat_groupPayloadLen fits hi]
    omega
  payload_in_symbol := by
    have hle := length_payloadAt_le fits i
    have hsize := size_eq fits
    rw [toNat_payloadLen fits, multichannelAudioShardHeaderLen]
    omega

/-- The groups follow each other in order. -/
lemma pairwise_groupIndex :
    cut.shards.Pairwise fun a b => a.1.groupIndex ≤ b.1.groupIndex := by
  have htagged : cut.epoch.groups.zipIdx.Pairwise fun a b => a.2 < b.2 := by
    rw [← List.pairwise_map (f := Prod.snd) (R := (· < ·)), List.zipIdx_map_snd]
    exact List.pairwise_lt_range'
  have hplaces : cut.places.Pairwise fun a b => a.1.2 ≤ b.1.2 := by
    refine List.pairwise_flatMap.mpr ⟨fun tagged _ => ?_, htagged.imp fun {a b} hlt x hx y hy => ?_⟩
    · exact List.pairwise_map.mpr (List.pairwise_of_forall fun _ _ => Nat.le_refl _)
    · obtain ⟨_, -, rfl⟩ := List.mem_map.mp hx
      obtain ⟨_, -, rfl⟩ := List.mem_map.mp hy
      exact Nat.le_of_lt hlt
  rw [← map_place, List.pairwise_map] at hplaces
  refine List.pairwise_map.mpr (hplaces.imp_of_mem fun {a b} ha hb hle => ?_)
  simp only [UInt16.le_iff_toNat_le, toNat_groupIndex fits (List.mem_range.mp ha),
    toNat_groupIndex fits (List.mem_range.mp hb), hle]

/-- The shards of one group. -/
lemma filter_shards (g : ℕ) :
    cut.shards.filter (fun shard => shard.1.groupIndex.toNat = g)
      = (cut.symbolsOf g).map fun i => (cut.headerAt i, cut.payloadAt i) := by
  rw [shards, List.filter_map, symbolsOf]
  refine congrArg (List.map _) (List.filter_congr fun i hi => ?_)
  simp [toNat_groupIndex fits (List.mem_range.mp hi)]

/-- The fragments in front of one of them are full. -/
lemma length_fragments (group : MultichannelAudioGroup) {f : ℕ}
    (hf : f < group.fragmentCount cut.geometry.fragmentPayload) :
    ((List.range f).map (group.fragment cut.geometry.fragmentPayload)).flatten.length
      = f * cut.geometry.fragmentPayload := by
  rw [length_flatten_of_forall, List.length_map, List.length_range]
  intro payload hpayload
  obtain ⟨f', hf', rfl⟩ := List.mem_map.mp hpayload
  rw [List.mem_range] at hf'
  exact length_fragment fits (by omega)

/-- **The shards of a group cut it.** -/
theorem cutInto_shards (hgroup : cut.epoch.groups[g]? = some group) :
    group.CutInto (cut.shards.filter fun shard => shard.1.groupIndex.toNat = g) := by
  rw [filter_shards fits]
  have hmem : group ∈ cut.epoch.groups := List.mem_of_getElem? hgroup
  have hpayloads : ((cut.symbolsOf g).map fun i => (cut.headerAt i, cut.payloadAt i)).map Prod.snd
      = (List.range (group.fragmentCount cut.geometry.fragmentPayload)).map
        (group.fragment cut.geometry.fragmentPayload) := by
    rw [List.map_map, ← map_payloadAt_symbolsOf hgroup]
    rfl
  have hsymbol : ∀ {f : ℕ} {shard : AudioShard},
      ((cut.symbolsOf g).map fun i => (cut.headerAt i, cut.payloadAt i))[f]? = some shard →
      ∃ i, i < cut.count ∧ cut.place i = ((group, g), f) ∧
        f < group.fragmentCount cut.geometry.fragmentPayload ∧
        shard = (cut.headerAt i, cut.payloadAt i) := by
    intro f shard hshard
    rw [List.getElem?_map] at hshard
    obtain ⟨i, hi, rfl⟩ := Option.map_eq_some_iff.mp hshard
    obtain ⟨hplace, hf⟩ := place_of_symbolsOf hgroup hi
    have hrange := (List.mem_filter.mp (List.mem_of_getElem? hi)).1
    exact ⟨i, List.mem_range.mp hrange, hplace, hf, rfl⟩
  constructor
  · rw [hpayloads, ← flatten_pieces (fragments_cover fits group).1]
    exact congrArg List.flatten (List.map_congr_left fun f _ => fragment_eq_piece group _ f)
  · intro hempty
    have hone : group.fragmentCount cut.geometry.fragmentPayload = 1 := by
      have hcover := (fragments_cover fits group).2
      have hpos := fragmentCount_pos fits group
      have hsize := fits.fragmentPayload_pos
      rw [hempty, List.length_nil, Nat.le_zero, Nat.mul_eq_zero] at hcover
      omega
    rw [hpayloads, hone]
    simp [fragment_eq_piece, hempty]
  · intro f shard hshard
    obtain ⟨i, hi, hplace, -, rfl⟩ := hsymbol hshard
    rw [toNat_fragmentIndex fits hi, toNat_fragmentCount fits hi, hplace, List.length_map,
      length_symbolsOf hgroup]
    exact ⟨rfl, rfl⟩
  · intro f shard hshard
    obtain ⟨i, hi, hplace, hf, rfl⟩ := hsymbol hshard
    have hoffset : (cut.headerAt i).payloadOffset.toNat = f * cut.geometry.fragmentPayload := by
      rw [headerAt, hplace]
      exact toNat_payloadOffset fits hmem hf
    rw [List.map_take, hpayloads, ← List.map_take, List.take_range, Nat.min_eq_left (Nat.le_of_lt hf),
      length_fragments fits group hf, toNat_groupPayloadLen fits hi, hplace]
    exact ⟨hoffset, toNat_payloadLen fits i, rfl⟩
  · intro shard hshard
    obtain ⟨f, hf⟩ := List.mem_iff_getElem?.mp hshard
    obtain ⟨i, -, hplace, -, rfl⟩ := hsymbol hf
    rw [headerAt, hplace]
    exact ⟨rfl, rfl, rfl, rfl, rfl, rfl⟩

/-- **The shards of the cut are the shards of the epoch.** -/
theorem numbered_shards : cut.epoch.Numbered cut.shards := by
  have hlen : cut.shards.length = cut.count := by simp [shards]
  have hsymbol : ∀ {shard}, shard ∈ cut.shards →
      ∃ i < cut.count, shard = (cut.headerAt i, cut.payloadAt i) := by
    intro shard hshard
    obtain ⟨i, hi, rfl⟩ := List.mem_map.mp hshard
    exact ⟨i, List.mem_range.mp hi, rfl⟩
  constructor
  · intro i shard hshard
    obtain ⟨hi, rfl⟩ := List.getElem?_eq_some_iff.mp hshard
    rw [hlen] at hi
    have hshard : cut.shards[i] = (cut.headerAt i, cut.payloadAt i) := by simp [shards]
    rw [hshard, hlen, toNat_sourceIndex fits hi, count_eq fits]
    exact ⟨rfl, rfl⟩
  · exact pairwise_groupIndex fits
  · intro shard hshard
    obtain ⟨i, hi, rfl⟩ := hsymbol hshard
    exact ⟨(toNat_groupIndex fits hi).trans_lt (place_lt hi), toNat_groupCount fits⟩
  · intro g group hgroup
    exact cutInto_shards fits hgroup
  · intro shard hshard
    obtain ⟨i, hi, rfl⟩ := hsymbol hshard
    exact ⟨rfl, rfl, rfl, rfl, rfl, rfl⟩

end Fits

end EpochCut

/-! ## The datagrams of an epoch -/

/-- A receiver that opens the datagram finds the shard. -/
def CarriesShard (X : Crates) (datagram : Bytes) (shard : AudioShard) : Prop :=
  ∃ header serialized, DatagramFecHeader.decode datagram = .ok header ∧
    header.payload X datagram = .ok serialized ∧
    MultichannelAudioShardHeader.decode (X.deserialize serialized).data = .ok shard.1 ∧
    shard.1.payload (X.deserialize serialized).data = .ok shard.2

/-- The datagrams of an epoch: one for each shard, in order, then the repair datagrams. -/
structure EncodedMultichannelAudioEpoch.ShardsSent (X : Crates) (config : MultichannelAudioFecConfig)
    (encoded : EncodedMultichannelAudioEpoch) (shards : List AudioShard) : Prop where
  sourceSymbols_eq : encoded.sourceSymbols.toNat = shards.length
  length_eq : encoded.datagrams.length = shards.length + config.repairSymbols.toNat
  sources : ∀ (i : ℕ) (shard : AudioShard), shards[i]? = some shard →
    ∃ packet, encoded.datagrams[i]? = some packet ∧ packet.role = .source (UInt16.ofNat i) ∧
      CarriesShard X packet.payload shard
  repairs : ∀ (i : ℕ) (packet : MultichannelAudioDatagram), shards.length ≤ i →
    encoded.datagrams[i]? = some packet → packet.role = .repair (UInt32.ofNat i)
  within_budget : ∀ packet ∈ encoded.datagrams,
    packet.payload.length + config.transportOverhead ≤ config.maxDatagramSize

/-- What a caller checks before it hands an epoch to the encoder. -/
structure MultichannelAudioEpoch.Encodable (epoch : MultichannelAudioEpoch)
    (config : MultichannelAudioFecConfig) (geometry : MultichannelAudioFecGeometry) : Prop where
  geometry_eq : config.geometryForGroups epoch.groups = .ok geometry
  sourceSymbols_le : geometry.sourceSymbols.toNat ≤ 56403
  symbols_le : geometry.sourceSymbols.toNat + config.repairSymbols.toNat ≤ 2 ^ 24
  frameCount_ne : epoch.frameCount ≠ 0
  sampleRate_ne : epoch.sampleRate ≠ 0
  groups_pos : 1 ≤ epoch.groups.length
  groups_le : epoch.groups.length ≤ 65535
  groups_valid : ∀ group ∈ epoch.groups, validateGroup group = .ok ()
  payloads_le : ∀ group ∈ epoch.groups, group.payload.length ≤ u32Max

section Sent

variable {X : Crates} {code : X.Systematic} {encoder encoder' : MultichannelAudioFecEncoder}
  {epoch : MultichannelAudioEpoch} {encoded : EncodedMultichannelAudioEpoch}

/-- The datagram of a source symbol carries its shard. -/
lemma AudioTransmission.carriesShard {T : AudioTransmission} {i : ℕ}
    (hi : i < T.block.sourceSymbols) :
    CarriesShard X (T.datagram code i) (T.block.shardHeader i, T.block.shardPayload i) := by
  have hemitted : i < T.emitted := Nat.lt_of_lt_of_le hi (Nat.le_add_right _ _)
  have hcarries : Carries code T.block.toSourceBlock (T.baseSequence + UInt32.ofNat i) i
      (T.datagram code i) := AudioTransmission.carries hemitted
  obtain ⟨header, hdecode, hpayload, -⟩ := hcarries.found
  refine ⟨header, _, hdecode, hpayload, ?_⟩
  rw [code.deserialize_packet _ _ hcarries.esi_lt, Crates.Systematic.packet,
    T.block.symbol_source code hi]
  exact ⟨T.block.decode_piece i hi, T.block.payload_piece i hi⟩

/-- The shards of a sent epoch are found in its datagrams. -/
theorem AudioTransmission.IsSent.shardsSent {T : AudioTransmission}
    (hsent : T.IsSent code encoder epoch encoded encoder')
    (hencode : encoder.encodeEpoch X epoch = some (.ok encoded, encoder')) :
    ∃ geometry, encoder.config.geometryForGroups epoch.groups = .ok geometry ∧
      (EpochCut.mk epoch geometry).shards.length = geometry.sourceSymbols.toNat ∧
      encoded.ShardsSent X encoder.config (EpochCut.mk epoch geometry).shards := by
  obtain ⟨geometry, hgeometry, hsymbols, hheaders, hpayloads⟩ := hsent.cut
  have fits : (EpochCut.mk epoch geometry).geometry.Fits encoder.config
      (EpochCut.mk epoch geometry).epoch.groups :=
    MultichannelAudioFecConfig.geometryForGroups_fits hgeometry
  have hlen : (EpochCut.mk epoch geometry).shards.length = T.block.sourceSymbols := by
    simp [EpochCut.shards, hsymbols]
  have hpacket : ∀ i < T.emitted, encoded.datagrams[i]? = some (T.packet code i) := by
    intro i hi
    simp [hsent.datagrams_eq, hi]
  refine ⟨geometry, hgeometry, ?_, ?_⟩
  · rw [hlen, hsymbols, EpochCut.count_eq fits]
  constructor
  · rw [hsent.sourceSymbols_eq, hlen]
  · rw [hsent.datagrams_eq, hlen, List.length_map, List.length_range, AudioTransmission.emitted,
      hsent.repair_eq]
  · intro i shard hshard
    obtain ⟨hi, rfl⟩ := List.getElem?_eq_some_iff.mp hshard
    rw [hlen] at hi
    have hshard : (EpochCut.mk epoch geometry).shards[i]
        = (T.block.shardHeader i, T.block.shardPayload i) := by
      simp [EpochCut.shards, hheaders, hpayloads]
    rw [hshard]
    refine ⟨_, hpacket i (Nat.lt_of_lt_of_le hi (Nat.le_add_right _ _)), ?_, ?_⟩
    · exact if_pos hi
    · exact AudioTransmission.carriesShard hi
  · intro i packet hi hget
    rw [hlen] at hi
    have hlt : i < T.emitted := by
      have hlt := (List.getElem?_eq_some_iff.mp hget).1
      simpa [hsent.datagrams_eq] using hlt
    rw [hpacket i hlt] at hget
    obtain rfl := Option.some.inj hget
    exact if_neg (Nat.not_lt.mpr hi)
  · intro packet hpacket
    obtain ⟨datagram, hpass⟩ := (encodeEpoch_packets hencode).2 packet hpacket
    exact packetOf_within hpass

/-- The loop over the groups lets valid groups pass. -/
lemma validateGroups_eq_ok {groups : List MultichannelAudioGroup}
    (hvalid : ∀ group ∈ groups, validateGroup group = .ok ())
    (hlen : ∀ group ∈ groups, group.payload.length ≤ u32Max) : validateGroups groups = .ok () := by
  induction groups with
  | nil => rfl
  | cons group groups ih =>
      rw [List.forall_mem_cons] at hvalid hlen
      rw [validateGroups, hvalid.1, ok_bind, if_neg (Nat.not_lt.mpr hlen.1), ih hvalid.2 hlen.2]

/-- The encoder is set to the geometry of the epoch when it gets the object. -/
lemma maxPayloadLen_of_fits {cut : EpochCut} {config : MultichannelAudioFecConfig}
    (fits : cut.geometry.Fits config cut.epoch.groups) (fec : DatagramFecEncoder) :
    ((fec.setSourceSymbols cut.geometry.sourceSymbols).setSymbolSize
      cut.geometry.symbolSize).config.maxPayloadLen = cut.object.length := by
  have hsource := max_one_eq fits.sourceSymbols_pos
  have hsize := max_one_eq (EpochCut.symbolSize_pos fits)
  rw [EpochCut.length_object fits]
  simp only [DatagramFecEncoder.setSourceSymbols, DatagramFecEncoder.setSymbolSize,
    DatagramFecConfig.maxPayloadLen, hsource, hsize]
  rw [Nat.max_eq_left fits.sourceSymbols_pos, Nat.max_eq_left (EpochCut.symbolSize_pos fits)]

/-- **No check fails**: an epoch that passed the first ones is encoded. -/
theorem encodeEpoch_eq_ok (code : X.Systematic) {geometry : MultichannelAudioFecGeometry}
    (h : epoch.Encodable encoder.config geometry) :
    ∃ encoded encoder', encoder.encodeEpoch X epoch = some (.ok encoded, encoder') := by
  have fits : (EpochCut.mk epoch geometry).geometry.Fits encoder.config
      (EpochCut.mk epoch geometry).epoch.groups :=
    MultichannelAudioFecConfig.geometryForGroups_fits h.geometry_eq
  have hvalid : ∀ i < (EpochCut.mk epoch geometry).count, _ := fun i hi =>
    EpochCut.headerAt_valid fits h.frameCount_ne h.sampleRate_ne h.groups_valid hi
  have hcount := EpochCut.count_eq fits
  have hsymbols := EpochCut.symbolsFor_object fits
  rw [hcount] at hsymbols
  have one : OneBlock (EpochCut.mk epoch geometry).object geometry.symbolSize :=
    ⟨EpochCut.object_ne_nil fits, EpochCut.symbolSize_pos fits, hsymbols.trans_le h.sourceSymbols_le⟩
  -- the transmission of the object
  let T : AudioTransmission :=
    { block := EpochCut.block ⟨epoch, geometry⟩ encoder.fec.blockId one fits hvalid
      sessionId := epoch.sessionId
      baseSequence := encoder.fec.packetSequence
      repair := encoder.config.repairSymbols.toNat
      limit := by
        rw [SourceBlock.sourceSymbols]
        exact (congrArg (· + _) hsymbols).trans_le h.symbols_le }
  have hsource : T.block.sourceSymbols = geometry.sourceSymbols.toNat := hsymbols
  obtain ⟨fec', pool', hblock⟩ : ∃ fec' pool',
      ((encoder.fec.setSourceSymbols geometry.sourceSymbols).setSymbolSize
        geometry.symbolSize).encodeBlockWithRepairSymbols X (EpochCut.mk epoch geometry).object
        encoder.config.repairSymbols none
      = some (.ok ((List.range T.emitted).map fun esi =>
          T.block.datagram code (T.baseSequence + UInt32.ofNat esi) esi), fec', pool') := by
    have hsize := max_one_eq (EpochCut.symbolSize_pos fits)
    exact ⟨_, encodeBlockWithRepairSymbols_eq code T.block.toSourceBlock none rfl hsize.symm
      (maxPayloadLen_of_fits fits encoder.fec).ge T.limit⟩
  have hloop : ((List.range T.emitted).map fun esi =>
      T.block.datagram code (T.baseSequence + UInt32.ofNat esi) esi).mapM
        (encoder.packetOf X epoch.sessionId geometry.sourceSymbols encoder.fec.blockId)
      = .ok ((List.range T.emitted).map (T.packet code)) :=
    mapM_packetOf (T := T) hsource fits.within_budget
  have hgroups : epoch.groups ≠ [] := List.ne_nil_of_length_pos h.groups_pos
  have hmany : ¬ 2 ^ 16 ≤ epoch.groups.length := Nat.not_le.mpr (Nat.lt_succ_of_le h.groups_le)
  rw [MultichannelAudioFecEncoder.encodeEpoch, if_neg h.frameCount_ne, if_neg h.sampleRate_ne,
    if_neg hgroups, if_neg hmany, validateGroups_eq_ok h.groups_valid h.payloads_le]
  simp only [h.geometry_eq, EpochCut.encodeObject_eq fits hvalid fun group hgroup =>
    EpochCut.fragmentCount_lt fits hgroup]
  simp only [hblock, hloop]
  exact ⟨_, _, rfl⟩

/-- **Every epoch that fits is encoded**, into the shards of its groups; an epoch that is refused
is not counted. -/
theorem encodeEpoch_succeeds (code : X.Systematic) (encoder : MultichannelAudioFecEncoder)
    (epoch : MultichannelAudioEpoch) :
    (∀ geometry, epoch.Encodable encoder.config geometry →
      ∃ encoded encoder' shards, encoder.encodeEpoch X epoch = some (.ok encoded, encoder') ∧
        shards.length = geometry.sourceSymbols.toNat ∧ epoch.Numbered shards ∧
        encoded.ShardsSent X encoder.config shards) ∧
    ∀ error encoder', encoder.encodeEpoch X epoch = some (.error error, encoder') →
      encoder'.fec.blockId = encoder.fec.blockId ∧
        encoder'.fec.packetSequence = encoder.fec.packetSequence := by
  constructor
  · intro geometry h
    obtain ⟨encoded, encoder', hencode⟩ := encodeEpoch_eq_ok code h
    obtain ⟨T, hT⟩ := encodeEpoch_ok code hencode
    obtain ⟨geometry', hgeometry, hlen, hsent⟩ := hT.shardsSent hencode
    obtain rfl := Except.ok.inj (h.geometry_eq.symm.trans hgeometry)
    have hnumbered :
        (EpochCut.mk epoch geometry).epoch.Numbered (EpochCut.mk epoch geometry).shards :=
      EpochCut.numbered_shards (MultichannelAudioFecConfig.geometryForGroups_fits hgeometry)
    exact ⟨encoded, encoder', _, hencode, hlen, hnumbered, hsent⟩
  · intro error encoder' h
    rcases encodeEpoch_cases code h with ⟨_, -, -, hid, hsequence⟩ | ⟨encoded, hresult, -⟩
    · exact ⟨hid, hsequence⟩
    · cases hresult

end Sent

/-! ### An epoch with an empty group -/

/-- Three bytes of one group, and a group that was lost before it got here. -/
def erasedEpoch : MultichannelAudioEpoch where
  sessionId := 7
  configGeneration := 1
  epochId := 5
  ptsSamples := 480
  sampleRate := 48000
  frameCount := 480
  groups := [⟨9, 0, 2, .opus, .unspecified, 0, [1, 2, 3]⟩, ⟨4, 2, 2, .opus, .unspecified, 0, []⟩]

/-- An encoder with room for two bytes in a fragment, and one repair symbol. -/
def erasedEncoder : MultichannelAudioFecEncoder := .new ⟨118, 0, 1, 256⟩

/-- It cuts the epoch into three shards. -/
lemma erasedEpoch_encodable : erasedEpoch.Encodable erasedEncoder.config ⟨74, 2, 3, 354⟩ := by
  constructor <;> decide +kernel

theorem encodeEpoch_succeeds_erased :
    ∃ encoded encoder' shards,
      erasedEncoder.encodeEpoch repetition erasedEpoch = some (.ok encoded, encoder') ∧
      shards.length = 3 ∧ erasedEpoch.Numbered shards ∧
      encoded.ShardsSent repetition erasedEncoder.config shards :=
  (encodeEpoch_succeeds repetitionIdeal.toSystematic erasedEncoder erasedEpoch).1 _
    erasedEpoch_encodable

end RaptorFec
