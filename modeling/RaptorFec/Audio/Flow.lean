import RaptorFec.Audio.Honest

/-!
# What an encoder emits over many calls

One encoder is called any number of times, and its block id and its configuration may be set in
between.

* `encodeAll` — the epochs that the calls accept, each with what it was encoded to; every one of
  them is a transmission (`encodeAll_sent`);
* `encodeAll_blocks` — epochs with distinct block ids are sent as a set of audio blocks;
* `emitAll` — the datagrams of all these epochs, one after the other.
-/

namespace RaptorFec

/-- The calls on an audio encoder. -/
inductive AudioEncoderOp where
  | encode (epoch : MultichannelAudioEpoch)
  | setBlockId (blockId : UInt32)
  | setConfig (config : MultichannelAudioFecConfig)

/-- An epoch with what it was encoded to. -/
structure SentEpoch where
  epoch : MultichannelAudioEpoch
  encoded : EncodedMultichannelAudioEpoch

namespace SentEpoch

/-- The block id the epoch is sent under. -/
def blockId (sent : SentEpoch) : UInt32 := sent.encoded.blockId

/-- The datagrams of the epoch. -/
def datagrams (sent : SentEpoch) : List MultichannelAudioDatagram := sent.encoded.datagrams

variable {X : Crates}

/-- The epoch is sent as the datagrams of a transmission. -/
def IsSentAs (code : X.Systematic) (sent : SentEpoch) (T : AudioTransmission) : Prop :=
  ∃ encoder encoder', T.IsSent code encoder sent.epoch sent.encoded encoder'

variable {code : X.Systematic} {sent : SentEpoch} {T : AudioTransmission}
  {packet : MultichannelAudioDatagram}

lemma IsSentAs.blockId_eq (h : sent.IsSentAs code T) : sent.blockId = T.block.id := by
  obtain ⟨_, _, hsent⟩ := h
  exact hsent.blockId_eq

/-- The datagrams of the epoch carry the symbols of its block. -/
lemma IsSentAs.carries (h : sent.IsSentAs code T) (hpacket : packet ∈ sent.datagrams) :
    ∃ sequence esi, packet.blockId = T.block.id ∧
      Carries code T.block.toSourceBlock sequence esi packet.payload := by
  obtain ⟨_, _, hsent⟩ := h
  rw [datagrams, hsent.datagrams_eq] at hpacket
  obtain ⟨esi, hesi, rfl⟩ := List.mem_map.mp hpacket
  exact ⟨_, esi, rfl, AudioTransmission.carries (List.mem_range.mp hesi)⟩

end SentEpoch

namespace MultichannelAudioFecEncoder

/-- A write through `config_mut`. -/
def setConfig (self : MultichannelAudioFecEncoder) (config : MultichannelAudioFecConfig) :
    MultichannelAudioFecEncoder :=
  { self with config := config }

/-- The epochs that some calls accept, one call after the other, and the encoder after them;
`none` is a panic in one of the calls. -/
def encodeAll (X : Crates) : List AudioEncoderOp → MultichannelAudioFecEncoder →
    Option (List SentEpoch × MultichannelAudioFecEncoder)
  | [], self => some ([], self)
  | .encode epoch :: ops, self => do
      let encoded ← self.encodeEpoch X epoch
      let rest ← encodeAll X ops encoded.2
      some ((encoded.1.toOption.map (SentEpoch.mk epoch)).toList ++ rest.1, rest.2)
  | .setBlockId blockId :: ops, self => encodeAll X ops (self.setBlockId blockId)
  | .setConfig config :: ops, self => encodeAll X ops (self.setConfig config)

/-- The datagrams that some calls emit, one call after the other, and the encoder after them. -/
def emitAll (X : Crates) (ops : List AudioEncoderOp) (self : MultichannelAudioFecEncoder) :
    Option (List MultichannelAudioDatagram × MultichannelAudioFecEncoder) :=
  (encodeAll X ops self).map fun result => (result.1.flatMap SentEpoch.datagrams, result.2)

variable {X : Crates}

/-- **Every accepted epoch is sent as a transmission.** -/
theorem encodeAll_sent (code : X.Systematic) {ops : List AudioEncoderOp}
    {self : MultichannelAudioFecEncoder} {result : List SentEpoch × MultichannelAudioFecEncoder}
    (h : encodeAll X ops self = some result) :
    ∀ sent ∈ result.1, ∃ T : AudioTransmission, sent.IsSentAs code T := by
  induction ops generalizing self result with
  | nil =>
      obtain rfl := Option.some.inj h
      intro sent hsent
      cases hsent
  | cons op ops ih =>
      cases op with
      | setBlockId blockId => exact ih h
      | setConfig config => exact ih h
      | encode epoch =>
          obtain ⟨⟨outcome, next⟩, hencode, hrest⟩ := Option.bind_eq_some_iff.mp h
          obtain ⟨rest, hall, heq⟩ := Option.bind_eq_some_iff.mp hrest
          obtain rfl := Option.some.inj heq
          intro sent hsent
          rcases List.mem_append.mp hsent with hfirst | hlater
          · cases outcome with
            | error error => cases hfirst
            | ok encoded =>
                obtain rfl := List.mem_singleton.mp hfirst
                obtain ⟨T, hT⟩ := encodeEpoch_ok code hencode
                exact ⟨T, self, next, hT⟩
          · exact ih hall sent hlater

/-- **Epochs with distinct block ids are sent as a set of audio blocks**: every epoch has a block
in the set, and every block of the set an epoch. -/
theorem encodeAll_blocks (code : X.Systematic) {ops : List AudioEncoderOp}
    {self : MultichannelAudioFecEncoder} {result : List SentEpoch × MultichannelAudioFecEncoder}
    (h : encodeAll X ops self = some result) (hids : (result.1.map SentEpoch.blockId).Nodup) :
    ∃ A : AudioBlockSet,
      (∀ sent ∈ result.1, ∃ T : AudioTransmission, sent.IsSentAs code T ∧ T.block ∈ A) ∧
      ∀ block ∈ A, ∃ sent ∈ result.1, ∃ T : AudioTransmission, sent.IsSentAs code T ∧
        T.block = block := by
  choose T hT using encodeAll_sent code h
  refine ⟨⟨{block | ∃ sent, ∃ hsent : sent ∈ result.1, (T sent hsent).block = block}, ?_⟩,
    fun sent hsent => ⟨T sent hsent, hT sent hsent, sent, hsent, rfl⟩, ?_⟩
  · rintro _ ⟨sent, hsent, rfl⟩ _ ⟨sent', hsent', rfl⟩ hid
    have hsame : sent.blockId = sent'.blockId := by
      rw [(hT sent hsent).blockId_eq, (hT sent' hsent').blockId_eq]
      exact hid
    obtain rfl := List.inj_on_of_nodup_map hids hsent hsent' hsame
    rfl
  · rintro _ ⟨sent, hsent, rfl⟩
    exact ⟨sent, hsent, T sent hsent, hT sent hsent, rfl⟩

end MultichannelAudioFecEncoder

namespace MultichannelAudioFecDecoder

variable {X : Crates}

/-- A push of an encoder's datagram. -/
def pushPacket (self : MultichannelAudioFecDecoder X) (packet : MultichannelAudioDatagram) :
    Except MultichannelAudioFecError (List DecodedMultichannelAudioShard)
      × MultichannelAudioFecDecoder X :=
  self.pushDatagram packet.payload

/-- Datagrams of some epochs, picked by their numbers. -/
def picked (numbers : List ℕ) (sents : List SentEpoch) : List MultichannelAudioDatagram :=
  numbers.filterMap fun n => (sents.flatMap SentEpoch.datagrams)[n]?

lemma mem_picked {numbers : List ℕ} {sents : List SentEpoch} :
    ∀ packet ∈ picked numbers sents, ∃ sent ∈ sents, packet ∈ sent.datagrams := by
  intro packet hpacket
  obtain ⟨n, -, hget⟩ := List.mem_filterMap.mp hpacket
  exact List.mem_flatMap.mp (List.mem_of_getElem? hget)

end MultichannelAudioFecDecoder

end RaptorFec
