import RaptorFec.Audio.Flow
import RaptorFec.Audio.Recovery

/-!
# The statistics of a lossless flow

An audio encoder numbers its datagrams without a gap, whatever it is asked to do in between.  A
decoder that receives all of them in order should report no loss: nothing missing, nothing
reordered, and as many datagrams received as were pushed.  But the audio decoder ignores the
datagrams of a block it remembers as closed before the datagram decoder has seen their sequence
numbers, so that each of them opens a gap in the statistics.

* `Numbered` — datagrams numbered on, as those an encoder emits over its calls are
  (`numbered_emitAll`);
* `InOrder` — a sequence tracker that saw consecutive values;
* `statistics_exact_iff` — the statistics are exact after every push as long as no datagram is
  pushed whose block is remembered as closed;
* `statistics_miss_repair` — a single repair datagram breaks them.
-/

namespace RaptorFec

/-! ## Consecutive values -/

namespace SequenceTracker

/-- The tracker saw the `n` values from `first` on, in order. -/
structure InOrder (first : UInt32) (n : ℕ) (t : SequenceTracker) : Prop where
  received : t.stats.received.toNat = n
  missingCount : t.stats.missing = 0
  duplicateOrReordered : t.stats.duplicateOrReordered = 0
  missing : t.missing = ∅
  futureReceived : t.futureReceived = ∅
  nextExpected : t.nextExpected = none ∨ t.nextExpected = some (first + UInt32.ofNat n)

variable {first : UInt32} {n : ℕ} {t : SequenceTracker}

lemma inOrder_new (first : UInt32) : InOrder first 0 new :=
  ⟨rfl, rfl, rfl, rfl, rfl, Or.inl rfl⟩

/-- The next value keeps the order. -/
lemma InOrder.observe (h : InOrder first n t) (hn : n + 1 < 2 ^ 64) :
    InOrder first (n + 1) (t.observe (first + UInt32.ofNat n)).2 := by
  have hreceived : (satAdd t.stats.received 1).toNat = n + 1 := by
    have hone : (1 : UInt64).toNat = 1 := rfl
    rw [toNat_satAdd, h.received, hone]
    omega
  have hnext : first + UInt32.ofNat n + 1 = first + UInt32.ofNat (n + 1) := by
    rw [UInt32.ofNat_add, UInt32.add_assoc]
    rfl
  have hforward : (0 : UInt32) ≤ maxForward := by decide
  rcases h.nextExpected with hnone | hsome
  · simp only [SequenceTracker.observe, place, hnone, Option.getD_none, Option.isNone_none,
      Bool.true_or, Bool.not_true, Bool.or_false, if_true, h.missing, h.futureReceived,
      h.duplicateOrReordered, Bool.false_eq_true, if_false]
    exact ⟨hreceived, rfl, rfl, rfl, rfl, Or.inr (congrArg some hnext)⟩
  · simp only [SequenceTracker.observe, place, hsome, Option.getD_some, Option.isNone_some,
      Bool.false_or, sub_self, hforward, decide_true, Bool.not_true, if_true, h.missing,
      h.futureReceived, h.duplicateOrReordered, Bool.false_eq_true, if_false, reduceCtorEq,
      Finset.notMem_empty, advanceExpected, advanceLoop, Finset.erase_empty, Finset.card_empty,
      Bool.or_false]
    exact ⟨hreceived, rfl, rfl, rfl, rfl, Or.inr (congrArg some hnext)⟩

end SequenceTracker

/-! ## The numbers an encoder gives -/

namespace MultichannelAudioFecEncoder

variable {X : Crates} {code : X.Systematic}

/-- The datagrams are those of transmissions, numbered on from `first`. -/
def Numbered (code : X.Systematic) (first : UInt32) (packets : List MultichannelAudioDatagram) :
    Prop :=
  ∀ i packet, packets[i]? = some packet → ∃ (T : AudioTransmission) (esi : ℕ), esi < T.emitted ∧
    packet = T.packet code esi ∧ T.baseSequence + UInt32.ofNat esi = first + UInt32.ofNat i

lemma Numbered.append {first : UInt32} {packets more : List MultichannelAudioDatagram}
    (h : Numbered code first packets)
    (hmore : Numbered code (first + UInt32.ofNat packets.length) more) :
    Numbered code first (packets ++ more) := by
  intro i packet hpacket
  rcases Nat.lt_or_ge i packets.length with hlt | hge
  · rw [List.getElem?_append_left hlt] at hpacket
    exact h i packet hpacket
  · rw [List.getElem?_append_right hge] at hpacket
    obtain ⟨T, esi, hesi, heq, hsequence⟩ := hmore _ packet hpacket
    refine ⟨T, esi, hesi, heq, hsequence.trans ?_⟩
    rw [UInt32.add_assoc, ← UInt32.ofNat_add, Nat.add_sub_cancel' hge]

/-- The datagrams of one epoch. -/
lemma numbered_transmission (T : AudioTransmission) :
    Numbered code T.baseSequence ((List.range T.emitted).map (T.packet code)) := by
  intro i packet hpacket
  rw [List.getElem?_map, Option.map_eq_some_iff] at hpacket
  obtain ⟨esi, hesi, rfl⟩ := hpacket
  obtain ⟨hlt, rfl⟩ := List.getElem?_eq_some_iff.mp hesi
  rw [List.length_range] at hlt
  rw [List.getElem_range]
  exact ⟨T, i, hlt, rfl, rfl⟩

/-- The datagrams of the epochs that some calls accept. -/
lemma numbered_encodeAll (code : X.Systematic) {ops : List AudioEncoderOp}
    {self : MultichannelAudioFecEncoder} {result : List SentEpoch × MultichannelAudioFecEncoder}
    (h : encodeAll X ops self = some result) :
    Numbered code self.fec.packetSequence (result.1.flatMap SentEpoch.datagrams) := by
  induction ops generalizing self result with
  | nil =>
      obtain rfl := Option.some.inj h
      intro i packet hpacket
      cases hpacket
  | cons op ops ih =>
      cases op with
      | setBlockId blockId =>
          have hnumbered : Numbered code (self.setBlockId blockId).fec.packetSequence _ := ih h
          exact hnumbered
      | setConfig config =>
          have hnumbered : Numbered code (self.setConfig config).fec.packetSequence _ := ih h
          exact hnumbered
      | encode epoch =>
          obtain ⟨⟨outcome, next⟩, hencode, hrest⟩ := Option.bind_eq_some_iff.mp h
          obtain ⟨rest, hall, heq⟩ := Option.bind_eq_some_iff.mp hrest
          obtain rfl := Option.some.inj heq
          have hnumbered := ih hall
          rcases encodeEpoch_cases code hencode with ⟨error, rfl, -, -, hsequence⟩ |
            ⟨encoded, rfl, T, hsent⟩
          · rw [hsequence] at hnumbered
            exact hnumbered
          · rw [hsent.nextSequence_eq] at hnumbered
            have hdatagrams : SentEpoch.datagrams ⟨epoch, encoded⟩
                = (List.range T.emitted).map (T.packet code) := hsent.datagrams_eq
            change Numbered code _ (SentEpoch.datagrams ⟨epoch, encoded⟩
              ++ rest.1.flatMap SentEpoch.datagrams)
            rw [hdatagrams]
            refine Numbered.append ?_ ?_
            · rw [← hsent.baseSequence_eq]
              exact numbered_transmission T
            · rw [List.length_map, List.length_range]
              exact hnumbered

/-- **The datagrams of an encoder are numbered without a gap**, over all its calls. -/
theorem numbered_emitAll (code : X.Systematic) {ops : List AudioEncoderOp}
    {self : MultichannelAudioFecEncoder}
    {result : List MultichannelAudioDatagram × MultichannelAudioFecEncoder}
    (h : emitAll X ops self = some result) :
    Numbered code self.fec.packetSequence result.1 := by
  obtain ⟨sent, hall, rfl⟩ := Option.map_eq_some_iff.mp h
  exact numbered_encodeAll code hall

end MultichannelAudioFecEncoder

/-! ## What a decoder counts -/

/-- A datagram that opens is observed, whatever becomes of it. -/
lemma DatagramFecDecoder.sequenceTracker_pushDatagram {X : Crates} {self : DatagramFecDecoder X}
    {datagram : Bytes} {header : DatagramFecHeader} {packet : EncodingPacket}
    (h : Opens X datagram header packet) :
    (self.pushDatagram datagram).2.sequenceTracker
      = (self.sequenceTracker.observe header.packetSequence).2 := by
  have hpacket : ∀ decoder : DatagramFecDecoder X,
      (decoder.pushPacket header packet).2.sequenceTracker = decoder.sequenceTracker := by
    intro decoder
    rw [pushPacket]
    split_ifs
    · rfl
    · rfl
    · rfl
    · simp only
      split <;> rfl
  rw [self.pushDatagram_of_opens h]
  split_ifs
  · rfl
  · rw [hpacket]
    rfl

namespace MultichannelAudioFecDecoder

variable {X : Crates} {code : X.Systematic} {self : MultichannelAudioFecDecoder X}

lemma sequenceStats_observeInFlight (h : Queued self) (blockId : UInt32) :
    (self.observeInFlight blockId).fec.sequenceTracker = self.fec.sequenceTracker := by
  rcases observeInFlight_cases h blockId with ⟨-, heq⟩ | ⟨-, -, heq⟩ |
    ⟨-, oldest, rest, -, -, heq⟩
  · rw [heq]
  · rw [heq]
  · obtain ⟨completed, -, hremember⟩ :=
      rememberClosed_eq (self.evicted blockId oldest rest) h.completedOrder oldest
    rw [heq, hremember]
    rfl

lemma fec_completeBlock (h : Queued self) (header : DatagramFecHeader) (object : Bytes)
    (delivered : Finset UInt16) (output : List DecodedMultichannelAudioShard) :
    (self.completeBlock header object delivered output).2.fec = self.fec := by
  have hclose : ∀ delivered, ((self.setDelivered header.blockId delivered).closeBlock
      header.blockId).fec = self.fec := by
    intro delivered
    obtain ⟨completed, -, heq⟩ := closeBlock_eq (self.setDelivered header.blockId delivered)
      h.completedOrder header.blockId
    rw [heq]
    rfl
  rw [completeBlock]
  split_ifs
  · rfl
  · split
    · rfl
    · exact hclose _

/-- A datagram of a block that is not remembered as closed is counted. -/
lemma sequenceTracker_push (h : Queued self) {block : AudioBlock} {sequence : UInt32} {esi : ℕ}
    {datagram : Bytes} (hcarries : Carries code block.toSourceBlock sequence esi datagram)
    (hopen : block.id ∉ self.completed) :
    (self.pushDatagram datagram).2.fec.sequenceTracker
      = (self.fec.sequenceTracker.observe sequence).2 := by
  obtain ⟨header, hopens, hannounces, hsequence⟩ := hcarries.opens
  have hreads : Reads self datagram header (code.packet block.object block.symbolSize esi)
      (block.candidate esi) :=
    ⟨hopens, hannounces.blockId ▸ hopen,
      AudioBlock.sourceCandidate_packet hannounces hcarries.esi_lt⟩
  have hobserved : (self.fec.pushDatagram datagram).2.sequenceTracker
      = (self.fec.sequenceTracker.observe header.packetSequence).2 :=
    DatagramFecDecoder.sequenceTracker_pushDatagram hopens
  rw [hsequence] at hobserved
  rcases self.pushDatagram_cases_of_reads hreads with ⟨error, fec, hfec, hpush⟩ |
    ⟨fec, hfec, hpush⟩ | ⟨object, fec, hfec, hpush⟩
  · rw [hpush, ← hobserved, hfec]
  · rw [hpush, ← hobserved, hfec]
    exact sequenceStats_observeInFlight (h.withFec fec) header.blockId
  · rw [hpush, ← hobserved, hfec, fec_completeBlock (h.withFec fec)]

/-- The statistics after `count` datagrams of a flow without loss. -/
def ExactStats (count : ℕ) (stats : SequenceStats) : Prop :=
  stats.missing = 0 ∧ stats.duplicateOrReordered = 0 ∧ stats.received.toNat = count

/-- **When the statistics of a lossless flow are exact.**  An encoder is called any number of times,
its block id and its configuration set in between as one likes, and all datagrams it emits are
pushed in order into a fresh decoder.  After every push the statistics report nothing missing,
nothing reordered and as many datagrams received as were pushed, exactly as long as these are fewer
than `2 ^ 64` and no datagram is pushed whose block the decoder remembers as closed. -/
theorem statistics_exact_iff (code : X.Systematic) (encoder : MultichannelAudioFecEncoder)
    (ops : List AudioEncoderOp)
    {result : List MultichannelAudioDatagram × MultichannelAudioFecEncoder}
    (hrun : encoder.emitAll X ops = some result) :
    (EveryState pushPacket (new : MultichannelAudioFecDecoder X) result.1 fun past decoder =>
      ExactStats past.length decoder.sequenceStats) ↔
    EveryStep pushPacket (new : MultichannelAudioFecDecoder X) result.1 fun past decoder packet =>
      past.length + 1 < 2 ^ 64 ∧ packet.blockId ∉ decoder.completed := by
  have hnumbered := MultichannelAudioFecEncoder.numbered_emitAll code hrun
  refine everyState_iff_everyStep_of
    (fun past decoder => Bounded decoder ∧ SequenceTracker.InOrder encoder.fec.packetSequence
      past.length decoder.fec.sequenceTracker)
    (D := fun past packet => ∃ (T : AudioTransmission) (esi : ℕ), packet.blockId = T.block.id ∧
      Carries code T.block.toSourceBlock
        (encoder.fec.packetSequence + UInt32.ofNat past.length) esi packet.payload)
    ⟨bounded_configured [], SequenceTracker.inOrder_new _⟩ ?_ ?_ ?_ ?_
  · rintro past decoder ⟨-, horder⟩
    exact ⟨horder.missingCount, horder.duplicateOrReordered, horder.received⟩
  · rintro past decoder packet ⟨T, esi, hid, hcarries⟩ ⟨hbounded, horder⟩ ⟨hfew, hopen⟩
    have htracker := sequenceTracker_push hbounded.toQueued hcarries (hid ▸ hopen)
    refine ⟨hbounded.step (.push packet.payload), ?_⟩
    rw [List.length_append, List.length_singleton, pushPacket, htracker]
    exact horder.observe hfew
  · rintro past decoder packet ⟨T, esi, hid, hcarries⟩ ⟨-, horder⟩ hbad ⟨-, -, hreceived⟩
    rw [List.length_append, List.length_singleton] at hreceived
    by_cases hfew : past.length + 1 < 2 ^ 64
    · -- the datagram was ignored, and not counted
      have hclosed : packet.blockId ∈ decoder.completed := by
        by_contra hopen
        exact hbad ⟨hfew, hopen⟩
      rw [pushPacket, pushDatagram_ignored hcarries (hid ▸ hclosed)] at hreceived
      have hcount := horder.received
      have hsame : decoder.fec.sequenceTracker.stats.received.toNat = past.length + 1 := hreceived
      omega
    · have hlt := (decoder.pushPacket packet).2.sequenceStats.received.toNat_lt
      omega
  · intro past packet hpre
    obtain ⟨rest, hrest⟩ := hpre
    have hget : result.1[past.length]? = some packet := by
      rw [← hrest, List.append_assoc, List.getElem?_append_right (Nat.le_refl _), Nat.sub_self]
      rfl
    obtain ⟨T, esi, hesi, rfl, hsequence⟩ := hnumbered _ _ hget
    exact ⟨T, esi, rfl, hsequence ▸ AudioTransmission.carries hesi⟩

/-- The encoder without repair symbols. -/
def plainEncoder : MultichannelAudioFecEncoder := .new ⟨118, 0, 0, 256⟩

/-- Two epochs of two source datagrams each, and no repair: the statistics are exact throughout. -/
theorem statistics_exact_iff_two :
    ∃ result, plainEncoder.emitAll repetition [.encode sampleEpoch, .encode sampleEpoch]
        = some result ∧ result.1.length = 4 ∧
      EveryState pushPacket (new : MultichannelAudioFecDecoder repetition) result.1
        fun past decoder => ExactStats past.length decoder.sequenceStats := by
  have hchecks : (plainEncoder.emitAll repetition [.encode sampleEpoch, .encode sampleEpoch]).map
      (fun result => (result.1.length, checkSteps pushPacket
        (fun decoder packet => decide (packet.blockId ∉ decoder.completed))
        (new : MultichannelAudioFecDecoder repetition) result.1)) = some (4, true) := by
    decide +kernel
  obtain ⟨result, hrun, hresult⟩ := Option.map_eq_some_iff.mp hchecks
  obtain ⟨hlength, hopen⟩ := Prod.mk.inj hresult
  refine ⟨result, hrun, hlength, ?_⟩
  refine (statistics_exact_iff repetitionIdeal.toSystematic plainEncoder _ hrun).mpr ?_
  refine EveryStep.of_checkSteps hopen fun past decoder packet hpre hcheck => ?_
  have hle := hpre.length_le
  rw [List.length_append, List.length_singleton, hlength] at hle
  exact ⟨by omega, of_decide_eq_true hcheck⟩

/-- **A repair datagram opens a gap.**  The two source datagrams of an epoch complete its block; the
repair datagram behind them is ignored, and not counted. -/
theorem statistics_miss_repair :
    ¬ ∀ (X : Crates) (code : X.Ideal), code.Threshold →
      ∀ (encoder : MultichannelAudioFecEncoder) (ops : List AudioEncoderOp)
        (result : List MultichannelAudioDatagram × MultichannelAudioFecEncoder),
        encoder.emitAll X ops = some result →
        EveryState pushPacket (new : MultichannelAudioFecDecoder X) result.1 fun past decoder =>
          ExactStats past.length decoder.sequenceStats := by
  intro hall
  have hmiss : (sampleEncoder.emitAll repetition [.encode sampleEpoch]).map (fun result =>
      decide ((runState pushPacket (new : MultichannelAudioFecDecoder repetition)
        result.1).sequenceStats.received.toNat = result.1.length)) = some false := by
    decide +kernel
  obtain ⟨result, hrun, hresult⟩ := Option.map_eq_some_iff.mp hmiss
  have hexact := hall repetition repetitionIdeal repetitionIdeal_threshold sampleEncoder _ result
    hrun result.1 (List.prefix_refl _)
  exact of_decide_eq_false hresult hexact.2.2

end MultichannelAudioFecDecoder

end RaptorFec
