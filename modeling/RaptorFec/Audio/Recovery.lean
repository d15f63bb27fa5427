import RaptorFec.Audio.Honest

/-!
# An epoch is recovered exactly

The datagrams of one epoch, any of them, in any order and any number of times, are pushed into a
fresh decoder.

* `EpochRun` — what the decoder has done so far: while the block of the epoch is open its
  datagram decoder holds the symbols pushed, which are not decodable, and what was delivered is
  remembered; once the block is closed every shard was delivered;
* `EpochRun.push` — the step lemma, `epochRun` — the invariant of every run;
* `encodeEpoch_recovered` — the statement about an epoch that was encoded.
-/

namespace RaptorFec

variable {X : Crates}

namespace MultichannelAudioFecDecoder

/-- The shards that the pushes of a run deliver. -/
def pushedShards (decoder : MultichannelAudioFecDecoder X) (datagrams : List Bytes) :
    List DecodedMultichannelAudioShard :=
  (runOutputs pushDatagram decoder datagrams).flatMap shards

lemma pushedShards_snoc (decoder : MultichannelAudioFecDecoder X) (datagrams : List Bytes)
    (datagram : Bytes) :
    pushedShards decoder (datagrams ++ [datagram]) = pushedShards decoder datagrams
      ++ shards ((runState pushDatagram decoder datagrams).pushDatagram datagram).1 := by
  rw [pushedShards, runOutputs_snoc, List.flatMap_append, List.flatMap_singleton, pushedShards]

/-- The block is open: its datagram decoder holds the symbols pushed, which are not decodable, and
what was delivered is remembered. -/
structure EpochOpen (code : X.Ideal) (block : AudioBlock) (past : List Bytes)
    (decoder : MultichannelAudioFecDecoder X) (output : List DecodedMultichannelAudioShard) :
    Prop where
  notClosed : block.id ∉ decoder.completed
  delivered : ∀ i, i ∈ decoder.deliveredOf block.id ↔ i ∈ output.map (·.index)
  holds : ∃ c, Simulates code (AudioBlockSet.single block).blockSet decoder.fec c ∧
    block.id ∉ c.closed ∧ c.held block.id = survivingSymbols X past block.id
  undecodable : past = [] ∨ ¬ code.Decodable block.object.length block.symbolSize
    (survivingSymbols X past block.id)

/-- The block is closed: every shard was delivered. -/
structure EpochClosed (block : AudioBlock) (decoder : MultichannelAudioFecDecoder X)
    (output : List DecodedMultichannelAudioShard) : Prop where
  closed : block.id ∈ decoder.completed
  all : ∀ i < block.sourceSymbols, UInt16.ofNat i ∈ output.map (·.index)

/-- What the datagrams of one block did to a fresh decoder. -/
structure EpochRun (code : X.Ideal) (block : AudioBlock) (past : List Bytes)
    (decoder : MultichannelAudioFecDecoder X) (output : List DecodedMultichannelAudioShard) :
    Prop where
  bounded : Bounded decoder
  lone : ∀ id ∈ decoder.inFlight, id = block.id
  nodup : (output.map (·.index)).Nodup
  shards : ∀ shard ∈ output, block.HasShard shard
  state : EpochOpen code block past decoder output ∨ EpochClosed block decoder output

/-- A datagram of the block. -/
def IsDatagramOf (code : X.Systematic) (block : AudioBlock) (datagram : Bytes) : Prop :=
  ∃ sequence esi, Carries code block.toSourceBlock sequence esi datagram

section Push

variable {code : X.Ideal} {block : AudioBlock} {past : List Bytes}
  {self : MultichannelAudioFecDecoder X} {output : List DecodedMultichannelAudioShard}
  {sequence : UInt32} {esi : ℕ} {datagram : Bytes}

lemma epochRun_new (code : X.Ideal) (block : AudioBlock) :
    EpochRun code block [] (new : MultichannelAudioFecDecoder X) [] where
  bounded := bounded_configured []
  lone id hid := absurd hid (Finset.notMem_empty _)
  nodup := List.nodup_nil
  shards shard hshard := absurd hshard (by simp)
  state := by
    refine Or.inl ⟨Finset.notMem_empty _, fun i => ?_, ⟨_, simulates_new code _, ?_, ?_⟩,
      Or.inl rfl⟩
    · simp [deliveredOf, new]
    · exact Set.notMem_empty _
    · rfl

/-- There is always room for a lone block. -/
lemma room_of_lone (h : Queued self) (hlone : ∀ id ∈ self.inFlight, id = block.id) :
    (insert block.id self.inFlight).card ≤ self.maxInFlightBlocks := by
  have hsub : insert block.id self.inFlight ⊆ {block.id} := by
    intro id hid
    rcases Finset.mem_insert.mp hid with rfl | hold
    · exact Finset.mem_singleton_self _
    · exact Finset.mem_singleton.mpr (hlone id hold)
  exact Nat.le_trans (Finset.card_le_card hsub) h.maxInFlightBlocks_pos

/-- New shards do not repeat what was output. -/
lemma nodup_append_new {delivered after : Finset UInt16} {more : List DecodedMultichannelAudioShard}
    (hnodup : (output.map (·.index)).Nodup)
    (hdelivered : ∀ i, i ∈ delivered ↔ i ∈ output.map (·.index))
    (hnew : NewShards block.id delivered after more) :
    ((output ++ more).map (·.index)).Nodup ∧
      ∀ i, i ∈ after ↔ i ∈ (output ++ more).map (·.index) := by
  rw [List.map_append]
  refine ⟨List.nodup_append.mpr ⟨hnodup, hnew.nodup, ?_⟩, fun i => ?_⟩
  · rintro i hi j hj rfl
    obtain ⟨shard, hshard, rfl⟩ := List.mem_map.mp hj
    exact hnew.fresh shard hshard ((hdelivered _).mpr hi)
  · rw [hnew.after_iff, hdelivered, List.mem_append]

/-- A datagram of an open block adds its symbol, or completes the block. -/
lemma EpochOpen.push_cases (h : EpochOpen code block past self output)
    (hcarries : Carries code.toSystematic block.toSourceBlock sequence esi datagram) :
    (¬ code.Decodable block.object.length block.symbolSize
        (survivingSymbols X (past ++ [datagram]) block.id) ∧
      (self.fec.pushDatagram datagram).1 = .ok none ∧
      ∃ c, Simulates code (AudioBlockSet.single block).blockSet (self.fec.pushDatagram datagram).2 c ∧
        block.id ∉ c.closed ∧ c.held block.id = survivingSymbols X (past ++ [datagram]) block.id) ∨
    (self.fec.pushDatagram datagram).1 = .ok (some block.object) := by
  obtain ⟨c, hsim, hc, hheld⟩ := h.holds
  have hmem : block.toSourceBlock ∈ (AudioBlockSet.single block).blockSet :=
    AudioBlockSet.mem_blockSet rfl
  rw [survivingSymbols_snoc hcarries past, ← hheld]
  rcases hsim.push_cases hmem hcarries (fun hin => hc ((hsim.closed _).mpr hin)) with
    ⟨hdone, hfec, hsim'⟩ | ⟨-, hfec, -⟩
  · exact Or.inl ⟨hdone, hfec, _, hsim', hc, Function.update_self _ _ _⟩
  · exact Or.inr hfec

/-- **The step lemma** of the run of an epoch. -/
theorem EpochRun.push (h : EpochRun code block past self output)
    (hcarries : Carries code.toSystematic block.toSourceBlock sequence esi datagram) :
    ∃ more, (self.pushDatagram datagram).1 = .ok more ∧
      EpochRun code block (past ++ [datagram]) (self.pushDatagram datagram).2 (output ++ more) := by
  have hbounded : Bounded (self.pushDatagram datagram).2 := h.bounded.step (.push datagram)
  have happend : ∀ more, (∀ shard ∈ more, block.HasShard shard) →
      ∀ shard ∈ output ++ more, block.HasShard shard := by
    intro more hmore shard hshard
    rcases List.mem_append.mp hshard with hold | hnew
    · exact h.shards shard hold
    · exact hmore shard hnew
  rcases h.state with hopen | hclosed
  · rcases hopen.push_cases hcarries with ⟨hdone, hfec, c, hsim, hc, hheld⟩ | hfec
    · -- the block waits, and the shard of the datagram is delivered
      obtain ⟨more, next, hpush, hfiles⟩ := pushDatagram_files h.bounded.toQueued hcarries
        hopen.notClosed (room_of_lone h.bounded.toQueued h.lone) hfec
      obtain ⟨hnodup, hafter⟩ := nodup_append_new h.nodup hopen.delivered hfiles.new
      rw [hpush] at hbounded ⊢
      refine ⟨more, rfl, hbounded, fun id hid => ?_, hnodup, happend more hfiles.shards,
        Or.inl ⟨?_, hafter, ⟨c, hfiles.fec ▸ hsim, hc, hheld⟩, Or.inr hdone⟩⟩
      · rw [hfiles.inFlight] at hid
        rcases Finset.mem_insert.mp hid with heq | hold
        · exact heq
        · exact h.lone id hold
      · rw [hfiles.completed]
        exact hopen.notClosed
    · -- the block is completed, and everything missing is delivered
      obtain ⟨more, next, hpush, hcompletes⟩ :=
        pushDatagram_completes h.bounded.toQueued hcarries hopen.notClosed hfec
      obtain ⟨delivered, hnew, hall⟩ := hcompletes.new
      obtain ⟨hnodup, hafter⟩ := nodup_append_new h.nodup hopen.delivered hnew
      rw [hpush] at hbounded ⊢
      refine ⟨more, rfl, hbounded, fun id hid => ?_, hnodup, happend more hcompletes.shards,
        Or.inr ⟨hcompletes.closed, fun i hi => (hafter _).mp (hall i hi)⟩⟩
      rw [hcompletes.inFlight] at hid
      exact h.lone id (Finset.mem_of_mem_erase hid)
  · have hpush := pushDatagram_ignored hcarries hclosed.closed
    rw [hpush]
    refine ⟨[], rfl, ?_⟩
    rw [List.append_nil]
    exact ⟨h.bounded, h.lone, h.nodup, h.shards, Or.inr hclosed⟩

variable (code block) in
/-- The invariant of every run over datagrams of the block. -/
lemma epochRun {datagrams : List Bytes}
    (h : ∀ datagram ∈ datagrams, IsDatagramOf code.toSystematic block datagram) :
    EpochRun code block datagrams (runState pushDatagram new datagrams)
        (pushedShards (new : MultichannelAudioFecDecoder X) datagrams) ∧
      ∀ result ∈ runOutputs pushDatagram (new : MultichannelAudioFecDecoder X) datagrams,
        ∃ delivered, result = .ok delivered := by
  induction datagrams using List.reverseRecOn with
  | nil => exact ⟨epochRun_new code block, by simp⟩
  | append_singleton datagrams datagram ih =>
      obtain ⟨hrun, hok⟩ := ih fun d hd => h d (List.mem_append_left _ hd)
      obtain ⟨sequence, esi, hcarries⟩ := h datagram (by simp)
      obtain ⟨more, hresult, hrun'⟩ := hrun.push hcarries
      rw [pushedShards_snoc, runState_snoc, runOutputs_snoc, hresult]
      refine ⟨hrun', fun result hmem => ?_⟩
      rcases List.mem_append.mp hmem with hold | hlast
      · exact hok result hold
      · exact ⟨more, List.mem_singleton.mp hlast⟩

/-- The datagram of a source symbol that was not delivered delivers it. -/
lemma EpochRun.delivers (h : EpochRun code block past self output)
    (hcarries : Carries code.toSystematic block.toSourceBlock sequence esi datagram)
    (hesi : esi < block.sourceSymbols) (hmissing : UInt16.ofNat esi ∉ output.map (·.index)) :
    ∃ shard ∈ MultichannelAudioFecDecoder.shards (self.pushDatagram datagram).1,
      shard.index = UInt16.ofNat esi := by
  rcases h.state with hopen | hclosed
  · have hnot : UInt16.ofNat esi ∉ self.deliveredOf block.id := fun hin =>
      hmissing ((hopen.delivered _).mp hin)
    rcases hopen.push_cases hcarries with ⟨-, hfec, -⟩ | hfec
    · obtain ⟨-, hpush⟩ := pushDatagram_waits h.bounded.toQueued hcarries hopen.notClosed
        (Prod.ext hfec rfl)
      have hindex := block.index_shard hesi .systematic
      have hnot' : (block.shard .systematic esi).header.sourceIndex
          ∉ self.deliveredOf block.id := by
        rw [← hindex] at hnot
        exact hnot
      rw [hpush, shards_ok, AudioBlock.candidate, if_pos hesi, deliverCandidate, if_neg hnot']
      exact ⟨_, List.mem_singleton_self _, hindex⟩
    · obtain ⟨more, next, hpush, hcompletes⟩ :=
        pushDatagram_completes h.bounded.toQueued hcarries hopen.notClosed hfec
      obtain ⟨delivered, hnew, hall⟩ := hcompletes.new
      rw [hpush, shards_ok]
      obtain ⟨shard, hshard, hindex⟩ :=
        List.mem_map.mp (((hnew.after_iff _).mp (hall esi hesi)).resolve_left hnot)
      exact ⟨shard, hshard, hindex⟩
  · exact absurd (hclosed.all esi hesi) hmissing

/-- As soon as the symbols pushed are decodable, everything was delivered and nothing else is. -/
lemma EpochRun.complete (h : EpochRun code block past self output) (hpast : past ≠ [])
    (hdecodable : code.Decodable block.object.length block.symbolSize
      (survivingSymbols X past block.id)) : EpochClosed block self output := by
  rcases h.state with hopen | hclosed
  · rcases hopen.undecodable with hnil | hnot
    · exact absurd hnil hpast
    · exact absurd hdecodable hnot
  · exact hclosed

end Push

/-- **An epoch is recovered exactly.**  An epoch that `encode_epoch` accepts is cut into `count`
source shards.  Any of its datagrams, in any order and any number of times, are pushed into a fresh
decoder.  Every push is accepted; the shards delivered have distinct source indices, and each has
the header and the bytes the encoder wrote; the datagram of a source shard that was not delivered
delivers it; and as soon as the symbols pushed are decodable, all source shards were delivered and
every further push delivers nothing. -/
theorem encodeEpoch_recovered (code : X.Ideal) {encoder encoder' : MultichannelAudioFecEncoder}
    {epoch : MultichannelAudioEpoch} {encoded : EncodedMultichannelAudioEpoch}
    (hencode : encoder.encodeEpoch X epoch = some (.ok encoded, encoder'))
    {packets : List MultichannelAudioDatagram} (hpackets : ∀ packet ∈ packets,
      packet ∈ encoded.datagrams) :
    ∃ geometry, encoder.config.geometryForGroups epoch.groups = .ok geometry ∧
      let cut : EpochCut := ⟨epoch, geometry⟩
      let datagrams := packets.map (·.payload)
      let output := pushedShards (new : MultichannelAudioFecDecoder X)
      (∀ result ∈ runOutputs pushDatagram (new : MultichannelAudioFecDecoder X) datagrams,
        ∃ delivered, result = .ok delivered) ∧
      ((output datagrams).map (·.index)).Nodup ∧
      (∀ shard ∈ output datagrams, ∃ i < cut.count, shard.index = UInt16.ofNat i ∧
        shard.blockId = encoded.blockId ∧ shard.header = cut.headerAt i ∧
        shard.payload = cut.payloadAt i) ∧
      (EveryStep pushDatagram (new : MultichannelAudioFecDecoder X) datagrams
        fun past decoder datagram => ∀ packet ∈ encoded.datagrams, packet.payload = datagram →
          ∀ i, packet.role = .source i → i ∉ (output past).map (·.index) →
          ∃ shard ∈ shards (decoder.pushDatagram datagram).1, shard.index = i) ∧
      EveryStep pushDatagram (new : MultichannelAudioFecDecoder X) datagrams
        fun past decoder datagram =>
          code.Decodable (encoded.sourceSymbols.toNat * encoded.symbolSize.toNat)
            encoded.symbolSize (survivingSymbols X (past ++ [datagram]) encoded.blockId) →
          (∀ i < cut.count, UInt16.ofNat i ∈ (output (past ++ [datagram])).map (·.index)) ∧
          ∀ later ∈ encoded.datagrams,
            (decoder.pushDatagram datagram).2.pushDatagram later.payload
              = (.ok [], (decoder.pushDatagram datagram).2) := by
  obtain ⟨T, hsent⟩ := encodeEpoch_ok code.toSystematic hencode
  obtain ⟨geometry, hgeometry, hcount, hheader, hpayload⟩ := hsent.cut
  -- the datagrams of the epoch carry the symbols of one block
  have hcarries : ∀ packet ∈ encoded.datagrams, ∃ esi, packet = T.packet code.toSystematic esi ∧
      Carries code.toSystematic T.block.toSourceBlock (T.baseSequence + UInt32.ofNat esi) esi
        packet.payload := by
    intro packet hpacket
    rw [hsent.datagrams_eq] at hpacket
    obtain ⟨esi, hesi, rfl⟩ := List.mem_map.mp hpacket
    exact ⟨esi, rfl, AudioTransmission.carries (List.mem_range.mp hesi)⟩
  have hdatagrams : ∀ datagram ∈ packets.map (·.payload),
      IsDatagramOf code.toSystematic T.block datagram := by
    intro datagram hdatagram
    obtain ⟨packet, hpacket, rfl⟩ := List.mem_map.mp hdatagram
    obtain ⟨esi, -, hcarry⟩ := hcarries packet (hpackets packet hpacket)
    exact ⟨_, esi, hcarry⟩
  have hrun : ∀ past, past <+: packets.map (·.payload) → EpochRun code T.block past
      (runState pushDatagram new past) (pushedShards (new : MultichannelAudioFecDecoder X) past) :=
    fun past hpast => (epochRun code T.block fun datagram hmem =>
      hdatagrams datagram (hpast.subset hmem)).1
  obtain ⟨hend, hok⟩ := epochRun code T.block hdatagrams
  refine ⟨geometry, hgeometry, hok, hend.nodup, fun shard hshard => ?_, ?_, ?_⟩
  · obtain ⟨i, hi, recovery, rfl⟩ := hend.shards shard hshard
    refine ⟨i, hcount ▸ hi, AudioBlock.index_shard hi recovery, hsent.blockId_eq.symm, ?_, ?_⟩
    · exact congrFun hheader i
    · exact congrFun hpayload i
  · rintro past datagram hpast packet hpacket rfl i hrole hmissing
    obtain ⟨esi, heq, hcarry⟩ := hcarries packet hpacket
    have hrole' : T.role esi = .source i := by
      rw [← hrole, heq]
      rfl
    rw [AudioTransmission.role] at hrole'
    split_ifs at hrole' with hesi
    obtain rfl := MultichannelAudioDatagramRole.source.inj hrole'
    exact (hrun past ((List.prefix_append _ _).trans hpast)).delivers hcarry hesi hmissing
  · intro past datagram hpast hdecodable
    have hnext := hrun (past ++ [datagram]) hpast
    rw [runState_snoc] at hnext
    have hlength : T.block.object.length
        = encoded.sourceSymbols.toNat * encoded.symbolSize.toNat := by
      rw [hsent.sourceSymbols_eq, hsent.symbolSize_eq]
      exact T.block.length_object
    rw [← hlength, hsent.symbolSize_eq, hsent.blockId_eq] at hdecodable
    obtain ⟨hclosed, hall⟩ := hnext.complete (by simp) hdecodable
    refine ⟨fun i hi => hall i (hcount ▸ hi), fun later hlater => ?_⟩
    obtain ⟨esi, -, hcarry⟩ := hcarries later hlater
    exact pushDatagram_ignored hcarry hclosed

/-! ### An epoch of two source shards -/

/-- Three bytes of one channel. -/
def sampleEpoch : MultichannelAudioEpoch where
  sessionId := 7
  configGeneration := 1
  epochId := 5
  ptsSamples := 480
  sampleRate := 48000
  frameCount := 1
  groups := [⟨9, 0, 1, .pcm, .s16Le, 0, [1, 2, 3]⟩]

/-- An encoder with room for two bytes in a fragment, and one repair symbol. -/
def sampleEncoder : MultichannelAudioFecEncoder := .new ⟨118, 0, 1, 256⟩

/-- The datagrams of an epoch, last one first: every push is accepted, and no shard is delivered
twice. -/
theorem encodeEpoch_recovered_reversed :
    ∃ encoded encoder', sampleEncoder.encodeEpoch repetition sampleEpoch
        = some (.ok encoded, encoder') ∧
      (∀ result ∈ runOutputs pushDatagram (new : MultichannelAudioFecDecoder repetition)
        (encoded.datagrams.reverse.map (·.payload)), ∃ delivered, result = .ok delivered) ∧
      ((pushedShards (new : MultichannelAudioFecDecoder repetition)
        (encoded.datagrams.reverse.map (·.payload))).map (·.index)).Nodup := by
  have hok : (sampleEncoder.encodeEpoch repetition sampleEpoch).map (fun result => result.1.isOk)
      = some true := by
    decide +kernel
  obtain ⟨⟨result, encoder'⟩, hencode, hresult⟩ := Option.map_eq_some_iff.mp hok
  cases result with
  | error error => cases hresult
  | ok encoded =>
      have hreverse : ∀ packet ∈ encoded.datagrams.reverse, packet ∈ encoded.datagrams :=
        fun packet hpacket => List.mem_reverse.mp hpacket
      obtain ⟨geometry, -, haccepted, hnodup, -⟩ :=
        encodeEpoch_recovered repetitionIdeal hencode hreverse
      exact ⟨encoded, encoder', hencode, haccepted, hnodup⟩

end MultichannelAudioFecDecoder

end RaptorFec
