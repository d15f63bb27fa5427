import RaptorFec.Audio.Flow
import RaptorFec.Audio.Recovery

/-!
# What is in flight keeps its state

The audio decoder limits the blocks in flight, and the datagram decoder behind it forgets the
blocks whose ids lie far before an id that is closed.  As long as no block has to be expired for
the limit, a block in flight should keep the symbols it received, so that it is recovered as soon
as these determine it.  The two windows do not agree on that: a block that completes far ahead
of a block in flight takes the state of that block away.

* `Crowds` — a datagram puts more blocks in flight than may be;
* `Consistent` — the two windows agree about a datagram;
* `Retaining` — the invariant of a run whose steps are consistent, `Retaining.push` its step
  lemma;
* `retains_iff` — what is in flight keeps its state exactly along the runs whose steps are
  consistent;
* `overtaken_lost` — a block that is overtaken loses its state.
-/

namespace RaptorFec

variable {X : Crates}

namespace SentEpoch

/-- Symbols of the epoch were pushed, and they determine it. -/
def Determined (code : X.Ideal) (sent : SentEpoch) (past : List MultichannelAudioDatagram) :
    Prop :=
  (survivingSymbols X (past.map (·.payload)) sent.blockId).Nonempty ∧
    code.Decodable (sent.encoded.sourceSymbols.toNat * sent.encoded.symbolSize.toNat)
      sent.encoded.symbolSize (survivingSymbols X (past.map (·.payload)) sent.blockId)

end SentEpoch

/-- A shard of the block with this source index was output. -/
def IsOutput (output : List DecodedMultichannelAudioShard) (blockId : UInt32) (index : UInt16) :
    Prop :=
  ∃ shard ∈ output, shard.blockId = blockId ∧ shard.index = index

lemma IsOutput.append {output more : List DecodedMultichannelAudioShard} {blockId : UInt32}
    {index : UInt16} (h : IsOutput output blockId index) :
    IsOutput (output ++ more) blockId index := by
  obtain ⟨shard, hshard, hid, hindex⟩ := h
  exact ⟨shard, List.mem_append_left _ hshard, hid, hindex⟩

namespace MultichannelAudioFecDecoder

/-- The datagram puts its block in flight, and more blocks are in flight then than may be. -/
structure Crowds (decoder : MultichannelAudioFecDecoder X) (packet : MultichannelAudioDatagram) :
    Prop where
  notClosed : packet.blockId ∉ decoder.completed
  waits : ¬ decoder.fec.Closes packet.blockId (.push packet.payload)
  full : decoder.maxInFlightBlocks < (insert packet.blockId decoder.inFlight).card

/-- The two windows agree about the datagram: the audio decoder remembers its block if the datagram
decoder does, and a block that it completes retains all blocks in flight. -/
structure Consistent (decoder : MultichannelAudioFecDecoder X)
    (packet : MultichannelAudioDatagram) : Prop where
  remembered : packet.blockId ∈ decoder.fec.completed → packet.blockId ∈ decoder.completed
  near : packet.blockId ∉ decoder.completed →
    decoder.fec.Closes packet.blockId (.push packet.payload) →
    ∀ id ∈ decoder.inFlight, Retained packet.blockId id

/-- The block waits for more symbols: the datagram decoder holds those that were pushed, which do
not determine it. -/
structure Awaits (code : X.Ideal) (block : AudioBlock) (past : List Bytes)
    (decoder : MultichannelAudioFecDecoder X) (c : Collector UInt32 ℕ) : Prop where
  notClosed : block.id ∉ decoder.completed
  notForgotten : block.id ∉ decoder.fec.completed
  held : c.held block.id = survivingSymbols X past block.id
  undecodable : (survivingSymbols X past block.id).Nonempty →
    ¬ code.Decodable block.object.length block.symbolSize (survivingSymbols X past block.id)

/-- Every source shard of the block was output. -/
def Settled (block : AudioBlock) (output : List DecodedMultichannelAudioShard) : Prop :=
  ∀ i < block.sourceSymbols, IsOutput output block.id (UInt16.ofNat i)

/-- What holds while no step is inconsistent and none crowds the decoder. -/
structure Retaining (code : X.Ideal) (A : AudioBlockSet) (past : List Bytes)
    (decoder : MultichannelAudioFecDecoder X) (output : List DecodedMultichannelAudioShard) :
    Prop where
  bounded : Bounded decoder
  apart : ∀ id ∈ decoder.fec.completed, id ∉ decoder.fec.blocks
  retains : ∀ id ∈ decoder.inFlight, id ∈ decoder.fec.blocks
  delivered : ∀ id, ∀ i ∈ decoder.deliveredOf id, IsOutput output id i
  blocks : ∃ c, Simulates code A.blockSet decoder.fec c ∧
    ∀ block ∈ A, Settled block output ∨ Awaits code block past decoder c

section Push

variable {code : X.Ideal} {A : AudioBlockSet} {block : AudioBlock} {past : List Bytes}
  {self : MultichannelAudioFecDecoder X} {output : List DecodedMultichannelAudioShard}
  {sequence : UInt32} {esi : ℕ} {packet : MultichannelAudioDatagram} {c : Collector UInt32 ℕ}

lemma retaining_configured (code : X.Ideal) (A : AudioBlockSet) (limits : List Limit) :
    Retaining code A [] (configured limits : MultichannelAudioFecDecoder X) [] := by
  obtain ⟨maxInFlightBlocks, maxCompletedBlocks, -, -, heq⟩ := configured_eq (X := X) limits
  have hbounded := bounded_configured (X := X) limits
  rw [heq] at hbounded ⊢
  refine ⟨hbounded, fun id hid => ?_, fun id hid => ?_, fun id i hi => ?_,
    _, simulates_new code _, fun block hblock => Or.inr ?_⟩
  · exact absurd hid (Finset.notMem_empty id)
  · exact absurd hid (Finset.notMem_empty id)
  · rw [deliveredOf, new, Finmap.lookup_empty] at hi
    exact absurd hi (Finset.notMem_empty i)
  · refine ⟨Finset.notMem_empty _, Finset.notMem_empty _, rfl, fun hne => ?_⟩
    exact absurd hne Finset.not_nonempty_empty

/-- New shards settle what they add to the delivered source indices. -/
lemma isOutput_new {before after : Finset UInt16} {more : List DecodedMultichannelAudioShard}
    {blockId : UInt32} (hnew : NewShards blockId before after more)
    (hbefore : ∀ i ∈ before, IsOutput output blockId i) :
    ∀ i ∈ after, IsOutput (output ++ more) blockId i := by
  intro i hi
  rcases (hnew.after_iff i).mp hi with hold | hmore
  · exact (hbefore i hold).append
  · obtain ⟨shard, hshard, hindex⟩ := List.mem_map.mp hmore
    exact ⟨shard, List.mem_append_right _ hshard, hnew.blockId_eq shard hshard, hindex⟩

lemma Settled.append {more : List DecodedMultichannelAudioShard} (h : Settled block output) :
    Settled block (output ++ more) := fun i hi => (h i hi).append

variable {datagram : Bytes}

/-! ### What a consistent step keeps -/

/-- A datagram of a block that is remembered as closed changes nothing. -/
lemma Retaining.ignored (h : Retaining code A past self output)
    (hcarries : Carries code.toSystematic block.toSourceBlock sequence esi datagram)
    (hclosed : block.id ∈ self.completed) :
    Retaining code A (past ++ [datagram]) self output := by
  obtain ⟨c, hsim, hblocks⟩ := h.blocks
  refine ⟨h.bounded, h.apart, h.retains, h.delivered, c, hsim, fun other hother => ?_⟩
  rcases hblocks other hother with hsettled | hawaits
  · exact Or.inl hsettled
  · have hne : block.id ≠ other.id := by
      intro heq
      exact hawaits.notClosed (heq ▸ hclosed)
    have hsame := survivingSymbols_snoc_of_ne hcarries hne past
    exact Or.inr ⟨hawaits.notClosed, hawaits.notForgotten, hsame ▸ hawaits.held,
      hsame ▸ hawaits.undecodable⟩

/-- A datagram that is filed adds its symbol to those of its block. -/
lemma Retaining.files (h : Retaining code A past self output) (hblock : block ∈ A)
    (hcarries : Carries code.toSystematic block.toSourceBlock sequence esi datagram)
    (hkept : block.id ∉ self.fec.completed) {c : Collector UInt32 ℕ}
    (hblocks : ∀ other ∈ A, Settled other output ∨ Awaits code other past self c)
    (hdone : ¬ code.Decodable block.object.length block.symbolSize (insert esi (c.held block.id)))
    (hfec : (self.fec.pushDatagram datagram).1 = .ok none)
    {next : MultichannelAudioFecDecoder X} {more : List DecodedMultichannelAudioShard}
    (hnext : Files block datagram self next more) (hbounded : Bounded next)
    (hsim : Simulates code A.blockSet next.fec { c with
      held := Function.update c.held block.id (insert esi (c.held block.id)) }) :
    Retaining code A (past ++ [datagram]) next (output ++ more) := by
  obtain ⟨header, hopens, hannounces, -⟩ := hcarries.opens
  have hpush : self.fec.pushDatagram datagram = (.ok none, next.fec) :=
    Prod.ext hfec hnext.fec.symm
  obtain ⟨state, hstored⟩ := DatagramFecDecoder.pushDatagram_stores hopens
    (hannounces.blockId ▸ hkept) hpush
  rw [hannounces.blockId] at hstored
  have hfiled : next.fec.blocks = self.fec.blocks.insert block.id state := by rw [hstored]
  have hcompleted : next.fec.completed = self.fec.completed := by rw [hstored]; rfl
  refine ⟨hbounded, fun id hid => ?_, fun id hid => ?_, fun id i hi => ?_, _, hsim,
    fun other hother => ?_⟩
  · rw [hcompleted] at hid
    rw [hfiled, Finmap.mem_insert]
    rintro (rfl | hold)
    · exact hkept hid
    · exact h.apart id hid hold
  · rw [hnext.inFlight] at hid
    rw [hfiled, Finmap.mem_insert]
    exact (Finset.mem_insert.mp hid).imp_right (h.retains id)
  · by_cases hid : id = block.id
    · rw [hid] at hi ⊢
      exact isOutput_new hnext.new (h.delivered block.id) i hi
    · rw [hnext.delivered id hid] at hi
      exact (h.delivered id i hi).append
  · rcases hblocks other hother with hsettled | hawaits
    · exact Or.inl hsettled.append
    · have hopen : other.id ∉ next.completed := hnext.completed ▸ hawaits.notClosed
      have hremembered : other.id ∉ next.fec.completed := hcompleted ▸ hawaits.notForgotten
      by_cases hid : block.id = other.id
      · obtain rfl := A.inj block hblock other hother hid
        have hsnoc := survivingSymbols_snoc hcarries past
        rw [← hawaits.held] at hsnoc
        exact Or.inr ⟨hopen, hremembered, (Function.update_self _ _ _).trans hsnoc.symm,
          fun _ => hsnoc ▸ hdone⟩
      · have hsame := survivingSymbols_snoc_of_ne hcarries hid past
        exact Or.inr ⟨hopen, hremembered,
          (Function.update_of_ne (Ne.symm hid) _ _).trans (hawaits.held.trans hsame.symm),
          hsame ▸ hawaits.undecodable⟩

/-- What is not in flight has no symbols. -/
lemma Retaining.held_eq_empty (h : Retaining code A past self output) {c : Collector UInt32 ℕ}
    (hsim : Simulates code A.blockSet self.fec c) {id : UInt32} (hid : id ∉ self.inFlight) :
    c.held id = ∅ := by
  obtain ⟨held, hholds, hheld⟩ := hsim.held
  have hnone : self.fec.blocks.lookup id = none :=
    Finmap.lookup_eq_none.mpr fun hmem => hid (h.bounded.tracked id hmem)
  rw [← hheld, hholds.untracked id hnone, List.toFinset_nil]

/-- A datagram that completes its block settles it, and takes no state away from the blocks in
flight, all of which it retains. -/
lemma Retaining.completes (h : Retaining code A past self output) (hblock : block ∈ A)
    (hcarries : Carries code.toSystematic block.toSourceBlock sequence esi datagram)
    {c : Collector UInt32 ℕ} (hold : Simulates code A.blockSet self.fec c)
    (hblocks : ∀ other ∈ A, Settled other output ∨ Awaits code other past self c)
    (hnear : ∀ id ∈ self.inFlight, Retained block.id id)
    (hfec : (self.fec.pushDatagram datagram).1 = .ok (some block.object))
    {next : MultichannelAudioFecDecoder X} {more : List DecodedMultichannelAudioShard}
    (hnext : CompletesBlock block datagram self next more) (hbounded : Bounded next)
    (hsim : Simulates code A.blockSet next.fec (c.close DropsId block.id)) :
    Retaining code A (past ++ [datagram]) next (output ++ more) := by
  obtain ⟨header, hopens, hannounces, -⟩ := hcarries.opens
  have hpush : self.fec.pushDatagram datagram = (.ok (some block.object), next.fec) :=
    Prod.ext hfec hnext.fec.symm
  have hexpired := DatagramFecDecoder.pushDatagram_expires hopens hpush
  rw [hannounces.blockId] at hexpired
  obtain ⟨delivered, hnew, hall⟩ := hnext.new
  refine ⟨hbounded, ?_, fun id hid => ?_, fun id i hi => ?_, _, hsim, fun other hother => ?_⟩
  · rw [hexpired]
    exact DatagramFecDecoder.notMem_blocks_expireBlock h.apart block.id
  · rw [hnext.inFlight] at hid
    obtain ⟨hne, hflight⟩ := Finset.mem_erase.mp hid
    rw [hexpired]
    exact DatagramFecDecoder.mem_blocks_expireBlock.mpr
      ⟨hne, hnear id hflight, h.retains id hflight⟩
  · exact (h.delivered id i (hnext.delivered id i hi)).append
  · by_cases hid : block.id = other.id
    · obtain rfl := A.inj block hblock other hother hid
      exact Or.inl fun i hi => isOutput_new hnew (h.delivered block.id) _ (hall i hi)
    rcases hblocks other hother with hsettled | hawaits
    · exact Or.inl hsettled.append
    · have hsame := survivingSymbols_snoc_of_ne hcarries hid past
      refine Or.inr ⟨fun hin => ?_, fun hin => ?_, ?_, hsame ▸ hawaits.undecodable⟩
      · rcases hnext.completed other.id hin with heq | hclosed
        · exact hid heq.symm
        · exact hawaits.notClosed hclosed
      · rw [hexpired, DatagramFecDecoder.mem_expireBlock_completed] at hin
        rcases hin.1 with heq | hforgotten
        · exact hid heq.symm
        · exact hawaits.notForgotten hforgotten
      · rw [hsame, ← hawaits.held]
        by_cases hflight : other.id ∈ self.inFlight
        · exact Collector.held_close_of_ne (Ne.symm hid) (not_not.mpr (hnear _ hflight))
        · -- a block that is not in flight has nothing to lose
          have hnone := h.held_eq_empty hold hflight
          by_cases hdrops : DropsId block.id other.id
          · rw [Collector.held_close_of_drops hdrops, hnone]
          · exact Collector.held_close_of_ne (Ne.symm hid) hdrops

/-- **The step lemma**: a consistent step that does not crowd the decoder keeps the invariant. -/
theorem Retaining.push (h : Retaining code A past self output) (hblock : block ∈ A)
    (hid : packet.blockId = block.id)
    (hcarries : Carries code.toSystematic block.toSourceBlock sequence esi packet.payload)
    (hroom : ¬ self.Crowds packet) (hconsistent : self.Consistent packet) :
    Retaining code A (past ++ [packet.payload]) (self.pushPacket packet).2
      (output ++ shards (self.pushPacket packet).1) := by
  rw [pushPacket]
  by_cases hclosed : block.id ∈ self.completed
  · rw [pushDatagram_ignored hcarries hclosed, shards_ok, List.append_nil]
    exact h.ignored hcarries hclosed
  have hbounded : Bounded (self.pushDatagram packet.payload).2 :=
    h.bounded.step (.push packet.payload)
  have hkept : block.id ∉ self.fec.completed := fun hin =>
    hclosed (hid ▸ hconsistent.remembered (hid ▸ hin))
  obtain ⟨c, hsim, hblocks⟩ := h.blocks
  rcases hsim.push_cases (AudioBlockSet.mem_blockSet hblock) hcarries hkept with
    ⟨hdone, hfec, hsim'⟩ | ⟨-, hfec, hsim'⟩
  · have hcard : (insert block.id self.inFlight).card ≤ self.maxInFlightBlocks := by
      by_contra hfull
      refine hroom ⟨hid ▸ hclosed, fun hcloses => ?_, hid ▸ Nat.lt_of_not_le hfull⟩
      obtain ⟨-, object, hobject⟩ := DatagramFecDecoder.closes_push_iff.mp hcloses
      rw [hfec] at hobject
      cases hobject
    obtain ⟨more, next, hpush, hfiles⟩ :=
      pushDatagram_files h.bounded.toQueued hcarries hclosed hcard hfec
    rw [hpush] at hbounded ⊢
    exact h.files hblock hcarries hkept hblocks hdone hfec hfiles hbounded (hfiles.fec ▸ hsim')
  · have hcloses : self.fec.Closes packet.blockId (.push packet.payload) := by
      obtain ⟨header, hopens, hannounces, -⟩ := hcarries.opens
      exact DatagramFecDecoder.closes_push_iff.mpr
        ⟨⟨header, _, hopens, hannounces.blockId.trans hid.symm⟩, _, hfec⟩
    have hnear := hconsistent.near (hid ▸ hclosed) hcloses
    rw [hid] at hnear
    obtain ⟨more, next, hpush, hcompletes⟩ :=
      pushDatagram_completes h.bounded.toQueued hcarries hclosed hfec
    rw [hpush] at hbounded ⊢
    exact h.completes hblock hcarries hsim hblocks hnear hfec hcompletes hbounded
      (hcompletes.fec ▸ hsim')

/-- After a step that is not consistent, a block in flight has no state. -/
lemma Retaining.lost (h : Retaining code A past self output) (hblock : block ∈ A)
    (hid : packet.blockId = block.id)
    (hcarries : Carries code.toSystematic block.toSourceBlock sequence esi packet.payload)
    (hroom : ¬ self.Crowds packet) (hbad : ¬ self.Consistent packet) :
    ∃ id ∈ (self.pushPacket packet).2.inFlight, id ∉ (self.pushPacket packet).2.fec.blocks := by
  rw [pushPacket]
  obtain ⟨header, hopens, hannounces, -⟩ := hcarries.opens
  have hclosed : block.id ∉ self.completed := by
    intro hin
    exact hbad ⟨fun _ => hid ▸ hin, fun hopen => absurd (hid ▸ hin) hopen⟩
  by_cases hforgotten : block.id ∈ self.fec.completed
  · -- the block is put in flight, and the datagram decoder ignores its symbol
    have hpush := DatagramFecDecoder.pushDatagram_of_opens self.fec hopens
    rw [if_pos (hannounces.blockId ▸ hforgotten)] at hpush
    have hcard : (insert block.id self.inFlight).card ≤ self.maxInFlightBlocks := by
      by_contra hfull
      refine hroom ⟨hid ▸ hclosed, ?_, hid ▸ Nat.lt_of_not_le hfull⟩
      rintro ⟨-, -, -, -, hopen, -⟩
      exact hopen (hid ▸ hforgotten)
    obtain ⟨more, next, hnext, hfiles⟩ := pushDatagram_files h.bounded.toQueued hcarries hclosed
      hcard (congrArg Prod.fst hpush)
    rw [hnext]
    refine ⟨block.id, ?_, ?_⟩
    · rw [hfiles.inFlight]
      exact Finset.mem_insert_self _ _
    · rw [hfiles.fec, hpush]
      exact h.apart block.id hforgotten
  · obtain ⟨hcloses, other, hother, hfar⟩ : self.fec.Closes packet.blockId (.push packet.payload) ∧
        ∃ other ∈ self.inFlight, ¬ Retained packet.blockId other := by
      by_contra hno
      refine hbad ⟨fun hin => absurd (hid ▸ hin) hforgotten, fun _ hcloses other hother => ?_⟩
      by_contra hfar
      exact hno ⟨hcloses, other, hother, hfar⟩
    -- the block that completes takes the state of the other one away
    rw [hid] at hfar
    obtain ⟨-, object, hobject⟩ := DatagramFecDecoder.closes_push_iff.mp hcloses
    obtain ⟨c, hsim, -⟩ := h.blocks
    rcases hsim.push_cases (AudioBlockSet.mem_blockSet hblock) hcarries hforgotten with
      ⟨-, hfec, -⟩ | ⟨-, hfec, -⟩
    · rw [hfec] at hobject
      cases hobject
    · obtain ⟨more, next, hnext, hcompletes⟩ :=
        pushDatagram_completes h.bounded.toQueued hcarries hclosed hfec
      have hpush : self.fec.pushDatagram packet.payload = (.ok (some block.object), next.fec) :=
        Prod.ext hfec hcompletes.fec.symm
      rw [hnext]
      refine ⟨other, ?_, ?_⟩
      · rw [hcompletes.inFlight]
        refine Finset.mem_erase.mpr ⟨?_, hother⟩
        rintro rfl
        exact hfar (retained_self _)
      · rw [DatagramFecDecoder.pushDatagram_expires hopens hpush, hannounces.blockId]
        exact fun hin => hfar (DatagramFecDecoder.mem_blocks_expireBlock.mp hin).2.1

end Push

/-- **When the blocks in flight keep their state.**  An encoder is called any number of times, its
block id and its configuration set in between so that block ids increase.  Any of the datagrams of
its epochs, in any order and any number of times, are pushed into a fresh decoder, and none of them
puts more blocks in flight than may be.  In every state, the blocks in flight have their state, and
an epoch that is determined by the symbols pushed so far has had all its source shards output,
exactly when the two windows of the decoder agree in every step. -/
theorem retains_iff (code : X.Ideal) (encoder : MultichannelAudioFecEncoder)
    (ops : List AudioEncoderOp) {result : List SentEpoch × MultichannelAudioFecEncoder}
    (hrun : encoder.encodeAll X ops = some result)
    (hids : (result.1.map SentEpoch.blockId).Pairwise (· < ·)) (limits : List Limit)
    {packets : List MultichannelAudioDatagram}
    (hpackets : ∀ packet ∈ packets, ∃ sent ∈ result.1, packet ∈ sent.datagrams)
    (hroom : EveryStep pushPacket (configured limits : MultichannelAudioFecDecoder X) packets
      fun _ decoder packet => ¬ decoder.Crowds packet) :
    (EveryState pushPacket (configured limits : MultichannelAudioFecDecoder X) packets
      fun past decoder => (∀ id ∈ decoder.inFlight, id ∈ decoder.fec.blocks) ∧
        ∀ sent ∈ result.1, sent.Determined code past →
          ∀ i < sent.encoded.sourceSymbols.toNat,
            IsOutput (pushedShards (configured limits : MultichannelAudioFecDecoder X)
              (past.map (·.payload))) sent.blockId (UInt16.ofNat i)) ↔
    EveryStep pushPacket (configured limits : MultichannelAudioFecDecoder X) packets
      fun _ decoder packet => decoder.Consistent packet := by
  have hnodup : (result.1.map SentEpoch.blockId).Nodup := hids.imp UInt32.ne_of_lt
  obtain ⟨A, hsent, -⟩ :=
    MultichannelAudioFecEncoder.encodeAll_blocks code.toSystematic hrun hnodup
  let start : MultichannelAudioFecDecoder X := configured limits
  have hstate : ∀ past : List MultichannelAudioDatagram,
      runState pushDatagram start (past.map (·.payload)) = runState pushPacket start past :=
    fun past => runState_map _ _ _ past
  have hsnoc : ∀ (past : List MultichannelAudioDatagram) (packet : MultichannelAudioDatagram),
      pushedShards start ((past ++ [packet]).map (·.payload))
        = pushedShards start (past.map (·.payload))
          ++ shards ((runState pushPacket start past).pushPacket packet).1 := by
    intro past packet
    rw [List.map_append, List.map_singleton, pushedShards_snoc, hstate]
    rfl
  refine everyState_iff_everyStep_of
    (fun past decoder => decoder = runState pushPacket start past ∧
      Retaining code A (past.map (·.payload)) decoder
        (pushedShards start (past.map (·.payload))))
    (D := fun past packet => (∃ block ∈ A, packet.blockId = block.id ∧ ∃ sequence esi,
        Carries code.toSystematic block.toSourceBlock sequence esi packet.payload) ∧
      ¬ (runState pushPacket start past).Crowds packet)
    ⟨rfl, retaining_configured code A limits⟩ ?_ ?_ ?_ ?_
  · rintro past decoder ⟨-, h⟩
    refine ⟨h.retains, fun sent hmem hdetermined i hi => ?_⟩
    obtain ⟨T, ⟨_, _, hT⟩, hblock⟩ := hsent sent hmem
    obtain ⟨c, -, hblocks⟩ := h.blocks
    have hid : sent.blockId = T.block.id := hT.blockId_eq
    have hlength : sent.encoded.sourceSymbols.toNat * sent.encoded.symbolSize.toNat
        = T.block.object.length := by
      rw [hT.sourceSymbols_eq, hT.symbolSize_eq]
      exact T.block.length_object.symm
    rcases hblocks T.block hblock with hsettled | hawaits
    · rw [hid]
      exact hsettled i (hT.sourceSymbols_eq ▸ hi)
    · obtain ⟨hnonempty, hdecodable⟩ := hdetermined
      rw [hid] at hnonempty hdecodable
      rw [hlength, hT.symbolSize_eq] at hdecodable
      exact absurd hdecodable (hawaits.undecodable hnonempty)
  · rintro past decoder packet ⟨⟨block, hblock, hid, sequence, esi, hcarries⟩, hcrowds⟩
      ⟨rfl, h⟩ hconsistent
    refine ⟨(runState_snoc pushPacket start past packet).symm, ?_⟩
    rw [hsnoc, List.map_append, List.map_singleton]
    exact h.push hblock hid hcarries hcrowds hconsistent
  · rintro past decoder packet ⟨⟨block, hblock, hid, sequence, esi, hcarries⟩, hcrowds⟩
      ⟨rfl, h⟩ hbad ⟨hretains, -⟩
    obtain ⟨id, hflight, hgone⟩ := h.lost hblock hid hcarries hcrowds hbad
    exact hgone (hretains id hflight)
  · intro past packet hpre
    obtain ⟨sent, hmem, hpacket⟩ := hpackets packet (hpre.subset (by simp))
    obtain ⟨T, hT, hblock⟩ := hsent sent hmem
    obtain ⟨sequence, esi, hid, hcarries⟩ := hT.carries hpacket
    exact ⟨⟨T.block, hblock, hid, sequence, esi, hcarries⟩, hroom past packet hpre⟩

/-! ### Two epochs -/

/-- There is room for the block of the datagram. -/
def hasRoom (decoder : MultichannelAudioFecDecoder X) (packet : MultichannelAudioDatagram) : Bool :=
  decide ((insert packet.blockId decoder.inFlight).card ≤ decoder.maxInFlightBlocks)

/-- The windows agree about any datagram of the block. -/
def isNear (decoder : MultichannelAudioFecDecoder X) (packet : MultichannelAudioDatagram) : Bool :=
  decide (packet.blockId ∉ decoder.fec.completed) &&
    decide (decoder.inFlight.filter (fun id => ¬ Retained packet.blockId id) = ∅)

lemma not_crowds_of_hasRoom {decoder : MultichannelAudioFecDecoder X}
    {packet : MultichannelAudioDatagram} (h : decoder.hasRoom packet = true) :
    ¬ decoder.Crowds packet :=
  fun hcrowds => absurd hcrowds.full (Nat.not_lt.mpr (of_decide_eq_true h))

lemma consistent_of_isNear {decoder : MultichannelAudioFecDecoder X}
    {packet : MultichannelAudioDatagram} (h : decoder.isNear packet = true) :
    decoder.Consistent packet := by
  obtain ⟨hopen, hnear⟩ := Bool.and_eq_true_iff.mp h
  exact ⟨fun hin => absurd hin (of_decide_eq_true hopen), fun _ _ id hid =>
    not_not.mp (Finset.filter_eq_empty_iff.mp (of_decide_eq_true hnear) hid)⟩

/-- Two epochs in turn, in every step of which the windows agree. -/
theorem retains_iff_two :
    ∃ result, sampleEncoder.encodeAll repetition [.encode sampleEpoch, .encode sampleEpoch]
        = some result ∧ (picked [1, 4, 3, 2] result.1).length = 4 ∧
      EveryState pushPacket (configured [] : MultichannelAudioFecDecoder repetition)
        (picked [1, 4, 3, 2] result.1) fun past decoder =>
          (∀ id ∈ decoder.inFlight, id ∈ decoder.fec.blocks) ∧
          ∀ sent ∈ result.1, sent.Determined repetitionIdeal past →
            ∀ i < sent.encoded.sourceSymbols.toNat,
              IsOutput (pushedShards (configured [] : MultichannelAudioFecDecoder repetition)
                (past.map (·.payload))) sent.blockId (UInt16.ofNat i) := by
  have hchecks : (sampleEncoder.encodeAll repetition
      [.encode sampleEpoch, .encode sampleEpoch]).map (fun result =>
        let packets := picked [1, 4, 3, 2] result.1
        let start : MultichannelAudioFecDecoder repetition := configured []
        (decide ((result.1.map SentEpoch.blockId).Pairwise (· < ·)), packets.length,
          checkSteps pushPacket hasRoom start packets, checkSteps pushPacket isNear start packets))
        = some (true, 4, true, true) := by
    decide +kernel
  obtain ⟨result, hrun, hresult⟩ := Option.map_eq_some_iff.mp hchecks
  obtain ⟨hids, hrest⟩ := Prod.mk.inj hresult
  obtain ⟨hlength, hrest⟩ := Prod.mk.inj hrest
  obtain ⟨hroom, hnear⟩ := Prod.mk.inj hrest
  refine ⟨result, hrun, hlength, ?_⟩
  exact (retains_iff repetitionIdeal sampleEncoder _ hrun (of_decide_eq_true hids) []
    mem_picked (EveryStep.of_checkSteps hroom fun _ _ _ _ => not_crowds_of_hasRoom)).mpr
    (EveryStep.of_checkSteps hnear fun _ _ _ _ => consistent_of_isNear)

/-- **A block that is overtaken loses its symbols.**  One symbol of block 0 arrives, block 65 is
completed, and a second symbol of block 0 arrives, which together with the first one determines
it. -/
theorem overtaken_lost :
    ¬ ∀ (X : Crates) (code : X.Ideal), code.Threshold →
      ∀ (encoder : MultichannelAudioFecEncoder) (ops : List AudioEncoderOp)
        (result : List SentEpoch × MultichannelAudioFecEncoder),
        encoder.encodeAll X ops = some result →
        (result.1.map SentEpoch.blockId).Pairwise (· < ·) →
        ∀ (limits : List Limit) (packets : List MultichannelAudioDatagram),
        (∀ packet ∈ packets, ∃ sent ∈ result.1, packet ∈ sent.datagrams) →
        (EveryStep pushPacket (configured limits : MultichannelAudioFecDecoder X) packets
          fun _ decoder packet => ¬ decoder.Crowds packet) →
        EveryState pushPacket (configured limits : MultichannelAudioFecDecoder X) packets
          fun past decoder => (∀ id ∈ decoder.inFlight, id ∈ decoder.fec.blocks) ∧
            ∀ sent ∈ result.1, sent.Determined code past →
              ∀ i < sent.encoded.sourceSymbols.toNat,
                IsOutput (pushedShards (configured limits : MultichannelAudioFecDecoder X)
                  (past.map (·.payload))) sent.blockId (UInt16.ofNat i) := by
  intro hall
  have hchecks : (sampleEncoder.encodeAll repetition
      [.encode sampleEpoch, .setBlockId 65, .encode sampleEpoch]).map (fun result =>
        let packets := picked [1, 3, 4, 2] result.1
        let start : MultichannelAudioFecDecoder repetition := configured []
        (decide ((result.1.map SentEpoch.blockId).Pairwise (· < ·)),
          checkSteps pushPacket hasRoom start packets,
          result.1.head?.any (fun sent =>
            let symbols := survivingSymbols repetition (packets.map (·.payload)) sent.blockId
            let count := symbolsFor (sent.encoded.sourceSymbols.toNat
              * sent.encoded.symbolSize.toNat) sent.encoded.symbolSize
            decide (symbols.Nonempty) && decide (∀ i < count, ∃ e ∈ symbols, e % count = i) &&
              decide (0 < sent.encoded.sourceSymbols.toNat) &&
              (pushedShards start (packets.map (·.payload))).all fun shard =>
                decide (¬ (shard.blockId = sent.blockId ∧ shard.index = 0)))))
        = some (true, true, true) := by
    decide +kernel
  obtain ⟨result, hrun, hresult⟩ := Option.map_eq_some_iff.mp hchecks
  obtain ⟨hids, hrest⟩ := Prod.mk.inj hresult
  obtain ⟨hroom, hlost⟩ := Prod.mk.inj hrest
  obtain ⟨sent, hsent, hlost⟩ := (Option.any_eq_true _ _).mp hlost
  simp only [Bool.and_eq_true_iff, decide_eq_true_eq, List.all_eq_true] at hlost
  obtain ⟨⟨⟨hnonempty, hdecodable⟩, hpos⟩, hmissing⟩ := hlost
  have hrecovers := (hall repetition repetitionIdeal repetitionIdeal_threshold sampleEncoder _ result
    hrun (of_decide_eq_true hids) [] _ mem_picked
    (EveryStep.of_checkSteps hroom fun _ _ _ _ => not_crowds_of_hasRoom) _
    (List.prefix_refl _)).2 sent (List.mem_of_mem_head? hsent) ⟨hnonempty, hdecodable⟩ 0 hpos
  obtain ⟨shard, hshard, hid, hindex⟩ := hrecovers
  exact hmissing shard hshard ⟨hid, hindex⟩

end MultichannelAudioFecDecoder

end RaptorFec
