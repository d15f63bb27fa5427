import RaptorFec.Audio.Delivered
import RaptorFec.Audio.Transmission

/-!
# Decoding honest audio datagrams

What the audio decoder does when every datagram carries a symbol of one of a set of audio blocks
with distinct ids.

* `AudioBlock.shard` — the shard in a source symbol of a block; a source datagram is read as the
  shard of its symbol (`reads_of_carries`), and the object of a block as all its shards
  (`completeBlock_object`);
* `pushDatagram_waits`, `pushDatagram_returns` — a datagram of a block that is not remembered as
  closed delivers its own shard, or every shard that is missing when it completes the block;
* `Hears` — the datagram decoder holds symbols of the blocks only; kept by every datagram for a
  sound code (`Hears.push`), and each delivers shards of its own block and nothing else.
-/

namespace RaptorFec

/-- A set of audio blocks with distinct ids. -/
structure AudioBlockSet where
  blocks : Set AudioBlock
  inj : ∀ b ∈ blocks, ∀ b' ∈ blocks, b.id = b'.id → b = b'

instance : Membership AudioBlock AudioBlockSet := ⟨fun A b => b ∈ A.blocks⟩

namespace AudioBlockSet

variable (A : AudioBlockSet)

/-- The source blocks of the audio blocks. -/
def blockSet : BlockSet where
  blocks := {b | ∃ block ∈ A, block.toSourceBlock = b}
  inj := by
    rintro _ ⟨b, hb, rfl⟩ _ ⟨b', hb', rfl⟩ hid
    rw [A.inj b hb b' hb' hid]

variable {A}

lemma mem_blockSet {block : AudioBlock} (h : block ∈ A) : block.toSourceBlock ∈ A.blockSet :=
  ⟨block, h, rfl⟩

/-- A single block. -/
def single (block : AudioBlock) : AudioBlockSet where
  blocks := {block}
  inj := by
    rintro b rfl b' rfl -
    rfl

end AudioBlockSet

/-! ## The shards of a block -/

namespace AudioBlock

variable (block : AudioBlock)

/-- The shard in a source symbol of the block. -/
def shard (recovery : MultichannelAudioRecovery) (i : ℕ) : DecodedMultichannelAudioShard :=
  ⟨block.id, block.shardHeader i, recovery, block.shardPayload i⟩

/-- The shard is one of the block. -/
def HasShard (shard : DecodedMultichannelAudioShard) : Prop :=
  ∃ i < block.sourceSymbols, ∃ recovery, shard = block.shard recovery i

lemma HasShard.blockId_eq {block : AudioBlock} {shard : DecodedMultichannelAudioShard}
    (h : block.HasShard shard) : shard.blockId = block.id := by
  obtain ⟨i, -, recovery, rfl⟩ := h
  rfl

/-- The shard that the datagram of a symbol delivers. -/
def candidate (esi : ℕ) : Option DecodedMultichannelAudioShard :=
  if esi < block.sourceSymbols then some (block.shard .systematic esi) else none

variable {block}

lemma index_shard {i : ℕ} (hi : i < block.sourceSymbols) (recovery : MultichannelAudioRecovery) :
    (block.shard recovery i).index = UInt16.ofNat i := block.sourceIndex_eq i hi

lemma decodeSymbol_piece {i : ℕ} (hi : i < block.sourceSymbols)
    (recovery : MultichannelAudioRecovery) :
    decodeSymbol block.id (piece block.object block.symbolSize.toNat i)
      (UInt16.ofNat block.sourceSymbols) (UInt16.ofNat i) recovery
        = .ok (block.shard recovery i) := by
  have hidentity : ¬ ((block.shardHeader i).sourceCount ≠ UInt16.ofNat block.sourceSymbols ∨
      (block.shardHeader i).sourceIndex ≠ UInt16.ofNat i) := by
    rw [block.sourceCount_eq i hi, block.sourceIndex_eq i hi]
    simp
  rw [decodeSymbol, block.decode_piece i hi, ok_bind, if_neg hidentity, block.payload_piece i hi]
  rfl

section Candidate

variable {X : Crates} {code : X.Systematic} {header : DatagramFecHeader} {esi : ℕ}

/-- A datagram of the block carries the shard of its symbol. -/
lemma sourceCandidate_packet (hannounces : block.Announces header) (hesi : esi < esiLimit) :
    sourceCandidate header (code.packet block.object block.symbolSize esi)
      = .ok (block.candidate esi) := by
  have hlt := block.ofNat_esi_lt_iff hesi
  have hid : (code.packet block.object block.symbolSize esi).encodingSymbolId
      = UInt32.ofNat esi := rfl
  rw [sourceCandidate, hannounces.sourceSymbols, hannounces.blockId, hid, candidate]
  by_cases hi : esi < block.sourceSymbols
  · have hindex := toUInt16_ofNat_esi hesi
    have hdata : (code.packet block.object block.symbolSize esi).data
        = piece block.object block.symbolSize.toNat esi := block.symbol_source code hi
    rw [if_pos (hlt.mpr hi), if_pos hi, hindex, hdata, decodeSymbol_piece hi]
    rfl
  · rw [if_neg fun h => hi (hlt.mp h), if_neg hi]

end Candidate

/-- The loop over the symbols of the object delivers what is missing of the block. -/
lemma recoverSymbols_pieces {header : DatagramFecHeader} (hannounces : block.Announces header)
    (symbols : List Bytes) (index : ℕ) (delivered : Finset UInt16)
    (output : List DecodedMultichannelAudioShard)
    (hend : index + symbols.length = block.sourceSymbols)
    (hsymbols : symbols = (List.range' index symbols.length).map
      (piece block.object block.symbolSize.toNat)) :
    ∃ output' delivered', recoverSymbols header index symbols delivered output
        = (.ok output', delivered') ∧
      (∀ shard ∈ output', shard ∈ output ∨ block.HasShard shard) ∧ delivered ⊆ delivered' ∧
      ∀ i, index ≤ i → i < block.sourceSymbols → UInt16.ofNat i ∈ delivered' := by
  induction symbols generalizing index delivered output with
  | nil =>
      rw [List.length_nil] at hend
      exact ⟨output, delivered, rfl, fun shard hshard => Or.inl hshard, Finset.Subset.refl _,
        fun i hle hlt => by omega⟩
  | cons symbol symbols ih =>
      rw [List.length_cons] at hend hsymbols
      rw [List.range'_succ, List.map_cons, List.cons.injEq] at hsymbols
      obtain ⟨rfl, hrest⟩ := hsymbols
      have hi : index < block.sourceSymbols := by omega
      -- the rest of the loop, from the source indices after this turn
      have hturn : ∀ before shards, UInt16.ofNat index ∈ before → delivered ⊆ before →
          (∀ shard ∈ shards, shard ∈ output ∨ block.HasShard shard) →
          ∃ output' delivered', recoverSymbols header (index + 1) symbols before shards
              = (.ok output', delivered') ∧
            (∀ shard ∈ output', shard ∈ output ∨ block.HasShard shard) ∧
            delivered ⊆ delivered' ∧
            ∀ i, index ≤ i → i < block.sourceSymbols → UInt16.ofNat i ∈ delivered' := by
        intro before shards hbefore hsub hshards
        obtain ⟨output', delivered', hloop, hnew, hgrow, hall⟩ :=
          ih (index + 1) before shards (by omega) hrest
        refine ⟨output', delivered', hloop, fun shard hshard => ?_, hsub.trans hgrow,
          fun i hle hlt => ?_⟩
        · rcases hnew shard hshard with hold | hhas
          · exact hshards shard hold
          · exact Or.inr hhas
        · rcases Nat.eq_or_lt_of_le hle with rfl | hlt'
          · exact hgrow hbefore
          · exact hall i hlt' hlt
      rw [recoverSymbols]
      by_cases hold : UInt16.ofNat index ∈ delivered
      · simp only [if_pos hold]
        exact hturn delivered output hold (Finset.Subset.refl _) fun shard hshard => Or.inl hshard
      · simp only [if_neg hold, hannounces.blockId, hannounces.sourceSymbols, decodeSymbol_piece hi]
        refine hturn _ _ (Finset.mem_insert_self _ _) (Finset.subset_insert _ _) ?_
        intro shard hshard
        rcases List.mem_append.mp hshard with hin | hlast
        · exact Or.inl hin
        · exact Or.inr ⟨index, hi, .raptorQ, List.mem_singleton.mp hlast⟩

/-- **The object of a block** completes it: every shard that was missing is delivered. -/
theorem completeBlock_object {X : Crates} (decoder : MultichannelAudioFecDecoder X)
    {header : DatagramFecHeader} (hannounces : block.Announces header)
    {before delivered : Finset UInt16} {output : List DecodedMultichannelAudioShard}
    (hnew : NewShards block.id before delivered output)
    (houtput : ∀ shard ∈ output, block.HasShard shard) :
    ∃ output' delivered', NewShards block.id before delivered' output' ∧
      (∀ shard ∈ output', block.HasShard shard) ∧
      (∀ i < block.sourceSymbols, UInt16.ofNat i ∈ delivered') ∧
      decoder.completeBlock header block.object delivered output
        = (.ok output', (decoder.setDelivered block.id delivered').closeBlock block.id) := by
  have hsize := block.one.symbolSize_pos
  have hlength : ¬ block.object.length ≠ header.symbolSize.toNat * header.sourceSymbols.toNat := by
    rw [hannounces.symbolSize, hannounces.sourceSymbols, block.toNat_sourceSymbols, Nat.mul_comm,
      not_not]
    exact block.length_object
  have hcount : (chunksExact header.symbolSize.toNat block.object).length
      = block.sourceSymbols := by
    rw [chunksExact, List.length_map, List.length_range, hannounces.symbolSize,
      block.length_object, Nat.mul_div_cancel _ hsize]
  obtain ⟨output', delivered', hloop, hshards, -, hall⟩ := recoverSymbols_pieces hannounces
    (chunksExact header.symbolSize.toNat block.object) 0 delivered output
    (by rw [hcount, Nat.zero_add])
    (by rw [chunksExact, List.length_map, List.length_range, ← List.range_eq_range',
      hannounces.symbolSize])
  rw [← hannounces.blockId] at hnew
  have hnew' := (newShards_recoverSymbols hnew 0
    (chunksExact header.symbolSize.toNat block.object)).2
  rw [hloop, hannounces.blockId] at hnew'
  refine ⟨_, delivered', (hnew' output' rfl).perm
    (MultichannelAudioFecDecoder.sortByKey_perm (fun shard => shard.header.sourceIndex.toNat) _),
    fun shard hshard => ?_, fun i hi => hall i (Nat.zero_le i) hi, ?_⟩
  · rw [(MultichannelAudioFecDecoder.sortByKey_perm _ _).mem_iff] at hshard
    rcases hshards shard hshard with hold | hhas
    · exact houtput shard hold
    · exact hhas
  · rw [MultichannelAudioFecDecoder.completeBlock, if_neg hlength, hloop, hannounces.blockId]

end AudioBlock

/-! ## Pushing an honest datagram -/

namespace MultichannelAudioFecDecoder

variable {X : Crates} {code : X.Systematic} {block : AudioBlock} {sequence : UInt32} {esi : ℕ}
  {datagram : Bytes} {self : MultichannelAudioFecDecoder X}

/-- A datagram of a block that is not remembered as closed gets to the datagram decoder. -/
lemma reads_of_carries (hcarries : Carries code block.toSourceBlock sequence esi datagram)
    (hopen : block.id ∉ self.completed) :
    ∃ header, Reads self datagram header (code.packet block.object block.symbolSize esi)
      (block.candidate esi) ∧ block.Announces header := by
  obtain ⟨header, hopens, hannounces, -⟩ := hcarries.opens
  refine ⟨header, ⟨hopens, ?_, ?_⟩, hannounces⟩
  · rw [hannounces.blockId]
    exact hopen
  · exact AudioBlock.sourceCandidate_packet hannounces hcarries.esi_lt

/-- A datagram of a block that is remembered as closed is ignored. -/
lemma pushDatagram_ignored (hcarries : Carries code block.toSourceBlock sequence esi datagram)
    (hclosed : block.id ∈ self.completed) : self.pushDatagram datagram = (.ok [], self) := by
  obtain ⟨header, hopens, hannounces, -⟩ := hcarries.opens
  rw [pushDatagram, hopens.decode]
  simp only [hannounces.blockId, if_pos hclosed]

/-- What a candidate delivers needs no sorting. -/
lemma sortByKey_deliverCandidate (delivered : Finset UInt16)
    (candidate : Option DecodedMultichannelAudioShard) :
    sortByKey (fun shard => shard.header.sourceIndex.toNat) (deliverCandidate delivered candidate).2
      = (deliverCandidate delivered candidate).2 := by
  cases candidate with
  | none => rfl
  | some shard =>
      rw [deliverCandidate]
      split_ifs <;> rfl

lemma hasShard_deliverCandidate (delivered : Finset UInt16) :
    ∀ shard ∈ (deliverCandidate delivered (block.candidate esi)).2, block.HasShard shard := by
  intro shard hshard
  rw [AudioBlock.candidate] at hshard
  split_ifs at hshard with hesi
  · rw [deliverCandidate] at hshard
    split_ifs at hshard
    · cases hshard
    · exact ⟨esi, hesi, .systematic, List.mem_singleton.mp hshard⟩
  · cases hshard

/-- **A datagram that does not complete its block** delivers its own shard. -/
theorem pushDatagram_waits (hqueued : Queued self)
    (hcarries : Carries code block.toSourceBlock sequence esi datagram)
    (hopen : block.id ∉ self.completed) {fec : DatagramFecDecoder X}
    (hfec : self.fec.pushDatagram datagram = (.ok none, fec)) :
    let given := deliverCandidate (self.deliveredOf block.id) (block.candidate esi)
    NewShards block.id (self.deliveredOf block.id) given.1 given.2 ∧
      self.pushDatagram datagram = (.ok given.2,
        ({ self with fec := fec }.observeInFlight block.id).setDelivered block.id given.1) := by
  obtain ⟨header, hreads, hannounces⟩ := reads_of_carries hcarries hopen
  have hown : ({ self with fec := fec }.observeInFlight block.id).deliveredOf block.id
      = self.deliveredOf block.id := by
    rcases deliveredOf_observeInFlight (hqueued.withFec fec) block.id block.id with heq | ⟨hne, -⟩
    · exact heq
    · exact absurd rfl hne
  have hnew := newShards_deliverCandidate hreads.reads (self.deliveredOf block.id)
  rw [hannounces.blockId] at hnew
  refine ⟨hnew, ?_⟩
  rw [self.pushDatagram_of_reads hreads, pushCandidate, hfec]
  simp only [hannounces.blockId, hown, sortByKey_deliverCandidate]

/-- **A datagram that completes its block** delivers every shard that is missing. -/
theorem pushDatagram_returns (hcarries : Carries code block.toSourceBlock sequence esi datagram)
    (hopen : block.id ∉ self.completed) {fec : DatagramFecDecoder X}
    (hfec : self.fec.pushDatagram datagram = (.ok (some block.object), fec)) :
    ∃ output delivered', NewShards block.id (self.deliveredOf block.id) delivered' output ∧
      (∀ shard ∈ output, block.HasShard shard) ∧
      (∀ i < block.sourceSymbols, UInt16.ofNat i ∈ delivered') ∧
      self.pushDatagram datagram = (.ok output,
        ({ self with fec := fec }.setDelivered block.id delivered').closeBlock block.id) := by
  obtain ⟨header, hreads, hannounces⟩ := reads_of_carries hcarries hopen
  have hnew := newShards_deliverCandidate hreads.reads (self.deliveredOf block.id)
  rw [hannounces.blockId] at hnew
  obtain ⟨output, delivered', hnew', hshards, hall, hcomplete⟩ :=
    AudioBlock.completeBlock_object { self with fec := fec } hannounces hnew
      (hasShard_deliverCandidate _)
  refine ⟨output, delivered', hnew', hshards, hall, ?_⟩
  rw [self.pushDatagram_of_reads hreads, pushCandidate, hfec]
  simp only [hannounces.blockId]
  exact hcomplete

/-- The datagram is filed with its block, for which there is room. -/
structure Files (block : AudioBlock) (datagram : Bytes) (decoder next : MultichannelAudioFecDecoder X)
    (output : List DecodedMultichannelAudioShard) : Prop where
  fec : next.fec = (decoder.fec.pushDatagram datagram).2
  inFlight : next.inFlight = insert block.id decoder.inFlight
  completed : next.completed = decoder.completed
  delivered : ∀ id, id ≠ block.id → next.deliveredOf id = decoder.deliveredOf id
  new : NewShards block.id (decoder.deliveredOf block.id) (next.deliveredOf block.id) output
  shards : ∀ shard ∈ output, block.HasShard shard

/-- **A datagram that does not complete its block, when there is room for that.** -/
theorem pushDatagram_files (h : Queued self)
    (hcarries : Carries code block.toSourceBlock sequence esi datagram)
    (hopen : block.id ∉ self.completed)
    (hroom : (insert block.id self.inFlight).card ≤ self.maxInFlightBlocks)
    (hfec : (self.fec.pushDatagram datagram).1 = .ok none) :
    ∃ output next, self.pushDatagram datagram = (.ok output, next) ∧
      Files block datagram self next output := by
  obtain ⟨hnew, hpush⟩ := pushDatagram_waits h hcarries hopen (Prod.ext hfec rfl)
  obtain ⟨hflight, hnext, hcompleted, hdelivered⟩ := observeInFlight_of_room
    (h.withFec (self.fec.pushDatagram datagram).2) hroom
  refine ⟨_, _, hpush, hnext, hflight, hcompleted, fun id hid => ?_, ?_,
    hasShard_deliverCandidate _⟩
  · rw [deliveredOf_setDelivered, if_neg hid, deliveredOf, hdelivered, deliveredOf]
  · rw [deliveredOf_setDelivered, if_pos rfl]
    exact hnew

/-- The datagram completes its block, which is closed. -/
structure CompletesBlock (block : AudioBlock) (datagram : Bytes)
    (decoder next : MultichannelAudioFecDecoder X) (output : List DecodedMultichannelAudioShard) :
    Prop where
  fec : next.fec = (decoder.fec.pushDatagram datagram).2
  inFlight : next.inFlight = decoder.inFlight.erase block.id
  closed : block.id ∈ next.completed
  completed : ∀ id ∈ next.completed, id = block.id ∨ id ∈ decoder.completed
  delivered : ∀ id, ∀ i ∈ next.deliveredOf id, i ∈ decoder.deliveredOf id
  new : ∃ delivered, NewShards block.id (decoder.deliveredOf block.id) delivered output ∧
    ∀ i < block.sourceSymbols, UInt16.ofNat i ∈ delivered
  shards : ∀ shard ∈ output, block.HasShard shard

/-- **A datagram that completes its block.** -/
theorem pushDatagram_completes (h : Queued self)
    (hcarries : Carries code block.toSourceBlock sequence esi datagram)
    (hopen : block.id ∉ self.completed)
    (hfec : (self.fec.pushDatagram datagram).1 = .ok (some block.object)) :
    ∃ output next, self.pushDatagram datagram = (.ok output, next) ∧
      CompletesBlock block datagram self next output := by
  obtain ⟨output, delivered', hnew, hshards, hall, hpush⟩ :=
    pushDatagram_returns hcarries hopen (Prod.ext hfec rfl)
  have hqueued := (h.withFec (self.fec.pushDatagram datagram).2).setDelivered block.id delivered'
  obtain ⟨completed, -, hclose⟩ := closeBlock_eq _ hqueued.completedOrder block.id
  refine ⟨_, _, hpush, ?_, ?_, mem_closeBlock hqueued block.id,
    fun id hid => mem_of_mem_closeBlock hqueued hid, fun id i hi => ?_,
    ⟨delivered', hnew, hall⟩, hshards⟩
  · rw [hclose]
    rfl
  · rw [hclose]
    rfl
  · by_cases hid : id = block.id
    · rw [hclose, deliveredOf, hid, Finmap.lookup_erase] at hi
      exact absurd hi (Finset.notMem_empty i)
    · rw [deliveredOf_closeBlock hqueued hid, deliveredOf_setDelivered, if_neg hid] at hi
      exact hi

/-! ## What a sound code delivers -/

/-- The datagram decoder holds symbols of the blocks only. -/
structure Hears (code : X.Sound) (A : AudioBlockSet) (decoder : MultichannelAudioFecDecoder X) :
    Prop extends Bounded decoder where
  holds : ∃ held, Holds code.toSystematic A.blockSet held decoder.fec

section Hears

variable {code : X.Sound} {A : AudioBlockSet}

lemma hears_new (code : X.Sound) (A : AudioBlockSet) :
    Hears code A (new : MultichannelAudioFecDecoder X) :=
  ⟨bounded_configured [], _, Holds.new _ _⟩

/-- Putting a block in flight may expire another one. -/
lemma holds_observeInFlight (h : Queued self) {blockId : UInt32}
    (hholds : ∃ held, Holds code.toSystematic A.blockSet held self.fec) :
    ∃ held, Holds code.toSystematic A.blockSet held (self.observeInFlight blockId).fec := by
  rcases observeInFlight_cases h blockId with ⟨-, heq⟩ | ⟨-, -, heq⟩ | ⟨-, oldest, rest, -, -, heq⟩
  · rw [heq]
    exact hholds
  · rw [heq]
    exact hholds
  · obtain ⟨completed, -, hremember⟩ := rememberClosed_eq
      (self.evicted blockId oldest rest) h.completedOrder oldest
    obtain ⟨held, hheld⟩ := hholds
    rw [heq, hremember]
    exact ⟨_, hheld.expire oldest⟩

/-- **A datagram of one of the blocks** is accepted, and delivers shards of that block. -/
theorem Hears.push (h : Hears code A self) (hblock : block ∈ A)
    (hcarries : Carries code.toSystematic block.toSourceBlock sequence esi datagram) :
    ∃ output next, self.pushDatagram datagram = (.ok output, next) ∧
      (∀ shard ∈ output, block.HasShard shard) ∧ Hears code A next := by
  have hbounded : Bounded (self.pushDatagram datagram).2 := h.toBounded.step (.push datagram)
  by_cases hclosed : block.id ∈ self.completed
  · refine ⟨[], self, pushDatagram_ignored hcarries hclosed, fun shard hshard => ?_, h⟩
    cases hshard
  obtain ⟨held, hheld⟩ := h.holds
  obtain ⟨hholds, hnone | hobject⟩ := hheld.push_sound (AudioBlockSet.mem_blockSet hblock) hcarries
  · obtain ⟨-, hpush⟩ := pushDatagram_waits h.toQueued hcarries hclosed (Prod.ext hnone rfl)
    rw [hpush] at hbounded
    exact ⟨_, _, hpush, hasShard_deliverCandidate _, hbounded,
      holds_observeInFlight (h.toQueued.withFec _) hholds⟩
  · obtain ⟨output, next, hpush, hcompletes⟩ :=
      pushDatagram_completes h.toQueued hcarries hclosed hobject
    rw [hpush] at hbounded
    exact ⟨output, next, hpush, hcompletes.shards, hbounded, hcompletes.fec ▸ hholds⟩

end Hears

end MultichannelAudioFecDecoder

end RaptorFec
