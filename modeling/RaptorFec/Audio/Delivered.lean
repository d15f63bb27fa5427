import RaptorFec.Audio.Bounded
import RaptorFec.Crates.Repetition

/-!
# What the audio decoder delivers

The decoder remembers which source indices of a block it delivered until the block is closed, and
then ignores the block for as long as it remembers that.  So a shard is delivered once, unless its
block was closed and forgotten in between, for which as many other blocks must have been closed as
the decoder remembers.

* `NewShards` — shards of one block under distinct source indices, none of them delivered before;
* `step_delivers` — the shards of one call are new, and an operation forgets them only when it
  closes their block;
* `delivered_twice` — the statement above, for every run;
* `filed_iff` — the map of delivered source indices has entries of blocks in flight only, exactly
  as long as no object is rejected whose block is not in flight.
-/

namespace RaptorFec

/-! ## New shards -/

section NewShards

variable {blockId : UInt32} {before middle after : Finset UInt16}
  {shards more : List DecodedMultichannelAudioShard} {header : DatagramFecHeader}

/-- The source index of a shard. -/
def DecodedMultichannelAudioShard.index (shard : DecodedMultichannelAudioShard) : UInt16 :=
  shard.header.sourceIndex

/-- Shards of one block under distinct source indices, of which none was delivered before, and all
are afterwards. -/
structure NewShards (blockId : UInt32) (before after : Finset UInt16)
    (shards : List DecodedMultichannelAudioShard) : Prop where
  blockId_eq : ∀ shard ∈ shards, shard.blockId = blockId
  nodup : (shards.map (·.index)).Nodup
  fresh : ∀ shard ∈ shards, shard.index ∉ before
  after_iff : ∀ i, i ∈ after ↔ i ∈ before ∨ i ∈ shards.map (·.index)

namespace NewShards

lemma nil (blockId : UInt32) (delivered : Finset UInt16) :
    NewShards blockId delivered delivered [] :=
  ⟨by simp, by simp, by simp, by simp⟩

/-- One more shard. -/
lemma snoc (h : NewShards blockId before after shards) {shard : DecodedMultichannelAudioShard}
    (hid : shard.blockId = blockId) (hnew : shard.index ∉ after) :
    NewShards blockId before (insert shard.index after) (shards ++ [shard]) := by
  have hnot : ¬ (shard.index ∈ before ∨ shard.index ∈ shards.map (·.index)) :=
    fun hin => hnew ((h.after_iff _).mpr hin)
  rw [not_or] at hnot
  refine ⟨?_, ?_, ?_, fun i => ?_⟩
  · intro other hother
    rcases List.mem_append.mp hother with hold | hlast
    · exact h.blockId_eq other hold
    · rw [List.mem_singleton.mp hlast]
      exact hid
  · rw [List.map_append, List.nodup_append]
    refine ⟨h.nodup, List.nodup_singleton _, ?_⟩
    intro i hi j hj
    rw [List.map_singleton, List.mem_singleton] at hj
    rw [hj]
    rintro rfl
    exact hnot.2 hi
  · intro other hother
    rcases List.mem_append.mp hother with hold | hlast
    · exact h.fresh other hold
    · rw [List.mem_singleton.mp hlast]
      exact hnot.1
  · rw [Finset.mem_insert, h.after_iff, List.map_append, List.mem_append, List.map_singleton,
      List.mem_singleton]
    tauto

/-- The order of the shards does not matter. -/
lemma perm (h : NewShards blockId before after shards) (hperm : more.Perm shards) :
    NewShards blockId before after more := by
  refine ⟨fun shard hshard => h.blockId_eq shard (hperm.mem_iff.mp hshard), ?_,
    fun shard hshard => h.fresh shard (hperm.mem_iff.mp hshard), fun i => ?_⟩
  · exact (hperm.map _).nodup_iff.mpr h.nodup
  · rw [h.after_iff, (hperm.map _).mem_iff]

end NewShards

lemma decodeSymbol_ok {symbol : Bytes} {count index : UInt16}
    {recovery : MultichannelAudioRecovery} {shard : DecodedMultichannelAudioShard}
    (h : decodeSymbol blockId symbol count index recovery = .ok shard) :
    shard.blockId = blockId ∧ shard.index = index := by
  rw [decodeSymbol] at h
  obtain ⟨header, -, h⟩ := bind_eq_ok_iff.mp h
  split_ifs at h with hidentity
  rw [not_or, not_not, not_not] at hidentity
  obtain ⟨payload, -, h⟩ := bind_eq_ok_iff.mp h
  obtain rfl := Except.ok.inj h
  exact ⟨rfl, hidentity.2⟩

/-- The shard of a source packet is one of its block. -/
lemma blockId_of_candidate {packet : EncodingPacket} {shard : DecodedMultichannelAudioShard}
    (h : sourceCandidate header packet = .ok (some shard)) : shard.blockId = header.blockId := by
  rw [sourceCandidate] at h
  split_ifs at h
  swap
  · cases h
  cases hdecode : decodeSymbol header.blockId packet.data header.sourceSymbols
      packet.encodingSymbolId.toUInt16 .systematic with
  | error error =>
      rw [hdecode] at h
      cases h
  | ok decoded =>
      rw [hdecode] at h
      obtain rfl := Option.some.inj (Except.ok.inj h)
      exact (decodeSymbol_ok hdecode).1

lemma newShards_deliverCandidate {packet : EncodingPacket}
    {candidate : Option DecodedMultichannelAudioShard}
    (h : sourceCandidate header packet = .ok candidate) (delivered : Finset UInt16) :
    NewShards header.blockId delivered
      (MultichannelAudioFecDecoder.deliverCandidate delivered candidate).1
      (MultichannelAudioFecDecoder.deliverCandidate delivered candidate).2 := by
  cases candidate with
  | none => exact NewShards.nil _ _
  | some source =>
      rw [MultichannelAudioFecDecoder.deliverCandidate]
      split_ifs with hold
      · exact NewShards.nil _ _
      · exact (NewShards.nil _ _).snoc (blockId_of_candidate h) hold

/-- The loop over the symbols of an object delivers what was missing, and forgets nothing. -/
lemma newShards_recoverSymbols (h : NewShards header.blockId before middle shards)
    (index : ℕ) (symbols : List Bytes) :
    middle ⊆ (recoverSymbols header index symbols middle shards).2 ∧
      ∀ output, (recoverSymbols header index symbols middle shards).1 = .ok output →
        NewShards header.blockId before (recoverSymbols header index symbols middle shards).2
          output := by
  induction symbols generalizing index middle shards with
  | nil =>
      refine ⟨Finset.Subset.refl _, fun output houtput => ?_⟩
      obtain rfl := Except.ok.inj houtput
      exact h
  | cons symbol symbols ih =>
      rw [recoverSymbols]
      by_cases hold : UInt16.ofNat index ∈ middle
      · simp only [if_pos hold]
        exact ih h (index + 1)
      · simp only [if_neg hold]
        cases hdecode : decodeSymbol header.blockId symbol header.sourceSymbols
            (UInt16.ofNat index) .raptorQ with
        | error error => exact ⟨Finset.Subset.refl _, fun output houtput => by cases houtput⟩
        | ok shard =>
            obtain ⟨hid, hindex⟩ := decodeSymbol_ok hdecode
            rw [← hindex] at hold
            obtain ⟨hsub, hnew⟩ := ih (h.snoc hid hold) (index + 1)
            rw [hindex] at hsub hnew
            exact ⟨(Finset.subset_insert _ _).trans hsub, hnew⟩

end NewShards

namespace MultichannelAudioFecDecoder

variable {X : Crates} {self : MultichannelAudioFecDecoder X}

/-- The shards a call delivers. -/
def shards (result : Except MultichannelAudioFecError (List DecodedMultichannelAudioShard)) :
    List DecodedMultichannelAudioShard := result.toOption.getD []

@[simp] lemma shards_ok (output : List DecodedMultichannelAudioShard) :
    shards (.ok output) = output := rfl

@[simp] lemma shards_error (error : MultichannelAudioFecError) :
    shards (.error error) = [] := rfl

/-! ## What an operation makes of the delivered source indices -/

lemma deliveredOf_setDelivered (blockId i : UInt32) (delivered : Finset UInt16) :
    (self.setDelivered blockId delivered).deliveredOf i
      = if i = blockId then delivered else self.deliveredOf i := by
  rw [deliveredOf, setDelivered, HashMap.lookup_insert_eq]
  split_ifs
  · rfl
  · rfl

variable (self) in
/-- The block that is closed is remembered. -/
lemma mem_rememberClosed (h : Enumerates self.completedOrder self.completed)
    (hle : self.completed.card ≤ self.maxCompletedBlocks) (hpos : 0 < self.maxCompletedBlocks)
    (blockId : UInt32) : blockId ∈ (self.rememberClosed blockId).completed := by
  obtain ⟨completed, horder, hclosed⟩ := self.rememberClosed_eq h blockId
  rw [hclosed]
  refine (horder.mem_iff blockId).mp ?_
  by_cases hold : blockId ∈ self.completedOrder
  · rw [remember, if_pos hold, trim_of_le (h.length_eq.trans_le hle)]
    exact hold
  · obtain ⟨front, hremember⟩ := remember_new hpos hold
    rw [hremember]
    simp

lemma mem_closeBlock (h : Queued self) (blockId : UInt32) :
    blockId ∈ (self.closeBlock blockId).completed :=
  mem_rememberClosed { self with
    inFlight := self.inFlight.erase blockId
    inFlightOrder := self.inFlightOrder.filter (· ≠ blockId)
    delivered := self.delivered.erase blockId } h.completedOrder h.completed_le
    h.maxCompletedBlocks_pos blockId

/-- Closing a block remembers no other block. -/
lemma mem_of_mem_closeBlock (h : Queued self) {blockId id : UInt32}
    (hid : id ∈ (self.closeBlock blockId).completed) : id = blockId ∨ id ∈ self.completed := by
  obtain ⟨completed, horder, hclose⟩ := self.closeBlock_eq h.completedOrder blockId
  rw [hclose] at hid
  have hmem := mem_of_mem_trim ((horder.mem_iff id).mpr hid)
  split_ifs at hmem
  · exact Or.inr ((h.completedOrder.mem_iff id).mp hmem)
  · rcases List.mem_append.mp hmem with hold | hnew
    · exact Or.inr ((h.completedOrder.mem_iff id).mp hold)
    · exact Or.inl (List.mem_singleton.mp hnew)

/-- Closing a block forgets its source indices only. -/
lemma deliveredOf_closeBlock (h : Queued self) {blockId i : UInt32} (hne : i ≠ blockId) :
    (self.closeBlock blockId).deliveredOf i = self.deliveredOf i := by
  obtain ⟨completed, -, hclose⟩ := self.closeBlock_eq h.completedOrder blockId
  rw [hclose, deliveredOf, HashMap.lookup_erase_eq, if_neg hne, deliveredOf]

/-- Observing a block forgets the source indices of a block it closes only, which is another
one. -/
lemma deliveredOf_observeInFlight (h : Queued self) (blockId i : UInt32) :
    (self.observeInFlight blockId).deliveredOf i = self.deliveredOf i ∨
      i ≠ blockId ∧ i ∈ (self.observeInFlight blockId).completed := by
  rcases observeInFlight_cases h blockId with ⟨-, heq⟩ | ⟨-, -, heq⟩ |
    ⟨hnew, oldest, rest, hlist, -, heq⟩
  · exact Or.inl (by rw [heq])
  · exact Or.inl (by rw [heq]; rfl)
  · rw [heq]
    by_cases hi : i = oldest
    · right
      have holdest : i ∈ self.inFlight := (h.inFlightOrder.mem_iff i).mp (by simp [hlist, hi])
      refine ⟨?_, ?_⟩
      · rintro rfl
        exact hnew holdest
      · rw [hi]
        exact mem_rememberClosed (self.evicted blockId oldest rest) h.completedOrder
          h.completed_le h.maxCompletedBlocks_pos oldest
    · left
      obtain ⟨completed, -, hremember⟩ :=
        rememberClosed_eq (self.evicted blockId oldest rest) h.completedOrder oldest
      rw [hremember]
      change ((self.delivered.erase oldest).lookup i).getD ∅ = _
      rw [HashMap.lookup_erase_eq, if_neg hi, deliveredOf]

lemma sortByKey_perm {α : Type} (key : α → ℕ) (xs : List α) : (sortByKey key xs).Perm xs :=
  List.perm_insertionSort _ xs

variable (self) in
/-- What becomes of an object: the shards that were missing are delivered and the block is closed,
or the object is rejected, and what was delivered is remembered. -/
lemma completeBlock_cases {header : DatagramFecHeader} {before delivered : Finset UInt16}
    {output : List DecodedMultichannelAudioShard} (object : Bytes)
    (h : NewShards header.blockId before delivered output) :
    (∃ error delivered', before ⊆ delivered' ∧
      self.completeBlock header object delivered output
        = (.error error, self.setDelivered header.blockId delivered')) ∨
    (∃ output' delivered', NewShards header.blockId before delivered' output' ∧
      self.completeBlock header object delivered output
        = (.ok output', (self.setDelivered header.blockId delivered').closeBlock
            header.blockId)) := by
  have hbefore : before ⊆ delivered := fun i hi => (h.after_iff i).mpr (Or.inl hi)
  rw [completeBlock]
  split_ifs
  · exact Or.inl ⟨_, delivered, hbefore, rfl⟩
  · obtain ⟨hsub, hnew⟩ := newShards_recoverSymbols h 0
      (chunksExact header.symbolSize.toNat object)
    cases hrecover : recoverSymbols header 0 (chunksExact header.symbolSize.toNat object)
        delivered output with
    | mk result delivered' =>
        rw [hrecover] at hsub hnew
        cases result with
        | error error => exact Or.inl ⟨error, delivered', hbefore.trans hsub, rfl⟩
        | ok output' =>
            exact Or.inr ⟨_, delivered', (hnew output' rfl).perm (sortByKey_perm _ _), rfl⟩

/-- **What an operation delivers, and what it forgets.**  It delivers new shards of one block, which
was not remembered as closed.  Of a block that is not remembered as closed afterwards it forgets
nothing. -/
theorem step_delivers (h : Bounded self) (op : FecOp) :
    ∃ id after, NewShards id (self.deliveredOf id) after (shards (self.step op).1) ∧
      (shards (self.step op).1 ≠ [] → id ∉ self.completed) ∧
      (id ∉ (self.step op).2.completed → after ⊆ (self.step op).2.deliveredOf id) ∧
      ∀ i, i ∉ (self.step op).2.completed →
        self.deliveredOf i ⊆ (self.step op).2.deliveredOf i := by
  have hnothing : ∀ next : MultichannelAudioFecDecoder X,
      (∀ i, i ∉ next.completed → self.deliveredOf i ⊆ next.deliveredOf i) →
      ∃ id after, NewShards id (self.deliveredOf id) after [] ∧
        (([] : List DecodedMultichannelAudioShard) ≠ [] → id ∉ self.completed) ∧
        (id ∉ next.completed → after ⊆ next.deliveredOf id) ∧
        ∀ i, i ∉ next.completed → self.deliveredOf i ⊆ next.deliveredOf i :=
    fun next hmono => ⟨0, _, NewShards.nil _ _, fun hne => absurd rfl hne, hmono 0, hmono⟩
  have hclosed : ∀ (next : MultichannelAudioFecDecoder X) (id : UInt32), Queued next →
      (∀ i, i ≠ id → next.deliveredOf i = self.deliveredOf i) →
      ∀ i, i ∉ (next.closeBlock id).completed →
        self.deliveredOf i ⊆ (next.closeBlock id).deliveredOf i := by
    intro next id hqueued hother i hi
    have hne : i ≠ id := by
      rintro rfl
      exact hi (mem_closeBlock hqueued i)
    rw [deliveredOf_closeBlock hqueued hne, hother i hne]
  cases op with
  | expire blockId =>
      exact hnothing _ (hclosed { self with fec := self.fec.expireBlock blockId } blockId
        (h.toQueued.withFec _) fun i _ => rfl)
  | push datagram =>
      rw [step]
      rcases self.pushDatagram_cases datagram with (⟨error, hpush⟩ | hpush) |
        ⟨header, packet, candidate, hreads, ⟨error, fec, hfec, hpush⟩ | ⟨fec, hfec, hpush⟩ |
          ⟨object, fec, hfec, hpush⟩⟩
      · rw [hpush]
        exact hnothing self fun i _ => Finset.Subset.refl _
      · rw [hpush]
        exact hnothing self fun i _ => Finset.Subset.refl _
      · rw [hpush]
        exact hnothing _ fun i _ => Finset.Subset.refl _
      · have hqueued := h.toQueued.withFec fec
        have hown : ({ self with fec := fec }.observeInFlight header.blockId).deliveredOf
            header.blockId = self.deliveredOf header.blockId := by
          rcases deliveredOf_observeInFlight hqueued header.blockId header.blockId with
            heq | ⟨hne, -⟩
          · exact heq
          · exact absurd rfl hne
        have hnew := newShards_deliverCandidate hreads.reads (self.deliveredOf header.blockId)
        rw [hpush]
        simp only [hown]
        refine ⟨header.blockId, _, hnew.perm (sortByKey_perm _ _), fun _ => hreads.notClosed,
          fun _ => ?_, fun i hi => ?_⟩
        · rw [deliveredOf_setDelivered, if_pos rfl]
        · rw [deliveredOf_setDelivered]
          split_ifs with heq
          · rw [heq]
            exact fun j hj => (hnew.after_iff j).mpr (Or.inl hj)
          · rcases deliveredOf_observeInFlight hqueued header.blockId i with hsame | ⟨-, hclosed⟩
            · rw [hsame]
              exact Finset.Subset.refl _
            · exact absurd hclosed hi
      · have hnew := newShards_deliverCandidate hreads.reads (self.deliveredOf header.blockId)
        rw [hpush]
        rcases completeBlock_cases { self with fec := fec } object hnew with
          ⟨error, delivered', hsub, heq⟩ | ⟨output', delivered', hnew', heq⟩
        · simp only [heq, shards_error]
          refine hnothing _ fun i _ => ?_
          rw [deliveredOf_setDelivered]
          split_ifs with hi
          · rw [hi]
            exact hsub
          · exact Finset.Subset.refl _
        · simp only [heq, shards_ok]
          have hqueued := (h.toQueued.withFec fec).setDelivered header.blockId delivered'
          refine ⟨header.blockId, delivered', hnew', fun _ => hreads.notClosed, fun hopen => ?_,
            hclosed _ _ hqueued fun i hne => ?_⟩
          · exact absurd (mem_closeBlock hqueued header.blockId) hopen
          · rw [deliveredOf_setDelivered, if_neg hne]
            rfl

/-! ## Closing and forgetting blocks -/

/-- An operation closes one block at most. -/
theorem completedOrder_step (h : Bounded self) (op : FecOp) :
    (self.step op).2.completedOrder = self.completedOrder ∨
      ∃ c, (self.step op).2.completedOrder
        = remember self.maxCompletedBlocks self.completedOrder c := by
  have hclose : ∀ (next : MultichannelAudioFecDecoder X) (id : UInt32), Queued next →
      next.completedOrder = self.completedOrder →
      next.maxCompletedBlocks = self.maxCompletedBlocks →
      ∃ c, (next.closeBlock id).completedOrder
        = remember self.maxCompletedBlocks self.completedOrder c := by
    intro next id hqueued horder hmax
    obtain ⟨completed, -, heq⟩ := next.closeBlock_eq hqueued.completedOrder id
    exact ⟨id, by rw [heq, horder, hmax]⟩
  cases op with
  | expire blockId =>
      exact Or.inr (hclose { self with fec := self.fec.expireBlock blockId } blockId
        (h.toQueued.withFec _) rfl rfl)
  | push datagram =>
      rw [step]
      rcases self.pushDatagram_cases datagram with (⟨error, hpush⟩ | hpush) |
        ⟨header, packet, candidate, hreads, ⟨error, fec, hfec, hpush⟩ | ⟨fec, hfec, hpush⟩ |
          ⟨object, fec, hfec, hpush⟩⟩
      · exact Or.inl (by rw [hpush])
      · exact Or.inl (by rw [hpush])
      · exact Or.inl (by rw [hpush])
      · rw [hpush]
        rcases observeInFlight_cases (h.toQueued.withFec fec) header.blockId with ⟨-, heq⟩ |
          ⟨-, -, heq⟩ | ⟨-, oldest, rest, -, -, heq⟩
        · exact Or.inl (by simp only [heq, setDelivered])
        · exact Or.inl (by simp only [heq, setDelivered])
        · obtain ⟨completed, -, hremember⟩ := rememberClosed_eq
            ({ self with fec := fec }.evicted header.blockId oldest rest) h.completedOrder oldest
          exact Or.inr ⟨oldest, by simp only [heq, hremember, setDelivered]; rfl⟩
      · rw [hpush]
        rcases completeBlock_cases { self with fec := fec } object (newShards_deliverCandidate
          hreads.reads (self.deliveredOf header.blockId)) with
          ⟨error, delivered', -, heq⟩ | ⟨output', delivered', -, heq⟩
        · exact Or.inl (by rw [heq]; rfl)
        · rw [heq]
          exact Or.inr (hclose _ _ ((h.toQueued.withFec fec).setDelivered _ delivered') rfl rfl)

/-- The operation closes the block, which was not remembered as closed before. -/
def Remembers (self : MultichannelAudioFecDecoder X) (op : FecOp) (id : UInt32) : Prop :=
  id ∉ self.completed ∧ id ∈ (self.step op).2.completed

/-- Some operation of a run closes the block. -/
def RemembersIn (self : MultichannelAudioFecDecoder X) (ops : List FecOp) (id : UInt32) : Prop :=
  ∃ before op after, ops = before ++ op :: after ∧ (runState step self before).Remembers op id

lemma RemembersIn.snoc {ops : List FecOp} {id : UInt32} (h : self.RemembersIn ops id)
    (op : FecOp) : self.RemembersIn (ops ++ [op]) id := by
  obtain ⟨before, closing, after, rfl, hcloses⟩ := h
  exact ⟨before, closing, after ++ [op], by simp, hcloses⟩

/-- Right after it was closed, a block is the last one in the queue. -/
lemma completedOrder_of_remembers (h : Bounded self) {op : FecOp} {id : UInt32}
    (hcloses : self.Remembers op id) : ∃ front, (self.step op).2.completedOrder = front ++ [id] := by
  obtain ⟨hopen, hclosed⟩ := hcloses
  have hmem := ((h.step op).completedOrder.mem_iff id).mpr hclosed
  have hnot : id ∉ self.completedOrder := fun hin => hopen ((h.completedOrder.mem_iff id).mp hin)
  rcases completedOrder_step h op with heq | ⟨c, heq⟩
  · rw [heq] at hmem
    exact absurd hmem hnot
  · rw [heq] at hmem
    have hid : id = c := by
      have hin := mem_of_mem_trim hmem
      split_ifs at hin
      · exact absurd hin hnot
      · rcases List.mem_append.mp hin with hold | hnew
        · exact absurd hold hnot
        · exact List.mem_singleton.mp hnew
    rw [heq, ← hid]
    exact remember_new h.maxCompletedBlocks_pos hnot

/-- What became of a block that was closed at the start of a run: it is remembered, with the blocks
closed during the run behind it, or as many other blocks were closed as are remembered. -/
structure ClosedSince (start : MultichannelAudioFecDecoder X) (id : UInt32) (past : List FecOp)
    (decoder : MultichannelAudioFecDecoder X) : Prop where
  state : decoder = runState step start past
  bounded : Bounded decoder
  limit : decoder.maxCompletedBlocks = start.maxCompletedBlocks
  remembered : (∃ front later, decoder.completedOrder = front ++ id :: later ∧
      ∀ c ∈ later, start.RemembersIn past c) ∨
    ∃ others : Finset UInt32, id ∉ others ∧ start.maxCompletedBlocks ≤ others.card ∧
      ∀ c ∈ others, start.RemembersIn past c

namespace ClosedSince

variable {start decoder : MultichannelAudioFecDecoder X} {id : UInt32} {past : List FecOp}

/-- The blocks behind a remembered block were closed during the run, the last one by the last
operation. -/
lemma behind (h : ClosedSince start id past decoder) {op : FecOp} {c : UInt32}
    {later later' : List UInt32} (hlater : ∀ c ∈ later, start.RemembersIn past c)
    (hc : (decoder.step op).2.completedOrder
      = remember decoder.maxCompletedBlocks decoder.completedOrder c)
    (hcase : later' = later ∨ later' = later ++ [c] ∧ c ∉ decoder.completedOrder) :
    ∀ d ∈ later', start.RemembersIn (past ++ [op]) d := by
  rintro d hd
  rcases hcase with rfl | ⟨rfl, hopen⟩
  · exact (hlater d hd).snoc op
  · rcases List.mem_append.mp hd with hold | hnew
    · exact (hlater d hold).snoc op
    · rw [List.mem_singleton.mp hnew]
      obtain ⟨front, hlast⟩ := remember_new h.bounded.maxCompletedBlocks_pos hopen
      refine ⟨past, op, [], rfl, ?_⟩
      rw [← h.state]
      refine ⟨fun hin => hopen ((h.bounded.completedOrder.mem_iff c).mpr hin), ?_⟩
      rw [← (h.bounded.step op).completedOrder.mem_iff, hc, hlast]
      simp

/-- Nothing in a queue is listed twice. -/
lemma nodup_behind {front later later' : List UInt32} {c : UInt32}
    (h : (front ++ id :: later).Nodup)
    (hcase : later' = later ∨ later' = later ++ [c] ∧ c ∉ front ++ id :: later) :
    id ∉ later' ∧ later'.Nodup := by
  have htail := List.nodup_cons.mp (List.nodup_append.mp h).2.1
  rcases hcase with rfl | ⟨rfl, hc⟩
  · exact htail
  · have hc' : c ∉ id :: later := fun hin => hc (List.mem_append_right _ hin)
    rw [List.mem_cons, not_or] at hc'
    refine ⟨by simp [htail.1, Ne.symm hc'.1], ?_⟩
    rw [← List.concat_eq_append]
    exact htail.2.concat hc'.2

/-- **The step lemma** of the queue of closed blocks. -/
lemma step (h : ClosedSince start id past decoder) (op : FecOp) :
    ClosedSince start id (past ++ [op]) (decoder.step op).2 := by
  refine ⟨by rw [runState_snoc, ← h.state], h.bounded.step op,
    (congrArg Prod.snd (limits_step h.bounded.toQueued op)).trans h.limit, ?_⟩
  rcases h.remembered with ⟨front, later, horder, hlater⟩ | ⟨others, hid, hcard, hall⟩
  · rcases completedOrder_step h.bounded op with heq | ⟨c, heq⟩
    · exact Or.inl ⟨front, later, heq.trans horder, fun c hc => (hlater c hc).snoc op⟩
    · have hbehind : ∀ later', (later' = later ∨ later' = later ++ [c] ∧
            c ∉ decoder.completedOrder) → ∀ d ∈ later', start.RemembersIn (past ++ [op]) d :=
        fun _ hcase => h.behind hlater heq hcase
      rw [horder] at heq hbehind
      rcases remember_split c with ⟨front', later', hremember, hcase⟩ | ⟨later', hfull, hcase⟩
      · exact Or.inl ⟨front', later', heq.trans hremember, hbehind later' hcase⟩
      · have hnodup := nodup_behind (horder ▸ h.bounded.completedOrder.nodup) hcase
        refine Or.inr ⟨later'.toFinset, fun hin => hnodup.1 (List.mem_toFinset.mp hin), ?_,
          fun d hd => hbehind later' hcase d (List.mem_toFinset.mp hd)⟩
        rw [List.toFinset_card_of_nodup hnodup.2, ← h.limit]
        exact hfull
  · exact Or.inr ⟨others, hid, hcard, fun c hc => (hall c hc).snoc op⟩

end ClosedSince

/-- **What it takes to forget a block.**  Between the operation that closed a block and a state that
does not remember it, as many other blocks were closed as are remembered. -/
theorem closed_before_forgotten (h : Bounded self) {op : FecOp} {id : UInt32}
    (hcloses : self.Remembers op id) (ops : List FecOp)
    (hforgot : id ∉ (runState step (self.step op).2 ops).completed) :
    ∃ others : Finset UInt32, id ∉ others ∧ self.maxCompletedBlocks ≤ others.card ∧
      ∀ c ∈ others, (self.step op).2.RemembersIn ops c := by
  obtain ⟨front, horder⟩ := completedOrder_of_remembers h hcloses
  have hlimit : (self.step op).2.maxCompletedBlocks = self.maxCompletedBlocks :=
    congrArg Prod.snd (limits_step h.toQueued op)
  have hstart : ClosedSince (self.step op).2 id [] (self.step op).2 :=
    ⟨rfl, h.step op, rfl, Or.inl ⟨front, [], horder, by simp⟩⟩
  have hend := run_invariant_all (ClosedSince (self.step op).2 id) hstart
    (fun _ _ op hsince => hsince.step op) ops
  rcases hend.remembered with ⟨front', later, horder', -⟩ | ⟨others, hid, hcard, hall⟩
  · exact absurd ((hend.bounded.completedOrder.mem_iff id).mp (by rw [horder']; simp)) hforgot
  · exact ⟨others, hid, by rwa [← hlimit], hall⟩

/-- A delivered shard stays delivered until its block is closed. -/
lemma delivered_or_remembers (h : Bounded self) {id : UInt32} {i : UInt16}
    (hopen : id ∉ self.completed) (hi : i ∈ self.deliveredOf id) (ops : List FecOp) :
    self.RemembersIn ops id ∨
      id ∉ (runState step self ops).completed ∧ i ∈ (runState step self ops).deliveredOf id := by
  induction ops using List.reverseRecOn with
  | nil => exact Or.inr ⟨hopen, hi⟩
  | append_singleton ops op ih =>
      rcases ih with hcloses | ⟨hopen', hi'⟩
      · exact Or.inl (hcloses.snoc op)
      · rw [runState_snoc]
        by_cases hclosed : id ∈ ((runState step self ops).step op).2.completed
        · exact Or.inl ⟨ops, op, [], rfl, hopen', hclosed⟩
        · have hbounded : Bounded (runState step self ops) :=
            run_invariant_all (fun _ decoder => Bounded decoder) h (fun _ _ op h => h.step op) ops
          obtain ⟨-, -, -, -, -, hmono⟩ := step_delivers hbounded op
          exact Or.inr ⟨hclosed, hmono id hclosed hi'⟩

/-- Two calls deliver a shard of one block under one source index only if the block was closed and
forgotten in between. -/
lemma forgotten_between (h : Bounded self) {first second : FecOp} {between : List FecOp}
    {shard again : DecodedMultichannelAudioShard} (hfirst : shard ∈ shards (self.step first).1)
    (hsecond : again ∈ shards ((runState step self (first :: between)).step second).1)
    (hid : again.blockId = shard.blockId) (hindex : again.index = shard.index) :
    ∃ between₁ closing between₂, first :: between = between₁ ++ closing :: between₂ ∧
      (runState step self between₁).Remembers closing shard.blockId ∧
      ∃ others : Finset UInt32, shard.blockId ∉ others ∧ self.maxCompletedBlocks ≤ others.card ∧
        ∀ c ∈ others, (runState step self (between₁ ++ [closing])).RemembersIn between₂ c := by
  have hbounded : ∀ ops, Bounded (runState step self ops) ∧
      (runState step self ops).limits = self.limits := fun ops =>
    run_invariant_all (fun _ decoder => Bounded decoder ∧ decoder.limits = self.limits) ⟨h, rfl⟩
      (fun _ _ op h => ⟨h.1.step op, (limits_step h.1.toQueued op).trans h.2⟩) ops
  -- the second call finds the block open, and the source index missing
  obtain ⟨id, after, hnew, hopen, -, -⟩ := step_delivers (hbounded (first :: between)).1 second
  obtain rfl : again.blockId = id := hnew.blockId_eq again hsecond
  have hend := hopen (List.ne_nil_of_mem hsecond)
  have hmissing := hnew.fresh again hsecond
  rw [hid] at hend
  rw [hid, hindex] at hmissing
  -- so an operation from the first call on closed the block
  have hcloses : self.RemembersIn (first :: between) shard.blockId := by
    obtain ⟨id, after, hnew, hopen, hafter, -⟩ := step_delivers h first
    obtain rfl : shard.blockId = id := hnew.blockId_eq shard hfirst
    have hstart := hopen (List.ne_nil_of_mem hfirst)
    by_cases hclosed : shard.blockId ∈ (self.step first).2.completed
    · exact ⟨[], first, between, rfl, hstart, hclosed⟩
    · have hin : shard.index ∈ (self.step first).2.deliveredOf shard.blockId :=
        hafter hclosed ((hnew.after_iff _).mpr (Or.inr (List.mem_map_of_mem hfirst)))
      rcases delivered_or_remembers (h.step first) hclosed hin between with
        ⟨before, closing, rest, rfl, hcloses⟩ | ⟨-, hstill⟩
      · exact ⟨first :: before, closing, rest, rfl, hcloses⟩
      · exact absurd hstill hmissing
  obtain ⟨between₁, closing, between₂, hsplit, hremembers⟩ := hcloses
  refine ⟨between₁, closing, between₂, hsplit, hremembers, ?_⟩
  rw [hsplit, runState_append] at hend
  obtain ⟨others, hother, hcard, hall⟩ :=
    closed_before_forgotten (hbounded between₁).1 hremembers between₂ hend
  have hlimit : (runState step self between₁).maxCompletedBlocks = self.maxCompletedBlocks :=
    congrArg Prod.snd (hbounded between₁).2
  refine ⟨others, hother, hlimit ▸ hcard, ?_⟩
  rwa [runState_snoc]

/-- **A shard is delivered twice only if its block was forgotten in between.**  The shards of one
call have distinct source indices.  When two calls deliver a shard of the same block under the same
source index, then an operation from the first of them on closed the block, and after it as many
other blocks were closed as the decoder remembers. -/
theorem delivered_twice (limits : List Limit) (ops : List FecOp) :
    (EveryStep step (configured limits : MultichannelAudioFecDecoder X) ops fun _ decoder op =>
      ((shards (decoder.step op).1).map fun shard => (shard.blockId, shard.index)).Nodup) ∧
    ∀ past first between second, past ++ first :: (between ++ [second]) <+: ops →
      ∀ shard ∈ shards ((runState step (configured limits : MultichannelAudioFecDecoder X)
        past).step first).1,
      ∀ again ∈ shards ((runState step (configured limits : MultichannelAudioFecDecoder X)
        (past ++ first :: between)).step second).1,
      again.blockId = shard.blockId → again.index = shard.index →
      ∃ between₁ closing between₂, first :: between = between₁ ++ closing :: between₂ ∧
        (runState step (configured limits : MultichannelAudioFecDecoder X)
          (past ++ between₁)).Remembers closing shard.blockId ∧
        ∃ others : Finset UInt32, shard.blockId ∉ others ∧
          (configured limits : MultichannelAudioFecDecoder X).maxCompletedBlocks ≤ others.card ∧
          ∀ c ∈ others, (runState step (configured limits : MultichannelAudioFecDecoder X)
            (past ++ (between₁ ++ [closing]))).RemembersIn between₂ c := by
  refine ⟨?_, ?_⟩
  · intro past op _
    obtain ⟨id, after, hnew, -⟩ := step_delivers (bounded_run (X := X) limits past).1 op
    refine List.Nodup.of_map Prod.snd ?_
    rw [List.map_map]
    exact hnew.nodup
  · intro past first between second _ shard hfirst again hsecond hid hindex
    obtain ⟨hbounded, hlimits⟩ := bounded_run (X := X) limits past
    rw [runState_append] at hsecond
    obtain ⟨between₁, closing, between₂, hsplit, hremembers, others, hother, hcard, hall⟩ :=
      forgotten_between hbounded hfirst hsecond hid hindex
    refine ⟨between₁, closing, between₂, hsplit, ?_, others, hother, ?_, ?_⟩
    · rw [runState_append]
      exact hremembers
    · exact (congrArg Prod.snd hlimits).symm.trans_le hcard
    · rw [runState_append]
      exact hall

/-- The header of a shard without payload, the only one of its block. -/
def lonelyShard : MultichannelAudioShardHeader where
  payloadKind := .pcm
  sampleFormat := .s16Le
  flags := 0
  sessionId := 0
  configGeneration := 0
  sampleRate := 48000
  frameCount := 1
  epochId := 0
  ptsSamples := 0
  groupId := 0
  groupIndex := 0
  groupCount := 1
  channelStart := 0
  channelCount := 1
  fragmentIndex := 0
  fragmentCount := 1
  sourceIndex := 0
  sourceCount := 1
  payloadLen := 0
  payloadOffset := 0
  groupPayloadLen := 0

/-- A datagram that carries the shard in a symbol of 72 bytes, which is the object. -/
def lonelyDatagram (blockId : UInt32) : Bytes :=
  let payload := repetition.serialize ⟨0, 0, lonelyShard.headerBytes⟩
  (DatagramFecHeader.sealed repetition blockId 72 0 1 72 payload).headerBytes ++ payload

/-- A decoder that remembers one closed block delivers a shard again when another block was closed
in between. -/
theorem delivered_twice_window_one :
    ∃ shard ∈ shards ((configured [.completed 1] : MultichannelAudioFecDecoder repetition).step
        (.push (lonelyDatagram 0))).1,
      ∃ again ∈ shards ((runState step
          (configured [.completed 1] : MultichannelAudioFecDecoder repetition)
          [.push (lonelyDatagram 0), .push (lonelyDatagram 1)]).step (.push (lonelyDatagram 0))).1,
      ∃ between₁ closing between₂, [.push (lonelyDatagram 0), .push (lonelyDatagram 1)]
          = between₁ ++ closing :: between₂ ∧
        (runState step (configured [.completed 1] : MultichannelAudioFecDecoder repetition)
          between₁).Remembers closing shard.blockId ∧
        ∃ others : Finset UInt32, shard.blockId ∉ others ∧ 1 ≤ others.card ∧
          ∀ c ∈ others, (runState step
            (configured [.completed 1] : MultichannelAudioFecDecoder repetition)
            (between₁ ++ [closing])).RemembersIn between₂ c := by
  have hfirst : (shards ((configured [.completed 1] :
      MultichannelAudioFecDecoder repetition).step (.push (lonelyDatagram 0))).1).map
        (fun shard => (shard.blockId, shard.index)) = [(0, 0)] := by
    decide +kernel
  have hsecond : (shards ((runState step
      (configured [.completed 1] : MultichannelAudioFecDecoder repetition)
      [.push (lonelyDatagram 0), .push (lonelyDatagram 1)]).step (.push (lonelyDatagram 0))).1).map
        (fun shard => (shard.blockId, shard.index)) = [(0, 0)] := by
    decide +kernel
  obtain ⟨shard, hshards, hshard⟩ := List.map_eq_singleton_iff.mp hfirst
  obtain ⟨again, hagains, hagain⟩ := List.map_eq_singleton_iff.mp hsecond
  have hsame := hagain.trans hshard.symm
  have hmem := hshards ▸ List.mem_singleton_self shard
  have hmem' := hagains ▸ List.mem_singleton_self again
  exact ⟨shard, hmem, again, hmem', (delivered_twice [.completed 1] _).2 [] _ [_] _
    (List.prefix_refl _) shard hmem again hmem' (congrArg Prod.fst hsame)
    (congrArg Prod.snd hsame)⟩

/-! ## Which objects are rejected -/

/-- An object of the block would be rejected: it does not have the announced length, or one of its
symbols was not delivered and is no shard. -/
def RejectsObject (header : DatagramFecHeader) (object : Bytes) (delivered : Finset UInt16) :
    Prop :=
  object.length ≠ header.symbolSize.toNat * header.sourceSymbols.toNat ∨
    ∃ i < header.sourceSymbols.toNat, UInt16.ofNat i ∉ delivered ∧
      ∀ shard, decodeSymbol header.blockId (piece object header.symbolSize.toNat i)
        header.sourceSymbols (UInt16.ofNat i) .raptorQ ≠ .ok shard

/-- The loop over the symbols succeeds when every symbol that was not delivered is a shard. -/
lemma recoverSymbols_ok_iff (header : DatagramFecHeader) (symbols : List Bytes) (index : ℕ)
    (delivered : Finset UInt16) (output : List DecodedMultichannelAudioShard)
    (hlen : index + symbols.length ≤ 2 ^ 16) :
    (∃ output', (recoverSymbols header index symbols delivered output).1 = .ok output') ↔
      ∀ k, ∀ hk : k < symbols.length, UInt16.ofNat (index + k) ∈ delivered ∨
        ∃ shard, decodeSymbol header.blockId symbols[k] header.sourceSymbols
          (UInt16.ofNat (index + k)) .raptorQ = .ok shard := by
  induction symbols generalizing index delivered output with
  | nil => exact ⟨fun _ k hk => absurd hk (Nat.not_lt_zero k), fun _ => ⟨output, rfl⟩⟩
  | cons symbol symbols ih =>
      rw [List.length_cons] at hlen
      have hstep : ∀ k, index + 1 + k = index + (k + 1) := fun k => by omega
      rw [recoverSymbols]
      by_cases hold : UInt16.ofNat index ∈ delivered
      · simp only [if_pos hold]
        rw [ih (index + 1) delivered output (by omega)]
        constructor
        · rintro hall (_ | k) hk
          · exact Or.inl hold
          · have hrest := hall k (Nat.lt_of_succ_lt_succ hk)
            rwa [hstep] at hrest
        · intro hall k hk
          rw [hstep]
          exact hall (k + 1) (Nat.succ_lt_succ hk)
      · simp only [if_neg hold]
        cases hdecode : decodeSymbol header.blockId symbol header.sourceSymbols
            (UInt16.ofNat index) .raptorQ with
        | error error =>
            refine ⟨fun hok => ?_, fun hall => ?_⟩
            · obtain ⟨output', houtput⟩ := hok
              cases houtput
            · rcases hall 0 (Nat.succ_pos _) with hin | ⟨shard, hshard⟩
              · exact absurd hin hold
              · cases hdecode.symm.trans hshard
        | ok shard =>
            simp only
            rw [ih (index + 1) _ _ (by omega)]
            -- a later symbol has another source index
            have hne : ∀ k < symbols.length, UInt16.ofNat (index + 1 + k) ≠ UInt16.ofNat index := by
              intro k hk heq
              have htoNat := congrArg UInt16.toNat heq
              rw [UInt16.toNat_ofNat_of_lt' (by simp only [UInt16.size]; omega),
                UInt16.toNat_ofNat_of_lt' (by simp only [UInt16.size]; omega)] at htoNat
              omega
            constructor
            · rintro hall (_ | k) hk
              · exact Or.inr ⟨shard, hdecode⟩
              · have hk' := Nat.lt_of_succ_lt_succ hk
                have hrest := hall k hk'
                rw [Finset.mem_insert, or_iff_right (hne k hk'), hstep] at hrest
                exact hrest
            · intro hall k hk
              rw [Finset.mem_insert, or_iff_right (hne k hk), hstep]
              exact hall (k + 1) (Nat.succ_lt_succ hk)

/-- **When an object is rejected.** -/
lemma completeBlock_ok_iff (self : MultichannelAudioFecDecoder X) {header : DatagramFecHeader}
    (hsize : 0 < header.symbolSize.toNat) (object : Bytes) (delivered : Finset UInt16)
    (output : List DecodedMultichannelAudioShard) :
    (∃ output', (self.completeBlock header object delivered output).1 = .ok output') ↔
      ¬ RejectsObject header object delivered := by
  rw [completeBlock, RejectsObject, not_or, not_not]
  split_ifs with hlen
  · refine ⟨?_, fun h => absurd h.1 hlen⟩
    rintro ⟨output', houtput⟩
    cases houtput
  have hcount : object.length / header.symbolSize.toNat = header.sourceSymbols.toNat := by
    rw [not_not.mp hlen]
    exact Nat.mul_div_cancel_left _ hsize
  have hbound : header.sourceSymbols.toNat < 2 ^ 16 := header.sourceSymbols.toNat_lt
  have hloop := recoverSymbols_ok_iff header (chunksExact header.symbolSize.toNat object) 0
    delivered output (by rw [chunksExact, List.length_map, List.length_range, hcount]; omega)
  have hcond : (∀ k, ∀ hk : k < (chunksExact header.symbolSize.toNat object).length,
      UInt16.ofNat (0 + k) ∈ delivered ∨ ∃ shard, decodeSymbol header.blockId
        (chunksExact header.symbolSize.toNat object)[k] header.sourceSymbols
        (UInt16.ofNat (0 + k)) .raptorQ = .ok shard) ↔
      ¬ ∃ i < header.sourceSymbols.toNat, UInt16.ofNat i ∉ delivered ∧
        ∀ shard, decodeSymbol header.blockId (piece object header.symbolSize.toNat i)
          header.sourceSymbols (UInt16.ofNat i) .raptorQ ≠ .ok shard := by
    simp only [chunksExact, List.length_map, List.length_range, hcount, List.getElem_map,
      List.getElem_range, Nat.zero_add]
    simp only [not_exists, not_and, not_forall, ne_eq, not_not]
    refine forall₂_congr fun k hk => ?_
    rw [← or_iff_not_imp_left]
  rw [hcond] at hloop
  rw [← hloop, and_iff_right (not_not.mp hlen)]
  cases hrecover : recoverSymbols header 0 (chunksExact header.symbolSize.toNat object)
      delivered output with
  | mk result delivered' =>
      cases result with
      | error error => simp
      | ok output' => simp

/-! ## Which blocks have delivered source indices -/

/-- The map of delivered source indices has entries of blocks in flight only. -/
def Filed (decoder : MultichannelAudioFecDecoder X) : Prop :=
  ∀ id ∈ decoder.delivered, id ∈ decoder.inFlight

/-- The datagram completes a block that is not in flight with an object that is rejected. -/
def CompletesRejected (decoder : MultichannelAudioFecDecoder X) (datagram : Bytes) : Prop :=
  ∃ header packet candidate object, Reads decoder datagram header packet candidate ∧
    header.blockId ∉ decoder.fec.completed ∧ decoder.fec.Accepts header packet ∧
    (X.decode (decoder.fec.blockFor header).decoder packet).1 = some object ∧
    RejectsObject header object
      (deliverCandidate (decoder.deliveredOf header.blockId) candidate).1 ∧
    header.blockId ∉ decoder.inFlight

section Filed

variable {blockId : UInt32}

lemma mem_setDelivered {delivered : Finset UInt16} {id : UInt32} :
    id ∈ (self.setDelivered blockId delivered).delivered ↔ id = blockId ∨ id ∈ self.delivered :=
  Finmap.mem_insert

lemma Filed.setDelivered (h : Filed self) (hmem : blockId ∈ self.inFlight)
    (delivered : Finset UInt16) : Filed (self.setDelivered blockId delivered) := by
  intro id hid
  rcases mem_setDelivered.mp hid with rfl | hold
  · exact hmem
  · exact h id hold

lemma Filed.closeBlock (hqueued : Queued self)
    (h : ∀ id ∈ self.delivered, id = blockId ∨ id ∈ self.inFlight) :
    Filed (self.closeBlock blockId) := by
  obtain ⟨completed, -, hclose⟩ := self.closeBlock_eq hqueued.completedOrder blockId
  rw [hclose]
  intro id hid
  obtain ⟨hne, hmem⟩ := Finmap.mem_erase.mp hid
  exact Finset.mem_erase.mpr ⟨hne, (h id hmem).resolve_left hne⟩

lemma Filed.observeInFlight (h : Filed self) (hqueued : Queued self) (blockId : UInt32) :
    Filed (self.observeInFlight blockId) := by
  rcases observeInFlight_cases hqueued blockId with ⟨-, heq⟩ | ⟨-, -, heq⟩ |
    ⟨-, oldest, rest, -, -, heq⟩
  · rw [heq]
    exact h
  · rw [heq]
    exact fun id hid => Finset.mem_insert_of_mem (h id hid)
  · obtain ⟨completed, -, hremember⟩ :=
      rememberClosed_eq (self.evicted blockId oldest rest) hqueued.completedOrder oldest
    rw [heq, hremember]
    intro id hid
    obtain ⟨hne, hmem⟩ := Finmap.mem_erase.mp hid
    exact Finset.mem_erase.mpr ⟨hne, Finset.mem_insert_of_mem (h id hmem)⟩

/-- The object that completes its block is rejected, and its block not in flight, exactly when the
datagram says so. -/
lemma completesRejected_iff {datagram object : Bytes} {header : DatagramFecHeader}
    {packet : EncodingPacket} {candidate : Option DecodedMultichannelAudioShard}
    (hreads : Reads self datagram header packet candidate)
    (hobject : (self.fec.pushDatagram datagram).1 = .ok (some object)) :
    self.CompletesRejected datagram ↔
      RejectsObject header object
        (deliverCandidate (self.deliveredOf header.blockId) candidate).1 ∧
      header.blockId ∉ self.inFlight := by
  obtain ⟨hopen, haccepts, hdecoded⟩ :=
    (self.fec.pushDatagram_returns_iff hreads.toOpens).mp hobject
  constructor
  · rintro ⟨header', packet', candidate', object', hreads', -, -, hdecoded', hrejects, hnot⟩
    obtain ⟨rfl, rfl⟩ := hreads.toOpens.unique hreads'.toOpens
    obtain rfl := Except.ok.inj (hreads.reads.symm.trans hreads'.reads)
    obtain rfl := Option.some.inj (hdecoded.symm.trans hdecoded')
    exact ⟨hrejects, hnot⟩
  · rintro ⟨hrejects, hnot⟩
    exact ⟨header, packet, candidate, object, hreads, hopen, haccepts, hdecoded, hrejects, hnot⟩

/-- What the object of a block does to the map of delivered source indices. -/
lemma completeBlock_filed (hqueued : Queued self) (h : Filed self) {header : DatagramFecHeader}
    (hsize : 0 < header.symbolSize.toNat) {before delivered : Finset UInt16}
    {output : List DecodedMultichannelAudioShard} (object : Bytes)
    (hnew : NewShards header.blockId before delivered output) :
    Filed (self.completeBlock header object delivered output).2 ↔
      ¬ (RejectsObject header object delivered ∧ header.blockId ∉ self.inFlight) := by
  have hok := completeBlock_ok_iff self hsize object delivered output
  rcases completeBlock_cases self object hnew with ⟨error, delivered', -, heq⟩ |
    ⟨output', delivered', -, heq⟩
  · rw [heq] at hok ⊢
    have hrejects : RejectsObject header object delivered := by
      by_contra hno
      obtain ⟨output', houtput⟩ := hok.mpr hno
      cases houtput
    rw [and_iff_right hrejects, not_not]
    exact ⟨fun hfiled => hfiled header.blockId (mem_setDelivered.mpr (Or.inl rfl)),
      fun hmem => h.setDelivered hmem delivered'⟩
  · rw [heq] at hok ⊢
    have haccepts := hok.mp ⟨output', rfl⟩
    refine ⟨fun _ hand => haccepts hand.1, fun _ => ?_⟩
    refine Filed.closeBlock (hqueued.setDelivered _ _) fun id hid => ?_
    exact (mem_setDelivered.mp hid).imp_right (h id)

/-- **The step lemma** of the map of delivered source indices. -/
lemma step_filed_iff (hbounded : Bounded self) (h : Filed self) (op : FecOp) :
    Filed (self.step op).2 ↔
      ∀ datagram, op = .push datagram → ¬ self.CompletesRejected datagram := by
  cases op with
  | expire blockId =>
      refine iff_of_true ?_ (fun datagram hop => absurd hop (by simp))
      exact Filed.closeBlock (hbounded.toQueued.withFec _) fun id hid => Or.inr (h id hid)
  | push datagram =>
      have hone : (∀ datagram', FecOp.push datagram = .push datagram' →
          ¬ self.CompletesRejected datagram') ↔ ¬ self.CompletesRejected datagram := by
        refine ⟨fun hall => hall datagram rfl, fun hno datagram' hop => ?_⟩
        obtain rfl := FecOp.push.inj hop
        exact hno
      rw [hone, step]
      by_cases hreads : ∃ header packet candidate, Reads self datagram header packet candidate
      swap
      · have hno : ¬ self.CompletesRejected datagram := by
          rintro ⟨header, packet, candidate, object, hreads', -⟩
          exact hreads ⟨header, packet, candidate, hreads'⟩
        rcases self.pushDatagram_cases datagram with (⟨error, hpush⟩ | hpush) |
          ⟨header, packet, candidate, hreads', -⟩
        · rw [hpush]
          exact iff_of_true h hno
        · rw [hpush]
          exact iff_of_true h hno
        · exact absurd ⟨header, packet, candidate, hreads'⟩ hreads
      obtain ⟨header, packet, candidate, hreads⟩ := hreads
      -- without an object, nothing is rejected
      have hnone : (∀ object, (self.fec.pushDatagram datagram).1 ≠ .ok (some object)) →
          ¬ self.CompletesRejected datagram := by
        rintro hnone ⟨header, packet, candidate, object, hreads, hopen, haccepts, hdecoded, -⟩
        exact hnone object
          ((self.fec.pushDatagram_returns_iff hreads.toOpens).mpr ⟨hopen, haccepts, hdecoded⟩)
      rcases self.pushDatagram_cases_of_reads hreads with ⟨error, fec, hfec, hpush⟩ |
        ⟨fec, hfec, hpush⟩ | ⟨object, fec, hfec, hpush⟩
      · rw [hpush]
        exact iff_of_true h (hnone fun object hobject => by rw [hfec] at hobject; cases hobject)
      · rw [hpush]
        have hqueued := hbounded.toQueued.withFec fec
        have hfiled : Filed { self with fec := fec } := h
        refine iff_of_true (Filed.setDelivered (hfiled.observeInFlight hqueued _)
          (hqueued.observeInFlight hreads.notClosed).2 _)
          (hnone fun object hobject => by rw [hfec] at hobject; cases hobject)
      · rw [hpush, completesRejected_iff hreads (congrArg Prod.fst hfec)]
        have hvalid := (DatagramFecHeader.decode_eq_ok_iff.mp hreads.decode).1
        exact completeBlock_filed (hbounded.toQueued.withFec fec) h hvalid.geometry.symbolSize_pos
          object (newShards_deliverCandidate hreads.reads _)

/-- **When the map of delivered source indices is bounded.**  Along a run it has entries of blocks in
flight only, and so no more than may be in flight, exactly as long as no datagram completes a block
that is not in flight with an object that is rejected. -/
theorem filed_iff (limits : List Limit) (ops : List FecOp) :
    (EveryState step (configured limits : MultichannelAudioFecDecoder X) ops fun _ decoder =>
      (∀ id ∈ decoder.delivered, id ∈ decoder.inFlight) ∧
        decoder.delivered.len ≤ decoder.maxInFlightBlocks) ↔
    EveryStep step (configured limits : MultichannelAudioFecDecoder X) ops fun _ decoder op =>
      ∀ datagram, op = .push datagram → ¬ decoder.CompletesRejected datagram := by
  refine everyState_iff_everyStep (fun _ decoder => Bounded decoder ∧ Filed decoder)
    (D := fun _ => True) ?_ ?_ ?_ ?_ (fun _ _ => trivial)
  · refine ⟨bounded_configured limits, ?_⟩
    obtain ⟨maxInFlightBlocks, maxCompletedBlocks, -, -, heq⟩ := configured_eq (X := X) limits
    rw [heq]
    exact fun id hid => absurd hid Finmap.notMem_empty
  · rintro _ decoder ⟨hbounded, hfiled⟩
    exact ⟨hfiled, Nat.le_trans (len_le_card hfiled) hbounded.inFlight_le⟩
  · rintro _ decoder op - ⟨hbounded, hfiled⟩ hok
    exact ⟨hbounded.step op, (step_filed_iff hbounded hfiled op).mpr hok⟩
  · rintro _ decoder op - ⟨hbounded, hfiled⟩ hbad ⟨hnext, -⟩
    exact hbad ((step_filed_iff hbounded hfiled op).mp hnext)

end Filed

/-! ### A stray entry -/

/-- A datagram that carries the shard in a symbol of 72 bytes, and announces an object of one
byte. -/
def truncatedDatagram (blockId : UInt32) : Bytes :=
  let payload := repetition.serialize ⟨0, 0, lonelyShard.headerBytes⟩
  (DatagramFecHeader.sealed repetition blockId 1 0 1 72 payload).headerBytes ++ payload

/-- **An entry of no block in flight.**  The only datagram of a block carries a valid shard, but the
object it completes is shorter than its symbol.  The object is rejected after the entry of the
block was made. -/
theorem delivered_outlives_block :
    ¬ ∀ (X : Crates) (_ : X.Ideal) (limits : List Limit) (ops : List FecOp),
      EveryState step (configured limits : MultichannelAudioFecDecoder X) ops fun _ decoder =>
        (∀ id ∈ decoder.delivered, id ∈ decoder.inFlight) ∧
          decoder.delivered.len ≤ decoder.maxInFlightBlocks := by
  intro hall
  have hstray : ∀ decoder : MultichannelAudioFecDecoder repetition,
      (decoder.delivered.lookup 0).isSome → (0 : UInt32) ∉ decoder.inFlight →
      ¬ ((∀ id ∈ decoder.delivered, id ∈ decoder.inFlight) ∧
        decoder.delivered.len ≤ decoder.maxInFlightBlocks) :=
    fun decoder hentry hnot hfiled => hnot (hfiled.1 0 (Finmap.lookup_isSome.mp hentry))
  exact hstray (runState step (configured []) [.push (truncatedDatagram 0)]) (by decide +kernel)
    (by decide +kernel) (hall repetition repetitionIdeal [] [.push (truncatedDatagram 0)]
      [.push (truncatedDatagram 0)] (List.prefix_refl _))

end MultichannelAudioFecDecoder

end RaptorFec
