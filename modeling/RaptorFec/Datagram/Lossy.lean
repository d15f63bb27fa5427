import RaptorFec.Datagram.Calls

/-!
# Blocks over a lossy path

A network loses, repeats and reorders datagrams.  What a decoder returns of a payload does not
depend on how it did so: every block is returned at most once, and exactly when enough of its
symbols arrived, in whatever order.

The one thing that may not happen is that the decoder drops a block while its symbols arrive.  So
between two datagrams of one block there may be none of a block that does not retain it
(`Uncut`): nothing arrives out of order by more than the window of remembered block ids.

* `returnedBlocks_arrivals` — what a fresh decoder returns of any arrivals of a set of blocks;
* `encodePayload_recovered` — what it returns of the payloads of an encoder;
* `encodePayload_recovered_in_order` — over a path that loses datagrams and keeps their order,
  without a further condition.
-/

namespace RaptorFec

/-- The ids of the blocks that some datagrams belong to. -/
def blockIds (X : Crates) (datagrams : List Bytes) : List UInt32 :=
  (datagrams.filterMap (wireSymbol X)).map Prod.fst

/-- Between two datagrams of a block there is none of a block that does not retain it, whether or
not that block is ever complete. -/
def Uncut (X : Crates) (arrivals : List Bytes) : Prop :=
  ∀ id current, [id, current, id].Sublist (blockIds X arrivals) → Retained current id

section Uncut

variable {X : Crates} {arrivals : List Bytes}

/-- Nothing is cut where every block retains every other. -/
lemma uncut_of_retained {ids : List UInt32} (hids : blockIds X arrivals = ids)
    (hall : (ids.all fun id => ids.all fun current => Retained current id) = true) :
    Uncut X arrivals := by
  subst hids
  intro id current hsub
  have hid := List.all_eq_true.mp hall id (hsub.subset (by simp))
  exact of_decide_eq_true (List.all_eq_true.mp hid current (hsub.subset (by simp)))

/-- Among entries in groups of distinct ids, what stands between two entries of one id has that
id. -/
lemma eq_of_between {parts : List (UInt32 × ℕ)} (hnodup : (parts.map Prod.fst).Nodup)
    {id current : UInt32} (h : [id, current, id].Sublist
      (parts.flatMap fun part => List.replicate part.2 part.1)) : current = id := by
  induction parts with
  | nil => cases h
  | cons part parts ih =>
      rw [List.map_cons, List.nodup_cons] at hnodup
      obtain ⟨own, others, heq, hown, hothers⟩ := List.sublist_append_iff.mp h
      cases own with
      | nil => exact ih hnodup.2 (by rwa [heq])
      | cons first own =>
          obtain ⟨rfl, hrest⟩ := List.cons.inj heq
          replace hrest : [current, id] = own ++ others := hrest
          obtain rfl : id = part.1 := List.eq_of_mem_replicate (hown.subset List.mem_cons_self)
          -- the group of `id` is the first one, so the second `id` stands in it too
          have hnone : others = [] := by
            by_contra hne
            have hlast : others.getLast hne = part.1 := by
              have hboth : own ++ others ≠ [] := by rw [← hrest]; simp
              rw [← List.getLast_append_of_ne_nil hboth hne]
              simp only [← hrest]
              rfl
            have hin := hothers.subset (List.getLast_mem hne)
            rw [hlast] at hin
            obtain ⟨other, hother, hmem⟩ := List.mem_flatMap.mp hin
            exact hnodup.1 (List.mem_map.mpr ⟨other, hother, (List.eq_of_mem_replicate hmem).symm⟩)
          rw [hnone, List.append_nil] at hrest
          refine List.eq_of_mem_replicate (hown.subset (List.mem_cons_of_mem _ ?_))
          rw [← hrest]
          exact List.mem_cons_self

end Uncut

section Arrivals

variable {X : Crates}

/-- The symbols that honest datagrams carry are those read off their bytes. -/
lemma filterMap_wireSymbol {code : X.Systematic} {B : BlockSet} {arrivals : List Bytes}
    {symbols : List (UInt32 × ℕ)} (h : List.Forall₂ (IsSymbol code B) arrivals symbols) :
    arrivals.filterMap (wireSymbol X) = symbols := by
  induction h with
  | nil => rfl
  | cons hsymbol _ ih =>
      obtain ⟨block, -, sequence, hid, hcarries⟩ := hsymbol
      rw [List.filterMap_cons_some ((wireSymbol_of_carries hcarries).trans
        (congrArg (fun i => some (i, _)) hid)), ih]

lemma forall₂_filterMap {code : X.Systematic} {B : BlockSet} {arrivals : List Bytes}
    (h : ∀ datagram ∈ arrivals, ∃ symbol, IsSymbol code B datagram symbol) :
    List.Forall₂ (IsSymbol code B) arrivals (arrivals.filterMap (wireSymbol X)) := by
  obtain ⟨symbols, hsymbols⟩ : ∃ symbols, List.Forall₂ (IsSymbol code B) arrivals symbols := by
    induction arrivals with
    | nil => exact ⟨[], .nil⟩
    | cons datagram arrivals ih =>
        rw [List.forall_mem_cons] at h
        obtain ⟨symbol, hsymbol⟩ := h.1
        obtain ⟨symbols, hsymbols⟩ := ih h.2
        exact ⟨symbol :: symbols, .cons hsymbol hsymbols⟩
  rwa [filterMap_wireSymbol hsymbols]

variable (code : X.Ideal) {B : BlockSet}

lemma IsObject.fst_eq {entries : List (UInt32 × Bytes)} {ids : List UInt32}
    (h : List.Forall₂ (IsObject B) entries ids) : entries.map Prod.fst = ids := by
  induction h with
  | nil => rfl
  | cons hobject _ ih =>
      obtain ⟨block, -, -, rfl⟩ := hobject
      rw [List.map_cons, ih]

/-- An entry for one of some ids is the object of the block with this id. -/
lemma IsObject.mem_iff {entries : List (UInt32 × Bytes)} {ids : List UInt32}
    (h : List.Forall₂ (IsObject B) entries ids) {entry : UInt32 × Bytes} :
    entry ∈ entries ↔ ∃ block ∈ B, entry = (block.id, block.object) ∧ block.id ∈ ids := by
  induction h with
  | nil => simp
  | @cons first id entries ids hobject _ ih =>
      obtain ⟨block, hb, rfl, rfl⟩ := hobject
      rw [List.mem_cons, ih]
      constructor
      · rintro (rfl | ⟨block', hb', rfl, hid⟩)
        · exact ⟨block, hb, rfl, List.mem_cons_self⟩
        · exact ⟨block', hb', rfl, List.mem_cons_of_mem _ hid⟩
      · rintro ⟨block', hb', rfl, hid⟩
        rcases List.mem_cons.mp hid with heq | hid
        · obtain rfl := BlockSet.eq_of_id hb' hb heq
          exact Or.inl rfl
        · exact Or.inr ⟨block', hb', rfl, hid⟩

/-- What each arrival makes the decoder return: nothing, or the object of its block. -/
lemma result_of_arrival {decoder : DatagramFecDecoder X} {c : Collector UInt32 ℕ}
    {arrivals : List Bytes} {symbols : List (UInt32 × ℕ)} (h : Simulates code B decoder c)
    (hsymbols : List.Forall₂ (IsSymbol code.toSystematic B) arrivals symbols) :
    ∀ arrival ∈ arrivals.zip (runOutputs DatagramFecDecoder.pushDatagram decoder arrivals),
      arrival.2 = .ok none ∨ ∃ block ∈ B, arrival.2 = .ok (some block.object) ∧
        (wireSymbol X arrival.1).map Prod.fst = some block.id := by
  induction hsymbols generalizing decoder c with
  | nil => simp
  | @cons datagram symbol datagrams symbols hsymbol _ ih =>
      obtain ⟨hresult, hsim⟩ := simulates_push code B decoder c datagram symbol h hsymbol
      rw [runOutputs_cons, List.zip_cons_cons, List.forall_mem_cons]
      refine ⟨?_, ih hsim⟩
      cases hfires : (c.push (DoneIn code B) DropsId symbol).1 with
      | none =>
          rw [hfires] at hresult
          exact Or.inl hresult
      | some id =>
          rw [hfires] at hresult
          obtain ⟨block, hb, rfl, hsome⟩ := hresult
          obtain ⟨block', -, sequence, hid, hcarries⟩ := hsymbol
          refine Or.inr ⟨block, hb, hsome, ?_⟩
          rw [wireSymbol_of_carries hcarries, Option.map_some, hid]
          exact congrArg some (Collector.push_fst_eq_some hfires)

/-- An object is returned with an id when some arrival of this id returns it. -/
lemma mem_returnedBlocks {arrivals : List Bytes}
    {outputs : List (Except DatagramFecError (Option Bytes))} {id : UInt32} {object : Bytes} :
    (id, object) ∈ returnedBlocks X arrivals outputs ↔
      ∃ arrival ∈ arrivals.zip outputs, arrival.2 = .ok (some object) ∧
        (wireSymbol X arrival.1).map Prod.fst = some id := by
  have hone : ∀ (datagram : Bytes) (output : Except DatagramFecError (Option Bytes)),
      returnedBlock X datagram output = some (id, object) ↔
        output = .ok (some object) ∧ (wireSymbol X datagram).map Prod.fst = some id := by
    intro datagram output
    rw [returnedBlock]
    cases wireSymbol X datagram with
    | none => simp
    | some symbol =>
        rcases output with error | - | returned
        · simp [Except.toOption]
        · simp [Except.toOption]
        · simp [Except.toOption, and_comm]
  have hzip : List.zipWith (returnedBlock X) arrivals outputs
      = (arrivals.zip outputs).map fun arrival => returnedBlock X arrival.1 arrival.2 :=
    (List.map_zip_eq_zipWith (f := fun arrival => returnedBlock X arrival.1 arrival.2)).symm
  rw [returnedBlocks, List.reduceOption_mem_iff, hzip, List.mem_map]
  exact exists_congr fun arrival => and_congr_right fun _ => hone arrival.1 arrival.2

/-- **Any arrivals of honest datagrams at a fresh decoder.**  All are accepted, and the blocks
returned, each once, are those of which decodable symbols arrived. -/
theorem returnedBlocks_arrivals {arrivals : List Bytes}
    (harrivals : ∀ datagram ∈ arrivals, ∃ symbol, IsSymbol code.toSystematic B datagram symbol)
    (huncut : Uncut X arrivals) :
    let outputs := runOutputs DatagramFecDecoder.pushDatagram
      (DatagramFecDecoder.new : DatagramFecDecoder X) arrivals
    (∀ output ∈ outputs, ∃ returned, output = .ok returned) ∧
      ((returnedBlocks X arrivals outputs).map Prod.fst).Nodup ∧
      ∀ entry, entry ∈ returnedBlocks X arrivals outputs ↔
        ∃ block ∈ B, entry = (block.id, block.object) ∧
          (survivingSymbols X arrivals block.id).Nonempty ∧
          code.Decodable block.object.length block.symbolSize
            (survivingSymbols X arrivals block.id) := by
  intro outputs
  have hsymbols := forall₂_filterMap harrivals
  have hfired := fun id => Collector.fired_of_uncut (c := Collector.empty) (i := id)
    (regular_doneIn code B) ⟨rfl, Set.notMem_empty id⟩
    fun k hsub hdrops => hdrops (huncut id k hsub)
  have hreturned := returnedBlocks_run code (simulates_new code B) hsymbols
  refine ⟨ok_of_isResult (simulates_run code B (simulates_new code B) hsymbols).1, ?_,
    fun entry => ?_⟩
  · rw [IsObject.fst_eq hreturned, List.nodup_iff_count_le_one]
    exact fun id => (hfired id).2
  · rw [IsObject.mem_iff hreturned]
    refine exists_congr fun block => and_congr_right fun hb => and_congr_right fun _ => ?_
    rw [(hfired block.id).1]
    exact and_congr_right fun _ => doneIn_iff hb

end Arrivals

/-! ## Payloads -/

section Payload

variable {X : Crates}

/-- The crate's own `get_encoded_packets` refuses what does not fit one block. -/
lemma encodes_encodedPackets (code : X.Systematic) : code.Encodes X.encodedPackets where
  oneBlock _ _ _ _ := rfl
  beyond object symbolSize repair packets hobject hsize hbeyond hpackets := by
    have hnone := code.encodedPackets_none object symbolSize repair hobject hsize
      fun hboth => hbeyond ⟨hobject, hsize, hboth.1⟩
    rw [hnone] at hpackets
    cases hpackets

/-- The blocks that some pieces are sent as, with their datagrams. -/
structure PiecesSent (code : X.Systematic) (encoder : DatagramFecEncoder) (pieces : List Bytes)
    (datagrams : List Bytes) (blocks : List SourceBlock) : Prop where
  sent : SentAs pieces encoder encoder.config.repairSymbols.toNat blocks
  sizes : ∀ block ∈ blocks, block.symbolSize = max encoder.config.symbolSize 1
  emitted : datagrams = (emitBlocks code encoder.config.repairSymbols.toNat blocks
    encoder.packetSequence).flatten

/-- The encoder after it has sent some pieces. -/
def DatagramFecEncoder.advance (encoder : DatagramFecEncoder) (pieces datagrams : List Bytes) :
    DatagramFecEncoder :=
  { encoder with
    packetSequence := encoder.packetSequence + UInt32.ofNat datagrams.length
    blockId := encoder.blockId + UInt32.ofNat pieces.length }

/-- The pieces that payloads are cut into. -/
def DatagramFecEncoder.pieces (encoder : DatagramFecEncoder) (payloads : List Bytes) : List Bytes :=
  payloads.flatMap (chunks encoder.config.maxPayloadLen)

variable {code : X.Systematic} {encoder encoder' : DatagramFecEncoder} {payload : Bytes}
  {pool pool' : Option DatagramBufferPool} {pieces datagrams : List Bytes}
  {blocks : List SourceBlock}

/-- A payload goes out as the blocks of its chunks, or the call fails and changes nothing. -/
lemma encodePayload_sent (code : X.Systematic) (hpayload : payload ≠ [])
    {result : Except DatagramFecError (List Bytes)}
    (h : encoder.encodePayload X payload pool = some (result, encoder', pool')) :
    (∃ error, result = .error error ∧ encoder' = encoder) ∨
    ∃ datagrams blocks, result = .ok datagrams ∧
      PiecesSent code encoder (chunks encoder.config.maxPayloadLen payload) datagrams blocks ∧
      encoder' = encoder.advance (chunks encoder.config.maxPayloadLen payload) datagrams := by
  have hsize := encoder.config.maxPayloadLen_pos
  have hcrates : X.withEncodedPackets X.encodedPackets = X := rfl
  have hmax : max encoder.config.maxPayloadLen 1 = encoder.config.maxPayloadLen :=
    Nat.max_eq_left hsize
  have hnonempty : payload.isEmpty = false := by
    rw [List.isEmpty_eq_false_iff]
    exact hpayload
  rw [DatagramFecEncoder.encodePayload] at h
  split_ifs at h with hlong hempty
  · cases h
    exact Or.inl ⟨_, rfl, rfl⟩
  · rw [hnonempty] at hempty
    cases hempty
  rw [hmax, ← hcrates] at h
  rcases encodeChunks_cases (encodes_encodedPackets code) hpayload hsize (Nat.le_of_not_lt hlong) h
    with ⟨error, herror⟩ | hchunks
  · obtain ⟨rfl, hrest⟩ := Prod.mk.inj herror
    exact Or.inl ⟨error, rfl, (Prod.mk.inj hrest).1⟩
  · obtain ⟨blocks, hsent, hsizes, _, hresult⟩ :=
      encodeChunks_emits (encodes_encodedPackets code) hchunks h
    obtain ⟨rfl, hrest⟩ := Prod.mk.inj hresult
    exact Or.inr ⟨_, blocks, rfl, ⟨hsent, hsizes, rfl⟩, (Prod.mk.inj hrest).1⟩

/-- Bytes of at most one chunk are this chunk. -/
lemma chunks_eq_singleton {size : ℕ} {bytes : Bytes} (hbytes : bytes ≠ [])
    (hle : bytes.length ≤ size) : chunks size bytes = [bytes] := by
  have hlength := List.length_pos_of_ne_nil hbytes
  have hone : bytes.length ⌈/⌉ size = 1 := by
    refine Nat.le_antisymm ?_ ?_
    · exact (ceilDiv_le_iff_le_mul (by omega)).mpr (by omega)
    · by_contra hzero
      have hnone := (ceilDiv_le_iff_le_mul (a := size) (b := bytes.length) (c := 0) (by omega)).mp
        (by omega)
      omega
  rw [chunks, hone]
  exact congrArg (· :: []) ((piece_zero ..).trans (List.take_of_length_le hle))

lemma encodeChunks_singleton (X : Crates) (encoder : DatagramFecEncoder) (chunk : Bytes)
    (pool : Option DatagramBufferPool) :
    DatagramFecEncoder.encodeChunks X [chunk] encoder pool
      = encoder.encodeOneBlockWithOptionalPool X chunk encoder.config.repairSymbols pool := by
  rw [DatagramFecEncoder.encodeChunks]
  rcases encoder.encodeOneBlockWithOptionalPool X chunk encoder.config.repairSymbols pool with
    - | ⟨error | datagrams, rest⟩
  · rfl
  · rfl
  · exact congrArg (fun front => some (Except.ok front, rest)) (List.append_nil datagrams)

/-- A block goes out as a payload of one chunk, or the call fails and changes nothing. -/
lemma sent_of_encodeBlock (code : X.Systematic) (hpayload : payload ≠ [])
    {result : Except DatagramFecError (List Bytes)}
    (h : encoder.encodeBlock X payload pool = some (result, encoder', pool')) :
    (∃ error, result = .error error ∧ encoder' = encoder) ∨
    ∃ datagrams blocks, result = .ok datagrams ∧
      PiecesSent code encoder (chunks encoder.config.maxPayloadLen payload) datagrams blocks ∧
      encoder' = encoder.advance (chunks encoder.config.maxPayloadLen payload) datagrams := by
  rw [DatagramFecEncoder.encodeBlock, DatagramFecEncoder.encodeBlockWithRepairSymbols] at h
  split_ifs at h with hlong hlarge
  · cases h
    exact Or.inl ⟨_, rfl, rfl⟩
  · cases h
    exact Or.inl ⟨_, rfl, rfl⟩
  · have hle := Nat.le_of_not_lt hlarge
    have hnonempty : payload.isEmpty = false := by
      rw [List.isEmpty_eq_false_iff]
      exact hpayload
    have hcall : encoder.encodePayload X payload pool = some (result, encoder', pool') := by
      rw [DatagramFecEncoder.encodePayload, if_neg hlong, hnonempty,
        chunks_eq_singleton hpayload (Nat.le_trans hle (Nat.le_max_left _ _))]
      exact (encodeChunks_singleton X encoder payload pool).trans h
    exact encodePayload_sent code hpayload hcall

lemma emitBlocks_append (code : X.Systematic) (repair : ℕ) (blocks blocks' : List SourceBlock)
    (sequence : UInt32) :
    (emitBlocks code repair (blocks ++ blocks') sequence).flatten
      = (emitBlocks code repair blocks sequence).flatten ++ (emitBlocks code repair blocks'
          (sequence + UInt32.ofNat (emitBlocks code repair blocks sequence).flatten.length)).flatten
    := by
  induction blocks generalizing sequence with
  | nil => simp [emitBlocks]
  | cons block blocks ih =>
      rw [List.cons_append, emitBlocks, emitBlocks, List.flatten_cons, List.flatten_cons, ih,
        List.append_assoc, List.length_append, List.length_map, List.length_range]
      simp only [UInt32.ofNat_add, UInt32.add_assoc]

/-- What is sent after some pieces continues them. -/
lemma PiecesSent.append {pieces' datagrams' : List Bytes} {blocks' : List SourceBlock}
    (h : PiecesSent code encoder pieces datagrams blocks)
    (h' : PiecesSent code (encoder.advance pieces datagrams) pieces' datagrams' blocks') :
    PiecesSent code encoder (pieces ++ pieces') (datagrams ++ datagrams') (blocks ++ blocks') := by
  have hcount : blocks.length = pieces.length := by rw [← h.sent.objects, List.length_map]
  refine ⟨⟨?_, ?_, ?_⟩, ?_, ?_⟩
  · rw [List.map_append, h.sent.objects, h'.sent.objects]
  · rw [List.map_append, h.sent.ids, h'.sent.ids, List.length_append, List.range_add,
      List.map_append, List.map_map]
    refine congrArg (_ ++ ·) (List.map_congr_left fun i _ => ?_)
    rw [Function.comp_apply, UInt32.ofNat_add, ← UInt32.add_assoc, hcount]
    rfl
  · rw [List.forall_mem_append]
    exact ⟨h.sent.limit, h'.sent.limit⟩
  · rw [List.forall_mem_append]
    exact ⟨h.sizes, h'.sizes⟩
  · rw [emitBlocks_append, ← h.emitted]
    exact congrArg (datagrams ++ ·) h'.emitted

/-- No block id is used twice while there are ids left. -/
lemma PiecesSent.nodup (h : PiecesSent code encoder pieces datagrams blocks)
    (hfew : pieces.length ≤ 2 ^ 32) : (blocks.map SourceBlock.id).Nodup := by
  have hcount : blocks.length = pieces.length := by rw [← h.sent.objects, List.length_map]
  rw [h.sent.ids]
  refine List.Nodup.map_on (fun i hi j hj heq => ?_) List.nodup_range
  have hi := List.mem_range.mp hi
  have hj := List.mem_range.mp hj
  have hahead := congrArg (ahead encoder.blockId) heq
  rwa [ahead_add_ofNat (by omega), ahead_add_ofNat (by omega)] at hahead

/-- Block `i` has the `i`-th id and carries the `i`-th piece. -/
lemma PiecesSent.mem_iff (h : PiecesSent code encoder pieces datagrams blocks)
    {id : UInt32} {object : Bytes} :
    (∃ block ∈ blocks, (id, object) = (block.id, block.object)) ↔
      ∃ i, pieces[i]? = some object ∧ id = encoder.blockId + UInt32.ofNat i := by
  have hblock : ∀ i (hi : i < blocks.length), blocks[i].id = encoder.blockId + UInt32.ofNat i ∧
      pieces[i]? = some blocks[i].object := by
    intro i hi
    have hid := congrArg (fun ids => ids[i]?) h.sent.ids
    have hobject := congrArg (fun objects => objects[i]?) h.sent.objects
    exact ⟨by simpa [hi] using hid, by simpa [hi] using hobject.symm⟩
  constructor
  · rintro ⟨block, hb, heq⟩
    obtain ⟨i, hi, rfl⟩ := List.mem_iff_getElem.mp hb
    obtain ⟨rfl, rfl⟩ := Prod.mk.inj heq
    exact ⟨i, (hblock i hi).2, (hblock i hi).1⟩
  · rintro ⟨i, hobject, rfl⟩
    have hi : i < blocks.length := by
      rw [← List.length_map, h.sent.objects]
      exact (List.getElem?_eq_some_iff.mp hobject).1
    obtain ⟨hid, hsome⟩ := hblock i hi
    exact ⟨blocks[i], List.getElem_mem hi, by rw [hid, Option.some.inj (hsome.symm.trans hobject)]⟩

/-- The datagrams carry symbols of the blocks. -/
lemma PiecesSent.isSymbol (h : PiecesSent code encoder pieces datagrams blocks)
    (hnodup : (blocks.map SourceBlock.id).Nodup) :
    List.Forall₂ (IsSymbol code (BlockSet.ofList hnodup)) datagrams
      (emittedSymbols encoder.config.repairSymbols.toNat blocks) := by
  have hsymbols : List.Forall₂ (IsSymbol code (BlockSet.ofList hnodup))
      (emitBlocks code encoder.config.repairSymbols.toNat blocks encoder.packetSequence).flatten
      (emittedSymbols encoder.config.repairSymbols.toNat blocks) :=
    isSymbol_emitBlocks (fun block hb => hb) h.sent.limit encoder.packetSequence
  rwa [← h.emitted] at hsymbols

/-- A path that only loses datagrams keeps those of a block together. -/
lemma PiecesSent.uncut (h : PiecesSent code encoder pieces datagrams blocks)
    (hfew : pieces.length ≤ 2 ^ 32) {arrivals : List Bytes} (hlost : arrivals.Sublist datagrams) :
    Uncut X arrivals := by
  set repair := encoder.config.repairSymbols.toNat
  have hids : blockIds X datagrams = (blocks.map fun block =>
      (block.id, block.sourceSymbols + repair)).flatMap
        fun part => List.replicate part.2 part.1 := by
    rw [blockIds, filterMap_wireSymbol (h.isSymbol (h.nodup hfew)), emittedSymbols,
      List.map_flatMap, List.flatMap_map]
    refine List.flatMap_congr fun block _ => ?_
    rw [Collector.ofBlock, List.map_map]
    exact List.map_const'.trans (congrArg (List.replicate · _) List.length_range)
  have hnodup : ((blocks.map fun block =>
      (block.id, block.sourceSymbols + repair)).map Prod.fst).Nodup := by
    rw [List.map_map]
    exact h.nodup hfew
  intro id current hsub
  have harrived : (blockIds X arrivals).Sublist (blockIds X datagrams) :=
    (hlost.filterMap _).map _
  obtain rfl : current = id := eq_of_between hnodup (hids ▸ hsub.trans harrived)
  exact retained_self current

/-- A call of `encode_payload` or `encode_block`, also in their `_reusing` forms, on a payload that
is not empty. -/
def EncodesPayload (X : Crates) (encoder : DatagramFecEncoder) (payload : Bytes)
    (result : Except DatagramFecError (List Bytes)) (encoder' : DatagramFecEncoder) : Prop :=
  payload ≠ [] ∧ ∃ pool pool',
    encoder.encodePayload X payload pool = some (result, encoder', pool') ∨
    encoder.encodeBlock X payload pool = some (result, encoder', pool')

lemma EncodesPayload.sent (code : X.Systematic) {result : Except DatagramFecError (List Bytes)}
    (h : EncodesPayload X encoder payload result encoder') :
    (∃ error, result = .error error ∧ encoder' = encoder) ∨
    ∃ datagrams blocks, result = .ok datagrams ∧
      PiecesSent code encoder (chunks encoder.config.maxPayloadLen payload) datagrams blocks ∧
      encoder' = encoder.advance (chunks encoder.config.maxPayloadLen payload) datagrams := by
  obtain ⟨hpayload, pool, pool', hcall | hcall⟩ := h
  · exact encodePayload_sent code hpayload hcall
  · exact sent_of_encodeBlock code hpayload hcall

/-- The calls send the pieces of the payloads, one block after the other. -/
lemma sent_of_calls (code : X.Systematic) {payloads : List Bytes}
    (h : AcceptedCalls (EncodesPayload X) encoder payloads datagrams) :
    ∃ blocks, PiecesSent code encoder (encoder.pieces payloads) datagrams blocks := by
  induction h with
  | nil encoder => exact ⟨[], ⟨rfl, rfl, by simp⟩, by simp, rfl⟩
  | accepted hcall _ ih =>
      rcases hcall.sent code with ⟨_, herror, -⟩ | ⟨_, front, hok, hfront, rfl⟩
      · cases herror
      · obtain rfl := Except.ok.inj hok
        obtain ⟨behind, hbehind⟩ := ih
        exact ⟨front ++ behind, hfront.append hbehind⟩
  | refused hcall _ ih =>
      rcases hcall.sent code with ⟨_, -, rfl⟩ | ⟨_, _, hok, -⟩
      · exact ih
      · cases hok

/-- A datagram that was sent carries a symbol of one of the blocks. -/
lemma PiecesSent.carries (h : PiecesSent code encoder pieces datagrams blocks)
    (hids : (blocks.map SourceBlock.id).Nodup) {datagram : Bytes} (hmem : datagram ∈ datagrams) :
    ∃ block ∈ blocks, ∃ sequence esi,
      esi < block.sourceSymbols + encoder.config.repairSymbols.toNat ∧
      Carries code block sequence esi datagram := by
  obtain ⟨i, hi, rfl⟩ := List.mem_iff_getElem.mp hmem
  have hsymbols := h.isSymbol hids
  have hi' := hsymbols.length_eq ▸ hi
  obtain ⟨block, hb, sequence, hid, hcarries⟩ := hsymbols.get hi hi'
  obtain ⟨other, hother, hsymbol⟩ := List.mem_flatMap.mp (List.getElem_mem hi')
  obtain ⟨esi, hesi, heq⟩ := List.mem_map.mp hsymbol
  have hsame : block.id = other.id := hid.trans (congrArg Prod.fst heq).symm
  obtain rfl := List.inj_on_of_nodup_map hids hb hother hsame
  have hesi' : esi = _ := congrArg Prod.snd heq
  exact ⟨block, hb, sequence, esi, List.mem_range.mp hesi, hesi' ▸ hcarries⟩

/-- What a decoder returns of datagrams of the blocks. -/
lemma PiecesSent.returned_of_carries (code : X.Ideal)
    (h : PiecesSent code.toSystematic encoder pieces datagrams blocks)
    (hids : (blocks.map SourceBlock.id).Nodup) {arrivals : List Bytes}
    (harrivals : ∀ datagram ∈ arrivals, ∃ block ∈ blocks, ∃ sequence esi,
      Carries code.toSystematic block sequence esi datagram) (huncut : Uncut X arrivals) :
    let outputs := runOutputs DatagramFecDecoder.pushDatagram
      (DatagramFecDecoder.new : DatagramFecDecoder X) arrivals
    (∀ output ∈ outputs, ∃ returned, output = .ok returned) ∧
      ((returnedBlocks X arrivals outputs).map Prod.fst).Nodup ∧
      ∀ id object, (id, object) ∈ returnedBlocks X arrivals outputs ↔
        (∃ i, pieces[i]? = some object ∧ id = encoder.blockId + UInt32.ofNat i) ∧
          (survivingSymbols X arrivals id).Nonempty ∧
          code.Decodable object.length (max encoder.config.symbolSize 1)
            (survivingSymbols X arrivals id) := by
  intro outputs
  have hsymbols : ∀ datagram ∈ arrivals, ∃ symbol,
      IsSymbol code.toSystematic (BlockSet.ofList hids) datagram symbol := by
    intro datagram hdatagram
    obtain ⟨block, hb, sequence, esi, hcarries⟩ := harrivals datagram hdatagram
    exact ⟨(block.id, esi), block, hb, sequence, rfl, hcarries⟩
  obtain ⟨hok, hnodup, hmem⟩ := returnedBlocks_arrivals code hsymbols huncut
  refine ⟨hok, hnodup, fun id object => ?_⟩
  rw [hmem, ← h.mem_iff]
  constructor
  · rintro ⟨block, hb, heq, hsurvive⟩
    obtain ⟨rfl, rfl⟩ := Prod.mk.inj heq
    rw [h.sizes block hb] at hsurvive
    exact ⟨⟨block, hb, rfl⟩, hsurvive⟩
  · rintro ⟨⟨block, hb, heq⟩, hsurvive⟩
    obtain ⟨rfl, rfl⟩ := Prod.mk.inj heq
    rw [← h.sizes block hb] at hsurvive
    exact ⟨block, hb, rfl, hsurvive⟩

/-- What arrives of some pieces. -/
lemma PiecesSent.returned (code : X.Ideal)
    (h : PiecesSent code.toSystematic encoder pieces datagrams blocks)
    (hfew : pieces.length ≤ 2 ^ 32) {arrivals : List Bytes}
    (harrivals : ∀ datagram ∈ arrivals, datagram ∈ datagrams) (huncut : Uncut X arrivals) :
    let outputs := runOutputs DatagramFecDecoder.pushDatagram
      (DatagramFecDecoder.new : DatagramFecDecoder X) arrivals
    (∀ output ∈ outputs, ∃ returned, output = .ok returned) ∧
      ((returnedBlocks X arrivals outputs).map Prod.fst).Nodup ∧
      ∀ id object, (id, object) ∈ returnedBlocks X arrivals outputs ↔
        (∃ i, pieces[i]? = some object ∧ id = encoder.blockId + UInt32.ofNat i) ∧
          (survivingSymbols X arrivals id).Nonempty ∧
          code.Decodable object.length (max encoder.config.symbolSize 1)
            (survivingSymbols X arrivals id) := by
  have hids := h.nodup hfew
  refine h.returned_of_carries code hids (fun datagram hdatagram => ?_) huncut
  obtain ⟨block, hb, sequence, esi, -, hcarries⟩ := h.carries hids (harrivals datagram hdatagram)
  exact ⟨block, hb, sequence, esi, hcarries⟩

/-- **What arrives of the payloads of an encoder.**  Payloads that are not empty are sent to a fresh
decoder, over a path that may lose, repeat and reorder their datagrams as long as between two
datagrams of a block there arrives none of a block that does not retain it (`Uncut`).  The decoder
reports no error and returns, each at most once, exactly those pieces of the payloads whose blocks
have decodable symbols among the datagrams that arrive. -/
theorem encodePayload_recovered (code : X.Ideal) {payloads : List Bytes}
    (hcalls : AcceptedCalls (EncodesPayload X) encoder payloads datagrams)
    (hfew : (encoder.pieces payloads).length ≤ 2 ^ 32)
    (arrivals : List Bytes) (harrivals : ∀ datagram ∈ arrivals, datagram ∈ datagrams)
    (huncut : Uncut X arrivals) :
    let outputs := runOutputs DatagramFecDecoder.pushDatagram
      (DatagramFecDecoder.new : DatagramFecDecoder X) arrivals
    (∀ output ∈ outputs, ∃ returned, output = .ok returned) ∧
      ((returnedBlocks X arrivals outputs).map Prod.fst).Nodup ∧
      ∀ id object, (id, object) ∈ returnedBlocks X arrivals outputs ↔
        (∃ i, (encoder.pieces payloads)[i]? = some object ∧
          id = encoder.blockId + UInt32.ofNat i) ∧
          (survivingSymbols X arrivals id).Nonempty ∧
          code.Decodable object.length (max encoder.config.symbolSize 1)
            (survivingSymbols X arrivals id) := by
  obtain ⟨blocks, hsent⟩ := sent_of_calls code.toSystematic hcalls
  exact hsent.returned code hfew harrivals huncut

/-- **What arrives in order.**  The same over a path that only loses datagrams: those of a block
stay together, whatever is lost. -/
theorem encodePayload_recovered_in_order (code : X.Ideal) {payloads : List Bytes}
    (hcalls : AcceptedCalls (EncodesPayload X) encoder payloads datagrams)
    (hfew : (encoder.pieces payloads).length ≤ 2 ^ 32)
    (arrivals : List Bytes) (hlost : arrivals.Sublist datagrams) :
    let outputs := runOutputs DatagramFecDecoder.pushDatagram
      (DatagramFecDecoder.new : DatagramFecDecoder X) arrivals
    (∀ output ∈ outputs, ∃ returned, output = .ok returned) ∧
      ((returnedBlocks X arrivals outputs).map Prod.fst).Nodup ∧
      ∀ id object, (id, object) ∈ returnedBlocks X arrivals outputs ↔
        (∃ i, (encoder.pieces payloads)[i]? = some object ∧
          id = encoder.blockId + UInt32.ofNat i) ∧
          (survivingSymbols X arrivals id).Nonempty ∧
          code.Decodable object.length (max encoder.config.symbolSize 1)
            (survivingSymbols X arrivals id) := by
  obtain ⟨blocks, hsent⟩ := sent_of_calls code.toSystematic hcalls
  exact hsent.returned code hfew (fun datagram hdatagram => hlost.subset hdatagram)
    (hsent.uncut hfew hlost)

end Payload

/-- The datagrams with some indices, in the order of the indices. -/
def pick (datagrams : List Bytes) (indices : List ℕ) : List Bytes :=
  indices.filterMap fun i => datagrams[i]?

lemma mem_of_mem_pick {datagrams : List Bytes} {indices : List ℕ} :
    ∀ datagram ∈ pick datagrams indices, datagram ∈ datagrams := by
  intro datagram hdatagram
  obtain ⟨i, -, hi⟩ := List.mem_filterMap.mp hdatagram
  exact List.mem_of_getElem? hi

/-- Three bytes in two blocks, of which a repair symbol comes first and a source symbol is lost. -/
theorem encodePayload_recovered_two :
    ∃ (datagrams : List Bytes) (encoder : DatagramFecEncoder) (pool : Option DatagramBufferPool),
      let arrivals := pick datagrams [4, 2, 1, 1]
      let returned := returnedBlocks repetition arrivals (runOutputs DatagramFecDecoder.pushDatagram
        (DatagramFecDecoder.new : DatagramFecDecoder repetition) arrivals)
      DatagramFecEncoder.encodePayload repetition ⟨7, 9, ⟨2, 1, 1⟩⟩ [1, 2, 3] none
        = some (.ok datagrams, encoder, pool) ∧
      (7, [1, 2]) ∈ returned ∧ (8, [3]) ∈ returned := by
  have hok : (DatagramFecEncoder.encodePayload repetition ⟨7, 9, ⟨2, 1, 1⟩⟩ [1, 2, 3] none).map
      (fun result => (result.1.toOption.map fun datagrams =>
        (blockIds repetition (pick datagrams [4, 2, 1, 1]),
          survivingSymbols repetition (pick datagrams [4, 2, 1, 1]) 7,
          survivingSymbols repetition (pick datagrams [4, 2, 1, 1]) 8)))
      = some (some ([8, 7, 7, 7], {1, 2}, {1})) := by
    decide +kernel
  obtain ⟨⟨result, encoder, pool⟩, hcall, hresult⟩ := Option.map_eq_some_iff.mp hok
  obtain ⟨datagrams, hdatagrams, hresult⟩ := Option.map_eq_some_iff.mp hresult
  obtain ⟨hids, hresult⟩ := Prod.mk.inj hresult
  obtain ⟨hfirst, hsecond⟩ := Prod.mk.inj hresult
  obtain rfl : result = .ok datagrams := by
    cases result with
    | error error => cases hdatagrams
    | ok sent => exact congrArg Except.ok (Option.some.inj hdatagrams)
  have huncut : Uncut repetition (pick datagrams [4, 2, 1, 1]) :=
    uncut_of_retained hids (by decide)
  have hcalls : AcceptedCalls (EncodesPayload repetition) ⟨7, 9, ⟨2, 1, 1⟩⟩ [[1, 2, 3]]
      datagrams :=
    List.append_nil datagrams ▸ .accepted ⟨by decide, _, _, Or.inl hcall⟩ (.nil encoder)
  obtain ⟨-, -, hiff⟩ := encodePayload_recovered repetitionIdeal hcalls (by decide) _
    mem_of_mem_pick huncut
  refine ⟨datagrams, encoder, pool, hcall, (hiff _ _).mpr ⟨⟨0, rfl, rfl⟩, ?_⟩,
    (hiff _ _).mpr ⟨⟨1, rfl, rfl⟩, ?_⟩⟩
  · rw [hfirst]
    refine ⟨⟨1, by decide⟩, fun i hi => ?_⟩
    have hi : i < 2 := hi
    obtain rfl | rfl : i = 0 ∨ i = 1 := by omega
    · exact ⟨2, by decide, rfl⟩
    · exact ⟨1, by decide, rfl⟩
  · rw [hsecond]
    refine ⟨⟨1, by decide⟩, fun i hi => ⟨1, by decide, ?_⟩⟩
    obtain rfl : i = 0 := Nat.lt_one_iff.mp hi
    rfl

end RaptorFec
