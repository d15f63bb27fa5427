import RaptorFec.Crates.Repetition
import RaptorFec.Datagram.Honest

/-!
# Payloads of several blocks

`encode_payload` cuts a payload into chunks of the size one block can carry and sends every chunk
as a block of its own.

* `encodeChunks`, `encodePayload` — the loop over the chunks, which stops at the first error;
* `emitBlocks` — the datagrams of some blocks, one block after the other: what the loop emits
  (`encodeChunks_ok`), and what a decoder returns block by block (`returnedBlocks_emitBlocks`);
* `encodePayload_split` — the call fails and changes nothing, or it emits consecutive blocks from
  which a fresh decoder returns the payload.

No chunk is longer than the first one.  So the first chunk alone decides whether the geometry of
the chunks fits the headers, and the call fails before it has counted anything on.
-/

namespace RaptorFec

/-- `slice::chunks`. -/
def chunks (size : ℕ) (bytes : Bytes) : List Bytes :=
  (List.range (bytes.length ⌈/⌉ size)).map (piece bytes size)

namespace DatagramFecEncoder

variable (X : Crates)

/-- The loop over the chunks, each sent as one block. -/
def encodeChunks : List Bytes → DatagramFecEncoder → Option DatagramBufferPool →
    Option EncodeResult
  | [], self, pool => some (.ok [], self, pool)
  | chunk :: chunks, self, pool => do
      let first ← self.encodeOneBlockWithOptionalPool X chunk self.config.repairSymbols pool
      match first.1 with
      | .error error => some (.error error, first.2)
      | .ok datagrams => do
          let rest ← encodeChunks chunks first.2.1 first.2.2
          some (rest.1.map (datagrams ++ ·), rest.2)

/-- `encode_payload`, and its `_reusing` form when there is a pool.  An empty payload has no chunk
and is sent as one empty block. -/
def encodePayload (self : DatagramFecEncoder) (data : Bytes) (pool : Option DatagramBufferPool) :
    Option EncodeResult :=
  if u32Max < data.length then some (.error (.payloadTooLong data.length), self, pool)
  else
    let blocks := chunks (max self.config.maxPayloadLen 1) data
    encodeChunks X (if data.isEmpty then blocks ++ [data] else blocks) self pool

end DatagramFecEncoder

/-! ## The chunks of a payload -/

lemma DatagramFecConfig.maxPayloadLen_pos (config : DatagramFecConfig) :
    0 < config.maxPayloadLen := by
  rw [DatagramFecConfig.maxPayloadLen]
  exact Nat.mul_pos (by omega) (by omega)

lemma symbolsFor_mono {len len' : ℕ} {symbolSize : UInt16} (hsize : 0 < symbolSize.toNat)
    (h : len ≤ len') : symbolsFor len symbolSize ≤ symbolsFor len' symbolSize := by
  rw [symbolsFor, ceilDiv_le_iff_le_mul hsize]
  exact Nat.le_trans h ((ceilDiv_le_iff_le_mul hsize).mp le_rfl)

section Chunks

variable {size : ℕ} {bytes : Bytes}

@[simp] lemma length_chunks : (chunks size bytes).length = bytes.length ⌈/⌉ size := by
  simp [chunks]

lemma flatten_chunks (hsize : 0 < size) : (chunks size bytes).flatten = bytes := by
  refine flatten_pieces ?_
  rw [Nat.mul_comm]
  exact (ceilDiv_le_iff_le_mul hsize).mp le_rfl

/-- A chunk is neither empty nor longer than the first one. -/
lemma mem_chunks (hsize : 0 < size) {chunk : Bytes} (h : chunk ∈ chunks size bytes) :
    chunk ≠ [] ∧ chunk.length ≤ (bytes.take size).length := by
  obtain ⟨i, hi, rfl⟩ := List.mem_map.mp h
  have hstart : i * size < bytes.length := by
    by_contra hge
    have hle : bytes.length ⌈/⌉ size ≤ i :=
      (ceilDiv_le_iff_le_mul hsize).mpr (by rw [Nat.mul_comm]; omega)
    have := List.mem_range.mp hi
    omega
  have hlength := length_piece bytes size i
  constructor
  · intro hempty
    rw [hempty, List.length_nil] at hlength
    omega
  · rw [List.length_take, hlength]
    omega

lemma chunks_eq_cons (hbytes : bytes ≠ []) (hsize : 0 < size) :
    ∃ rest, chunks size bytes = bytes.take size :: rest := by
  have hpos : 0 < bytes.length ⌈/⌉ size := by
    have hlength := List.length_pos_of_ne_nil hbytes
    by_contra hzero
    have := (ceilDiv_le_iff_le_mul hsize).mp (Nat.le_of_not_lt hzero)
    omega
  obtain ⟨n, hn⟩ := Nat.exists_eq_add_of_lt hpos
  rw [chunks, hn, Nat.zero_add, List.range_succ_eq_map, List.map_cons, piece_zero]
  exact ⟨_, rfl⟩

/-- When the first chunk fits one block, they all do. -/
lemma oneBlock_of_mem_chunks {symbolSize : UInt16} (hsize : 0 < size)
    (hfirst : OneBlock (bytes.take size) symbolSize) :
    ∀ chunk ∈ chunks size bytes, OneBlock chunk symbolSize := by
  intro chunk hchunk
  obtain ⟨hne, hle⟩ := mem_chunks hsize hchunk
  exact ⟨hne, hfirst.symbolSize_pos,
    Nat.le_trans (symbolsFor_mono hfirst.symbolSize_pos hle) hfirst.symbols_le⟩

end Chunks

/-! ## What the loop emits -/

section Encode

variable {X : Crates} (code : X.Systematic) (repair : ℕ)

/-- The datagrams of some blocks, each with `repair` repair symbols, numbered on. -/
def emitBlocks : List SourceBlock → UInt32 → List (List Bytes)
  | [], _ => []
  | block :: blocks, sequence =>
      let count := block.sourceSymbols + repair
      ((List.range count).map fun esi =>
          block.datagram code (sequence + UInt32.ofNat esi) esi) ::
        emitBlocks blocks (sequence + UInt32.ofNat count)

/-- The block and the symbol id of every datagram of `emitBlocks`. -/
def emittedSymbols (blocks : List SourceBlock) : List (UInt32 × ℕ) :=
  blocks.flatMap fun block => Collector.ofBlock block.id (List.range (block.sourceSymbols + repair))

variable {code}
variable {encodedPackets : Bytes → ObjectTransmissionInformation → UInt32 →
  Option (List EncodingPacket)} {encoder : DatagramFecEncoder} {chunk : Bytes}
  {repairSymbols : UInt32} {pool : Option DatagramBufferPool} {result : EncodeResult}

/-- A chunk that does not fit one block is refused at its first packet. -/
lemma encodeOneBlockWithOptionalPool_beyond (hencodes : code.Encodes encodedPackets)
    (hchunk : chunk ≠ []) (hlength : chunk.length ≤ u32Max)
    (hbeyond : ¬ OneBlock chunk (max encoder.config.symbolSize 1))
    (h : encoder.encodeOneBlockWithOptionalPool (X.withEncodedPackets encodedPackets) chunk
      repairSymbols pool = some result) :
    ∃ error, result = (.error error, encoder, pool) := by
  have hsize : 0 < (max encoder.config.symbolSize 1).toNat := max_one_pos _
  have hgeometry : ¬ OneBlockGeometry (UInt32.ofNat chunk.length)
      (sourceSymbolCount chunk.length (max encoder.config.symbolSize 1))
      (max encoder.config.symbolSize 1) := by
    intro hgeometry
    rw [u32Max] at hlength
    have htoNat : (UInt32.ofNat chunk.length).toNat = chunk.length :=
      UInt32.toNat_ofNat_of_lt' (by simp only [UInt32.size]; omega)
    exact hbeyond ⟨hchunk, hsize, htoNat ▸ hgeometry.symbols_le⟩
  rw [DatagramFecEncoder.encodeOneBlockWithOptionalPool] at h
  obtain ⟨packets, hpackets, rfl⟩ := Option.map_eq_some_iff.mp h
  have hne : packets ≠ [] :=
    hencodes.beyond chunk (max encoder.config.symbolSize 1) repairSymbols packets hchunk hsize
      hbeyond hpackets
  obtain ⟨packet, packets, rfl⟩ := List.exists_cons_of_ne_nil hne
  have hrefused : ∃ error, DatagramFecHeader.raptorq (X.withEncodedPackets encodedPackets)
      encoder.blockId (UInt32.ofNat chunk.length) encoder.packetSequence
      (sourceSymbolCount chunk.length (max encoder.config.symbolSize 1))
      (max encoder.config.symbolSize 1)
      ((X.withEncodedPackets encodedPackets).serialize packet) = .error error :=
    DatagramFecHeader.raptorq_error hgeometry
  obtain ⟨error, herror⟩ := hrefused
  refine ⟨error, ?_⟩
  simp only [DatagramFecEncoder.encodePackets, exactOneBlockOti, herror]

/-- A chunk that fits one block is sent as one. -/
lemma encodeOneBlockWithOptionalPool_within (hencodes : code.Encodes encodedPackets)
    (one : OneBlock chunk (max encoder.config.symbolSize 1))
    (h : encoder.encodeOneBlockWithOptionalPool (X.withEncodedPackets encodedPackets) chunk
      repairSymbols pool = some result) :
    let block : SourceBlock := ⟨encoder.blockId, chunk, max encoder.config.symbolSize 1, one⟩
    let count := block.sourceSymbols + repairSymbols.toNat
    count ≤ esiLimit ∧
    ∃ pool', result = (.ok ((List.range count).map fun esi =>
        block.datagram code (encoder.packetSequence + UInt32.ofNat esi) esi),
      { encoder with
        packetSequence := encoder.packetSequence + UInt32.ofNat count
        blockId := encoder.blockId + 1 }, pool') := by
  intro block count
  have hoti : exactOneBlockOti (UInt64.ofNat chunk.length) encoder.config.symbolSize
      = oneBlockOti chunk (max encoder.config.symbolSize 1) := rfl
  have hsame := hencodes.oneBlock chunk _ repairSymbols one
  have hlimit : count ≤ esiLimit := by
    by_contra hno
    have hnone := code.encodedPackets_none chunk _ repairSymbols one.nonempty one.symbolSize_pos
      fun hboth => hno hboth.2
    have hcall : (X.withEncodedPackets encodedPackets).encodedPackets = encodedPackets := rfl
    rw [DatagramFecEncoder.encodeOneBlockWithOptionalPool] at h
    simp only [hoti, hcall, hsame, hnone, Option.map_none] at h
    cases h
  obtain ⟨pool', heq⟩ := encodeOneBlockWithOptionalPool_of_packets code block pool rfl rfl
    (hsame.trans (code.encodedPackets_eq chunk _ repairSymbols one hlimit))
  exact ⟨hlimit, pool', Option.some.inj (h.symm.trans heq)⟩

/-- The loop goes on behind a chunk that was sent. -/
lemma encodeChunks_cons (X : Crates) {encoder' : DatagramFecEncoder}
    {pool' : Option DatagramBufferPool} {datagrams : List Bytes} (chunks : List Bytes)
    (h : encoder.encodeOneBlockWithOptionalPool X chunk encoder.config.repairSymbols pool
      = some (.ok datagrams, encoder', pool')) :
    DatagramFecEncoder.encodeChunks X (chunk :: chunks) encoder pool
      = (DatagramFecEncoder.encodeChunks X chunks encoder' pool').map
          fun rest => (rest.1.map (datagrams ++ ·), rest.2) := by
  rw [DatagramFecEncoder.encodeChunks, h]
  simp only [Option.bind_eq_bind, Option.bind_some]
  exact Option.map_eq_bind.symm

/-- A loop that succeeds sends its first chunk, and then the others. -/
lemma encodeChunks_cons_eq_ok {X : Crates} {encoder' : DatagramFecEncoder}
    {pool' : Option DatagramBufferPool} {datagrams : List Bytes} {chunks : List Bytes}
    (h : DatagramFecEncoder.encodeChunks X (chunk :: chunks) encoder pool
      = some (.ok datagrams, encoder', pool')) :
    ∃ front next left back,
      encoder.encodeOneBlockWithOptionalPool X chunk encoder.config.repairSymbols pool
        = some (.ok front, next, left) ∧
      DatagramFecEncoder.encodeChunks X chunks next left = some (.ok back, encoder', pool') ∧
      datagrams = front ++ back := by
  rw [DatagramFecEncoder.encodeChunks] at h
  obtain ⟨⟨result, next, left⟩, hfirst, hcont⟩ := Option.bind_eq_some_iff.mp h
  cases result with
  | error error => cases hcont
  | ok front =>
      obtain ⟨⟨result, last, left'⟩, hrest, heq⟩ := Option.bind_eq_some_iff.mp hcont
      obtain ⟨hmap, hlast⟩ := Prod.mk.inj (Option.some.inj heq)
      obtain ⟨back, rfl, rfl⟩ := map_eq_ok_iff.mp hmap
      obtain ⟨rfl, rfl⟩ := Prod.mk.inj hlast
      exact ⟨front, next, left, back, hfirst, hrest, rfl⟩

/-- A payload that is sent went through the loop over its chunks. -/
lemma encodePayload_eq_ok {X : Crates} {encoder' : DatagramFecEncoder} {data : Bytes}
    {pool' : Option DatagramBufferPool} {datagrams : List Bytes}
    (h : encoder.encodePayload X data pool = some (.ok datagrams, encoder', pool')) :
    ∃ chunks, DatagramFecEncoder.encodeChunks X chunks encoder pool
      = some (.ok datagrams, encoder', pool') := by
  rw [DatagramFecEncoder.encodePayload] at h
  split_ifs at h
  · cases h
  · exact ⟨_, h⟩
  · exact ⟨_, h⟩

/-- The blocks that some chunks are sent as. -/
structure SentAs (chunks : List Bytes) (encoder : DatagramFecEncoder) (repair : ℕ)
    (blocks : List SourceBlock) : Prop where
  objects : blocks.map SourceBlock.object = chunks
  ids : blocks.map SourceBlock.id
    = (List.range blocks.length).map fun i => encoder.blockId + UInt32.ofNat i
  limit : ∀ block ∈ blocks, block.sourceSymbols + repair ≤ esiLimit

/-- **The loop over chunks that each fit one block** emits their blocks, all of one symbol size. -/
lemma encodeChunks_emits (hencodes : code.Encodes encodedPackets) {chunks : List Bytes}
    (hchunks : ∀ chunk ∈ chunks, OneBlock chunk (max encoder.config.symbolSize 1))
    (h : DatagramFecEncoder.encodeChunks (X.withEncodedPackets encodedPackets) chunks encoder pool
      = some result) :
    ∃ blocks, SentAs chunks encoder encoder.config.repairSymbols.toNat blocks ∧
      (∀ block ∈ blocks, block.symbolSize = max encoder.config.symbolSize 1) ∧
      ∃ pool',
        let datagrams :=
          (emitBlocks code encoder.config.repairSymbols.toNat blocks encoder.packetSequence).flatten
        result = (.ok datagrams,
          { encoder with
            packetSequence := encoder.packetSequence + UInt32.ofNat datagrams.length
            blockId := encoder.blockId + UInt32.ofNat chunks.length }, pool') := by
  induction chunks generalizing encoder pool result with
  | nil =>
      obtain rfl := Option.some.inj h
      refine ⟨[], ⟨rfl, rfl, by simp⟩, by simp, pool, ?_⟩
      simp [emitBlocks]
  | cons chunk chunks ih =>
      have hfirst : ∃ first, encoder.encodeOneBlockWithOptionalPool
          (X.withEncodedPackets encodedPackets) chunk encoder.config.repairSymbols pool
            = some first := by
        rw [DatagramFecEncoder.encodeChunks] at h
        obtain ⟨first, hfirst, -⟩ := Option.bind_eq_some_iff.mp h
        exact ⟨first, hfirst⟩
      obtain ⟨first, hfirst⟩ := hfirst
      obtain ⟨hlimit, pool', rfl⟩ := encodeOneBlockWithOptionalPool_within hencodes
        (hchunks chunk List.mem_cons_self) hfirst
      rw [encodeChunks_cons _ chunks hfirst] at h
      obtain ⟨rest, hcall, rfl⟩ := Option.map_eq_some_iff.mp h
      -- the other chunks, from the encoder that counted the first one
      obtain ⟨blocks, hsent, hsizes, pool'', hrest⟩ := ih
        (by exact fun chunk hchunk => hchunks chunk (List.mem_cons_of_mem _ hchunk)) hcall
      set block : SourceBlock := ⟨encoder.blockId, chunk, max encoder.config.symbolSize 1,
        hchunks chunk List.mem_cons_self⟩ with hblock
      have hcount := add_one_add_ofNat encoder.blockId
      refine ⟨block :: blocks, ⟨?_, ?_, ?_⟩, List.forall_mem_cons.mpr ⟨rfl, hsizes⟩, pool'', ?_⟩
      · rw [List.map_cons, hsent.objects]
      · rw [List.map_cons, hsent.ids, List.length_cons, List.range_succ_eq_map, List.map_cons,
          List.map_map]
        congr 1
        · simp [hblock]
        · exact List.map_congr_left fun i _ => hcount i
      · intro b hb
        rcases List.mem_cons.mp hb with rfl | hb
        · exact hlimit
        · exact hsent.limit b hb
      · rw [hrest]
        simp only [emitBlocks, Except.map, List.flatten_cons, List.length_append, List.length_map,
          List.length_range, UInt32.ofNat_add, UInt32.add_assoc, List.length_cons, hcount]

/-- The blocks that the loop emits. -/
lemma encodeChunks_ok (hencodes : code.Encodes encodedPackets) {chunks : List Bytes}
    (hchunks : ∀ chunk ∈ chunks, OneBlock chunk (max encoder.config.symbolSize 1))
    (h : DatagramFecEncoder.encodeChunks (X.withEncodedPackets encodedPackets) chunks encoder pool
      = some result) :
    ∃ blocks, SentAs chunks encoder encoder.config.repairSymbols.toNat blocks ∧
      ∃ pool',
        let datagrams :=
          (emitBlocks code encoder.config.repairSymbols.toNat blocks encoder.packetSequence).flatten
        result = (.ok datagrams,
          { encoder with
            packetSequence := encoder.packetSequence + UInt32.ofNat datagrams.length
            blockId := encoder.blockId + UInt32.ofNat chunks.length }, pool') := by
  obtain ⟨blocks, hsent, -, hresult⟩ := encodeChunks_emits hencodes hchunks h
  exact ⟨blocks, hsent, hresult⟩

/-- **The loop over the chunks of a payload** fails at the first chunk, or not at all. -/
lemma encodeChunks_cases (hencodes : code.Encodes encodedPackets) {size : ℕ} {data : Bytes}
    (hdata : data ≠ []) (hsize : 0 < size) (hlength : data.length ≤ u32Max)
    (h : DatagramFecEncoder.encodeChunks (X.withEncodedPackets encodedPackets) (chunks size data)
      encoder pool = some result) :
    (∃ error, result = (.error error, encoder, pool)) ∨
      ∀ chunk ∈ chunks size data, OneBlock chunk (max encoder.config.symbolSize 1) := by
  by_cases hfirst : OneBlock (data.take size) (max encoder.config.symbolSize 1)
  · exact Or.inr (oneBlock_of_mem_chunks hsize hfirst)
  obtain ⟨rest, hrest⟩ := chunks_eq_cons hdata hsize
  have hmem : data.take size ∈ chunks size data := hrest ▸ List.mem_cons_self
  rw [hrest, DatagramFecEncoder.encodeChunks] at h
  obtain ⟨first, hcall, hcont⟩ := Option.bind_eq_some_iff.mp h
  have hshort : (data.take size).length ≤ u32Max :=
    Nat.le_trans (List.length_take_le' _ _) hlength
  obtain ⟨error, rfl⟩ := encodeOneBlockWithOptionalPool_beyond hencodes
    (mem_chunks hsize hmem).1 hshort hfirst hcall
  exact Or.inl ⟨error, (Option.some.inj hcont).symm⟩

/-! ## The datagrams of consecutive blocks -/

variable {repair} {blocks : List SourceBlock}

lemma length_emitBlocks (sequence : UInt32) :
    (emitBlocks code repair blocks sequence).length = blocks.length := by
  induction blocks generalizing sequence with
  | nil => rfl
  | cons block blocks ih => simp [emitBlocks, ih]

/-- The packet sequences count on over all blocks. -/
lemma wireSequence_emitBlocks (hlimit : ∀ block ∈ blocks, block.sourceSymbols + repair ≤ esiLimit)
    (sequence : UInt32) :
    (emitBlocks code repair blocks sequence).flatten.map wireSequence
      = (List.range (emitBlocks code repair blocks sequence).flatten.length).map fun i =>
        some (sequence + UInt32.ofNat i) := by
  induction blocks generalizing sequence with
  | nil => rfl
  | cons block blocks ih =>
      rw [List.forall_mem_cons] at hlimit
      rw [emitBlocks, List.flatten_cons]
      refine map_append_range ?_ ?_
      · rw [List.map_map, List.length_map, List.length_range]
        refine List.map_congr_left fun esi hesi => wireSequence_of_carries
          (carries_datagram code block _ ?_)
        exact Nat.lt_of_lt_of_le (List.mem_range.mp hesi) hlimit.1
      · rw [ih hlimit.2, List.length_map, List.length_range]
        refine List.map_congr_left fun i _ => ?_
        rw [UInt32.add_assoc, ← UInt32.ofNat_add]

/-- Every block has a datagram, and all its datagrams carry its id. -/
lemma wireSymbol_emitBlocks (hlimit : ∀ block ∈ blocks, block.sourceSymbols + repair ≤ esiLimit)
    (sequence : UInt32) {i : ℕ} {block : SourceBlock} {part : List Bytes}
    (hblock : blocks[i]? = some block)
    (hpart : (emitBlocks code repair blocks sequence)[i]? = some part) :
    part ≠ [] ∧ ∀ datagram ∈ part, (wireSymbol X datagram).map Prod.fst = some block.id := by
  induction blocks generalizing sequence i with
  | nil => cases hblock
  | cons first blocks ih =>
      rw [List.forall_mem_cons] at hlimit
      cases i with
      | zero =>
          obtain rfl := Option.some.inj hblock
          obtain rfl := Option.some.inj hpart
          constructor
          · intro hempty
            have hcount := congrArg List.length hempty
            rw [List.length_map, List.length_range, List.length_nil] at hcount
            have := first.sourceSymbols_pos
            omega
          · intro datagram hdatagram
            obtain ⟨esi, hesi, rfl⟩ := List.mem_map.mp hdatagram
            rw [wireSymbol_of_carries (carries_datagram code first _
              (Nat.lt_of_lt_of_le (List.mem_range.mp hesi) hlimit.1)), Option.map_some]
      | succ i => exact ih hlimit.2 _ hblock hpart

/-- The emitted datagrams carry the emitted symbols. -/
lemma isSymbol_emitBlocks {B : BlockSet} (hB : ∀ block ∈ blocks, block ∈ B)
    (hlimit : ∀ block ∈ blocks, block.sourceSymbols + repair ≤ esiLimit) (sequence : UInt32) :
    List.Forall₂ (IsSymbol code B) (emitBlocks code repair blocks sequence).flatten
      (emittedSymbols repair blocks) := by
  induction blocks generalizing sequence with
  | nil => exact List.Forall₂.nil
  | cons block blocks ih =>
      rw [List.forall_mem_cons] at hB hlimit
      rw [emitBlocks, List.flatten_cons, emittedSymbols, List.flatMap_cons, Collector.ofBlock]
      refine List.rel_append ?_ (ih hB.2 hlimit.2 _)
      rw [List.forall₂_map_left_iff, List.forall₂_map_right_iff]
      refine List.forall₂_same.mpr fun esi hesi => ?_
      exact ⟨block, hB.1, _, rfl, carries_datagram code block _
        (Nat.lt_of_lt_of_le (List.mem_range.mp hesi) hlimit.1)⟩

end Encode

/-! ## What a decoder returns -/

/-- The object that a push returns, with the id of the block its datagram belongs to. -/
def returnedBlock (X : Crates) (datagram : Bytes) (output : Except DatagramFecError (Option Bytes)) :
    Option (UInt32 × Bytes) := do
  let symbol ← wireSymbol X datagram
  let returned ← output.toOption
  returned.map fun object => (symbol.1, object)

/-- The objects that the pushes of a run return. -/
def returnedBlocks (X : Crates) (datagrams : List Bytes)
    (outputs : List (Except DatagramFecError (Option Bytes))) : List (UInt32 × Bytes) :=
  (List.zipWith (returnedBlock X) datagrams outputs).reduceOption

section Decode

variable {X : Crates} (code : X.Ideal) {B : BlockSet}

/-- The entry is the object of the block with this id. -/
def IsObject (B : BlockSet) (entry : UInt32 × Bytes) (id : UInt32) : Prop :=
  ∃ block ∈ B, block.id = id ∧ entry = (id, block.object)

/-- The blocks a run returns are those its collector fires. -/
lemma returnedBlocks_run {decoder : DatagramFecDecoder X} {c : Collector UInt32 ℕ}
    {datagrams : List Bytes} {symbols : List (UInt32 × ℕ)} (h : Simulates code B decoder c)
    (hsymbols : List.Forall₂ (IsSymbol code.toSystematic B) datagrams symbols) :
    List.Forall₂ (IsObject B)
      (returnedBlocks X datagrams (runOutputs DatagramFecDecoder.pushDatagram decoder datagrams))
      (Collector.fired (DoneIn code B) DropsId c symbols) := by
  induction hsymbols generalizing decoder c with
  | nil => exact List.Forall₂.nil
  | @cons datagram symbol datagrams symbols hsymbol _ ih =>
      obtain ⟨hresult, hsim⟩ := simulates_push code B decoder c datagram symbol h hsymbol
      have hrest := ih hsim
      have hwire : wireSymbol X datagram = some symbol := by
        obtain ⟨block, -, sequence, hid, hcarries⟩ := hsymbol
        exact (wireSymbol_of_carries hcarries).trans (congrArg (fun i => some (i, _)) hid)
      rw [Collector.fired, runOutputs_cons, runOutputs_cons, returnedBlocks, List.zipWith_cons_cons,
        returnedBlock, hwire]
      -- the collector fires nothing, or the block of the symbol
      cases hfires : (c.push (DoneIn code B) DropsId symbol).1 with
      | none =>
          rw [hfires] at hresult
          have hnone : (decoder.pushDatagram datagram).1 = .ok none := hresult
          rw [hnone, List.reduceOption_cons_of_none]
          exact hrest
      | some id =>
          rw [hfires] at hresult
          obtain ⟨block, hb, rfl, hsome⟩ := hresult
          have hid : symbol.1 = block.id := Collector.push_fst_eq_some hfires
          rw [hsome, List.reduceOption_cons_of_some]
          exact List.Forall₂.cons ⟨block, hb, rfl, by rw [hid]⟩ hrest

/-- Entries for the ids of some blocks are the objects of the blocks. -/
lemma objects_eq {blocks : List SourceBlock} (hB : ∀ block ∈ blocks, block ∈ B)
    {entries : List (UInt32 × Bytes)}
    (h : List.Forall₂ (IsObject B) entries (blocks.map SourceBlock.id)) :
    entries = blocks.map fun block => (block.id, block.object) := by
  induction blocks generalizing entries with
  | nil => exact List.forall₂_nil_right_iff.mp h
  | cons block blocks ih =>
      rw [List.forall_mem_cons] at hB
      obtain ⟨entry, rest, ⟨block', hb', hid, rfl⟩, hrest, rfl⟩ := List.forall₂_cons_right_iff.mp h
      obtain rfl := BlockSet.eq_of_id hb' hB.1 hid
      rw [List.map_cons, ih hB.2 hrest]

/-- Results of honest datagrams are no errors. -/
lemma ok_of_isResult {outputs : List (Except DatagramFecError (Option Bytes))}
    {fired : List (Option UInt32)} (h : List.Forall₂ (IsResult B) outputs fired) :
    ∀ output ∈ outputs, ∃ returned, output = .ok returned := by
  induction h with
  | nil => simp
  | @cons output id outputs ids hresult _ ih =>
      rw [List.forall_mem_cons]
      refine ⟨?_, ih⟩
      cases id with
      | none => exact ⟨none, hresult⟩
      | some id =>
          obtain ⟨block, -, -, hsome⟩ := hresult
          exact ⟨some block.object, hsome⟩

/-- The blocks of a list with distinct ids. -/
def BlockSet.ofList {blocks : List SourceBlock} (h : (blocks.map SourceBlock.id).Nodup) :
    BlockSet where
  blocks := {block | block ∈ blocks}
  inj _ hb _ hb' hid := List.inj_on_of_nodup_map h hb hb' hid

/-- **A fresh decoder fed whole blocks** accepts every datagram and returns every block once, in
order. -/
theorem returnedBlocks_emitBlocks {blocks : List SourceBlock} {repair : ℕ}
    (hnodup : (blocks.map SourceBlock.id).Nodup)
    (hlimit : ∀ block ∈ blocks, block.sourceSymbols + repair ≤ esiLimit) (sequence : UInt32) :
    let datagrams := (emitBlocks code.toSystematic repair blocks sequence).flatten
    let outputs := runOutputs DatagramFecDecoder.pushDatagram
      (DatagramFecDecoder.new : DatagramFecDecoder X) datagrams
    (∀ output ∈ outputs, ∃ returned, output = .ok returned) ∧
      returnedBlocks X datagrams outputs = blocks.map fun block => (block.id, block.object) := by
  intro datagrams outputs
  set B := BlockSet.ofList hnodup with hB
  have hsymbols : List.Forall₂ (IsSymbol code.toSystematic B) datagrams
      (emittedSymbols repair blocks) :=
    isSymbol_emitBlocks (fun block hb => hb) hlimit sequence
  -- the symbols are complete blocks, one after the other
  have hfired : Collector.fired (DoneIn code B) DropsId Collector.empty
      (emittedSymbols repair blocks) = blocks.map SourceBlock.id := by
    have hparts : emittedSymbols repair blocks
        = (blocks.map fun block => (block.id, List.range (block.sourceSymbols + repair))).flatMap
          fun part => Collector.ofBlock part.1 part.2 := by
      rw [List.flatMap_map]
      rfl
    rw [hparts, Collector.fired_phases (regular_doneIn code B)]
    · rw [List.map_map]
      rfl
    · rw [List.map_map]
      exact hnodup
    · intro part hpart
      obtain ⟨block, -, rfl⟩ := List.mem_map.mp hpart
      have := block.sourceSymbols_pos
      simp only [ne_eq, List.range_eq_nil]
      omega
    · intro part hpart
      obtain ⟨block, hb, rfl⟩ := List.mem_map.mp hpart
      have hb' : block ∈ B := hb
      refine (doneIn_iff hb').mpr (code.decodable_mono _ _ _ _ ?_ (code.decodable_source _ _))
      intro esi hesi
      have hesi : esi < block.sourceSymbols := Finset.mem_range.mp hesi
      exact List.mem_toFinset.mpr (List.mem_range.mpr (by omega))
    · exact fun _ _ => ⟨rfl, Set.notMem_empty _⟩
  refine ⟨ok_of_isResult (simulates_run code B (simulates_new code B) hsymbols).1, ?_⟩
  have hreturned := returnedBlocks_run code (simulates_new code B) hsymbols
  rw [hfired] at hreturned
  exact objects_eq (fun block hb => hb) hreturned

end Decode

/-- **A payload of several blocks.**  A call of `encode_payload` on a payload that is not empty and
has no more than `u32::MAX` bytes fails and changes nothing, or it emits `⌈len / max_payload_len⌉`
blocks: the block ids and the packet sequences are consecutive modulo `2 ^ 32`, the encoder has
counted the blocks and the datagrams, and a fresh decoder fed the datagrams in order accepts them
all and returns one piece of the payload for each block id, which together are the payload. -/
theorem encodePayload_split {X : Crates} (code : X.Ideal)
    {encodedPackets : Bytes → ObjectTransmissionInformation → UInt32 →
      Option (List EncodingPacket)} (hencodes : code.Encodes encodedPackets)
    (encoder : DatagramFecEncoder) (payload : Bytes) (pool : Option DatagramBufferPool)
    {result : EncodeResult} (hpayload : payload ≠ []) (hlength : payload.length ≤ u32Max)
    (hcall : encoder.encodePayload (X.withEncodedPackets encodedPackets) payload pool
      = some result) :
    (∃ error, result = (.error error, encoder, pool)) ∨
    ∃ (parts : List (List Bytes)) (pool' : Option DatagramBufferPool),
      let count := payload.length ⌈/⌉ encoder.config.maxPayloadLen
      let datagrams := parts.flatten
      let outputs := runOutputs DatagramFecDecoder.pushDatagram
        (DatagramFecDecoder.new : DatagramFecDecoder X) datagrams
      result = (.ok datagrams,
        { encoder with
          blockId := encoder.blockId + UInt32.ofNat count
          packetSequence := encoder.packetSequence + UInt32.ofNat datagrams.length }, pool') ∧
      parts.length = count ∧
      (∀ i part, parts[i]? = some part → part ≠ [] ∧ ∀ datagram ∈ part,
        (wireSymbol X datagram).map Prod.fst = some (encoder.blockId + UInt32.ofNat i)) ∧
      datagrams.map wireSequence = ((List.range datagrams.length).map fun i =>
        some (encoder.packetSequence + UInt32.ofNat i)) ∧
      (∀ output ∈ outputs, ∃ returned, output = .ok returned) ∧
      (returnedBlocks X datagrams outputs).map Prod.fst
        = ((List.range count).map fun i => encoder.blockId + UInt32.ofNat i) ∧
      ((returnedBlocks X datagrams outputs).map Prod.snd).flatten = payload := by
  have hsize := encoder.config.maxPayloadLen_pos
  have hmax : max encoder.config.maxPayloadLen 1 = encoder.config.maxPayloadLen :=
    Nat.max_eq_left hsize
  have hnonempty : payload.isEmpty = false := by
    cases payload with
    | nil => exact absurd rfl hpayload
    | cons byte bytes => rfl
  rw [DatagramFecEncoder.encodePayload, if_neg (Nat.not_lt.mpr hlength), hmax, hnonempty] at hcall
  rcases encodeChunks_cases hencodes hpayload hsize hlength hcall with herror | hchunks
  · exact Or.inl herror
  obtain ⟨blocks, hsent, pool', hresult⟩ := encodeChunks_ok hencodes hchunks hcall
  have hcount : blocks.length = payload.length ⌈/⌉ encoder.config.maxPayloadLen := by
    rw [← length_chunks, ← hsent.objects, List.length_map]
  -- fewer blocks than ids
  have hfew : blocks.length ≤ u32Max := by
    rw [hcount]
    refine Nat.le_trans ((ceilDiv_le_iff_le_mul hsize).mpr ?_) hlength
    exact Nat.le_mul_of_pos_left _ hsize
  have hnodup : (blocks.map SourceBlock.id).Nodup := by
    rw [hsent.ids]
    refine List.Nodup.map_on (fun i hi j hj heq => ?_) List.nodup_range
    have hi := List.mem_range.mp hi
    have hj := List.mem_range.mp hj
    rw [u32Max] at hfew
    have hahead := congrArg (ahead encoder.blockId) heq
    rwa [ahead_add_ofNat (by omega), ahead_add_ofNat (by omega)] at hahead
  obtain ⟨hok, hreturned⟩ := returnedBlocks_emitBlocks code hnodup hsent.limit
    encoder.packetSequence
  refine Or.inr ⟨emitBlocks code.toSystematic encoder.config.repairSymbols.toNat blocks
    encoder.packetSequence, pool', ?_, ?_, ?_, ?_, hok, ?_, ?_⟩
  · rw [hresult, length_chunks]
  · rw [length_emitBlocks, hcount]
  · intro i part hpart
    have hi : i < blocks.length := by
      obtain ⟨hi, -⟩ := List.getElem?_eq_some_iff.mp hpart
      rwa [length_emitBlocks] at hi
    have hid : blocks[i].id = encoder.blockId + UInt32.ofNat i := by
      have hget := congrArg (fun ids => ids[i]?) hsent.ids
      simpa [hi] using hget
    rw [← hid]
    exact wireSymbol_emitBlocks hsent.limit _ (List.getElem?_eq_getElem hi) hpart
  · exact wireSequence_emitBlocks hsent.limit _
  · rw [hreturned, List.map_map, ← hcount, ← hsent.ids]
    rfl
  · have hobjects : (blocks.map fun block => (block.id, block.object)).map Prod.snd
        = chunks encoder.config.maxPayloadLen payload := by
      rw [List.map_map, ← hsent.objects]
      rfl
    rw [hreturned, hobjects, flatten_chunks hsize]

/-! ## A payload of two blocks -/

/-- The repetition code without a limit on the number of source symbols. -/
def Repetition.unboundedPackets (object : Bytes) (oti : ObjectTransmissionInformation)
    (repair : UInt32) : Option (List EncodingPacket) :=
  let count := symbolsFor object.length oti.symbolSize
  if count + repair.toNat ≤ esiLimit then
    some ((List.range (count + repair.toNat)).map fun esi =>
      ⟨0, UInt32.ofNat esi, Repetition.symbol object oti.symbolSize esi⟩)
  else none

lemma Repetition.encodes_unboundedPackets :
    repetitionIdeal.Encodes Repetition.unboundedPackets where
  oneBlock object symbolSize repair one := by
    have hcount : symbolsFor object.length (oneBlockOti object symbolSize).symbolSize
        ≤ maxBlockSymbols := one.symbols_le
    change (if _ then _ else _) = if _ then _ else _
    simp only [hcount, true_and]
  beyond object symbolSize repair packets hobject hsize _ hpackets := by
    have hpos : 0 < symbolsFor object.length symbolSize :=
      symbolsFor_pos (List.length_pos_of_ne_nil hobject) hsize
    rw [Repetition.unboundedPackets] at hpackets
    split_ifs at hpackets
    obtain rfl := Option.some.inj hpackets
    intro hempty
    have hcount := congrArg List.length hempty
    simp only [oneBlockOti, List.length_map, List.length_range, List.length_nil] at hcount
    omega

/-- Three bytes in blocks of two, with a block id that wraps in between. -/
theorem encodePayload_split_two :
    ∃ (datagrams : List Bytes) (encoder : DatagramFecEncoder) (pool : Option DatagramBufferPool),
      DatagramFecEncoder.encodePayload (repetition.withEncodedPackets Repetition.unboundedPackets)
          ⟨4294967295, 7, ⟨1, 1, 2⟩⟩ [1, 2, 3] none = some (.ok datagrams, encoder, pool) ∧
      encoder.blockId = 1 ∧
      ((returnedBlocks repetition datagrams (runOutputs DatagramFecDecoder.pushDatagram
        (DatagramFecDecoder.new : DatagramFecDecoder repetition) datagrams)).map
          Prod.snd).flatten = [1, 2, 3] := by
  have hok : (DatagramFecEncoder.encodePayload
      (repetition.withEncodedPackets Repetition.unboundedPackets)
      ⟨4294967295, 7, ⟨1, 1, 2⟩⟩ [1, 2, 3] none).map (fun result => result.1.isOk) = some true := by
    decide +kernel
  obtain ⟨result, hcall, hresult⟩ := Option.map_eq_some_iff.mp hok
  rcases encodePayload_split repetitionIdeal Repetition.encodes_unboundedPackets
    ⟨4294967295, 7, ⟨1, 1, 2⟩⟩ [1, 2, 3] none (by decide) (by decide) hcall with
    ⟨error, rfl⟩ | ⟨parts, pool, rfl, -, -, -, -, -, hflatten⟩
  · cases hresult
  · exact ⟨_, _, _, hcall, rfl, hflatten⟩

end RaptorFec
