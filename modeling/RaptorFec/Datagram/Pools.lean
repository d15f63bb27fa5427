import RaptorFec.Datagram.Calls
import RaptorFec.Library.BestFit

/-!
# Encoding into recycled buffers

A `_reusing` call writes its datagrams into buffers of a pool.  This file follows the buffers
themselves, with their old contents, their capacities and the pool buffer they were.

**Taking a buffer.**  `takeVec_spec` says which buffer `take` returns and what it leaves.

**Writing a datagram.**  `encodePacketsInto` is the loop over the packets of a block on the buffers;
it emits the datagrams of `encodePackets`, each in the buffer that was taken for it
(`encodePacketsInto_eq`).

**Whole calls.**  A call does not look at the pool (`SameCall`), and the buffers it takes are those
that `storeAll` takes for its datagrams (`encodePayload_storeAll` and its siblings), so they hold
these datagrams (`heldBy_storeAll`).
-/

namespace RaptorFec

/-! ## Buffers with their memory -/

/-- A `Vec<u8>`: its bytes, its capacity, and the buffer of the pool whose memory it has. -/
structure ByteVec where
  bytes : Bytes
  capacity : ℕ
  origin : Option PoolBuffer
  deriving DecidableEq, Repr

namespace ByteVec

variable (vec : ByteVec)

/-- `Vec::with_capacity`. -/
def withCapacity (capacity : ℕ) : ByteVec := ⟨[], capacity, none⟩

/-- `Vec::clear`. -/
def clear : ByteVec := { vec with bytes := [] }

/-- The vector with other bytes, in the same memory when they fit and in new memory otherwise. -/
def store (bytes : Bytes) : ByteVec :=
  if bytes.length ≤ vec.capacity then { vec with bytes := bytes }
  else ⟨bytes, max (2 * vec.capacity) bytes.length, none⟩

/-- `Vec::resize` with zeros. -/
def resize (len : ℕ) : ByteVec := vec.store (RaptorFec.resize vec.bytes len)

/-- `Vec::extend_from_slice`. -/
def extendFromSlice (bytes : Bytes) : ByteVec := vec.store (vec.bytes ++ bytes)

@[simp] lemma bytes_clear : vec.clear.bytes = [] := rfl

@[simp] lemma capacity_clear : vec.clear.capacity = vec.capacity := rfl

variable {vec}

lemma store_of_le {bytes : Bytes} (h : bytes.length ≤ vec.capacity) :
    vec.store bytes = { vec with bytes := bytes } := if_pos h

end ByteVec

/-- A buffer of the pool as the vector it is. -/
def PoolBuffer.toVec (buffer : PoolBuffer) : ByteVec :=
  ⟨buffer.contents, buffer.capacity, some buffer⟩

/-! ## Taking a buffer -/

namespace DatagramBufferPool

variable (pool : DatagramBufferPool) (minCapacity : ℕ)

/-- The index that the loop of `take` finds. -/
def bestIndex : Option ℕ := (bestFit PoolBuffer.capacity minCapacity usizeMax pool.buffers).1

/-- `DatagramBufferPool::take`, with the buffer that it returns. -/
def takeVec : ByteVec × DatagramBufferPool :=
  match pool.bestIndex minCapacity with
  | some index =>
      ((pool.buffers.getD index ⟨[], 0⟩).toVec.clear, ⟨swapRemove pool.buffers index⟩)
  | none => (ByteVec.withCapacity minCapacity, pool)

/-- The bytes of the buffer are those of `take`. -/
lemma take_eq : pool.take minCapacity
    = ((pool.takeVec minCapacity).1.bytes, (pool.takeVec minCapacity).2) := by
  have hindex : (pool.buffers.zipIdx.foldl
      (fun best entry =>
        if minCapacity ≤ entry.1.capacity ∧ entry.1.capacity < best.2 then
          (some entry.2, entry.1.capacity)
        else best)
      ((none : Option ℕ), usizeMax)).1 = pool.bestIndex minCapacity := rfl
  rw [take, takeVec]
  simp only [hindex]
  cases pool.bestIndex minCapacity <;> rfl

/-- `swap_remove` takes out one entry and keeps the others. -/
lemma swapRemove_perm {α : Type} {entries : List α} {index : ℕ} {entry : α}
    (h : entries[index]? = some entry) : entries.Perm (entry :: swapRemove entries index) := by
  cases entries using List.reverseRecOn with
  | nil => cases h
  | append_singleton entries last =>
      rw [swapRemove, List.getLast?_concat]
      rcases Nat.lt_or_ge index entries.length with hlt | hge
      · -- the last entry goes to the place of the one that is taken
        rw [List.getElem?_append_left hlt] at h
        simp only [List.set_append_left _ _ hlt, List.dropLast_concat]
        exact (List.perm_append_singleton last entries).trans (cons_set_perm last h)
      · obtain ⟨hlt, hentry⟩ := List.getElem?_eq_some_iff.mp h
        have hindex : index = entries.length := by
          rw [List.length_append, List.length_singleton] at hlt
          omega
        subst hindex
        simp only [List.getElem_concat_length] at hentry
        subst hentry
        simp

lemma takeVec_of_some {index : ℕ} {buffer : PoolBuffer}
    (hindex : pool.bestIndex minCapacity = some index)
    (hbuffer : pool.buffers[index]? = some buffer) :
    pool.takeVec minCapacity = (buffer.toVec.clear, ⟨swapRemove pool.buffers index⟩) := by
  rw [takeVec, hindex]
  simp only [List.getD_eq_getElem?_getD, hbuffer, Option.getD_some]

lemma takeVec_of_none (hindex : pool.bestIndex minCapacity = none) :
    pool.takeVec minCapacity = (ByteVec.withCapacity minCapacity, pool) := by
  rw [takeVec, hindex]

/-- **What `take` returns and leaves**, whatever the capacities are: a smallest buffer of enough
capacity, cleared, with all others left in the pool; or a new buffer, with the pool unchanged. -/
theorem takeVec_cases :
    (∃ buffer rest, pool.takeVec minCapacity = (buffer.toVec.clear, ⟨rest⟩) ∧
      pool.buffers.Perm (buffer :: rest) ∧ minCapacity ≤ buffer.capacity ∧
      ∀ other ∈ pool.buffers, minCapacity ≤ other.capacity → buffer.capacity ≤ other.capacity) ∨
    pool.takeVec minCapacity = (ByteVec.withCapacity minCapacity, pool) ∧
      ∀ other ∈ pool.buffers, minCapacity ≤ other.capacity → usizeMax ≤ other.capacity := by
  have hspec := bestFit_spec PoolBuffer.capacity minCapacity usizeMax pool.buffers
  cases hbest : pool.bestIndex minCapacity with
  | some index =>
      rw [BestAmong, ← bestIndex, hbest] at hspec
      obtain ⟨buffer, hbuffer, -, hleast, hle⟩ := hspec
      exact Or.inl ⟨buffer, _, pool.takeVec_of_some _ hbest hbuffer, swapRemove_perm hbuffer,
        hleast, hle⟩
  | none =>
      rw [BestAmong, ← bestIndex, hbest] at hspec
      exact Or.inr ⟨pool.takeVec_of_none _ hbest, hspec.2⟩

/-- The buffers of a pool are allocated: no `Vec` holds more than `isize::MAX` bytes. -/
def Allocated : Prop := ∀ buffer ∈ pool.buffers, buffer.capacity ≤ 2 ^ 63 - 1

/-- A best fit: a smallest buffer of enough capacity, cleared, and the pool of all others. -/
structure BestFit (taken : ByteVec × DatagramBufferPool) : Prop where
  /-- A buffer is taken whenever one has enough capacity, and then a smallest one of these. -/
  smallest : (∃ buffer ∈ pool.buffers, minCapacity ≤ buffer.capacity) →
    ∃ buffer, taken.1 = buffer.toVec.clear ∧ pool.buffers.Perm (buffer :: taken.2.buffers) ∧
      minCapacity ≤ buffer.capacity ∧
      ∀ other ∈ pool.buffers, minCapacity ≤ other.capacity → buffer.capacity ≤ other.capacity
  /-- Otherwise there is a new buffer, and the pool is left as it is. -/
  fresh : (∀ buffer ∈ pool.buffers, buffer.capacity < minCapacity) →
    taken = (ByteVec.withCapacity minCapacity, pool)

/-- **`take` is a best fit.** -/
theorem takeVec_bestFit (h : pool.Allocated) :
    pool.BestFit minCapacity (pool.takeVec minCapacity) := by
  rcases pool.takeVec_cases minCapacity with ⟨buffer, rest, htaken, hperm, hleast, hle⟩ |
    ⟨htaken, hnone⟩
  · rw [htaken]
    constructor
    · intro _
      exact ⟨buffer, rfl, hperm, hleast, hle⟩
    · intro hsmall
      have hmem : buffer ∈ pool.buffers := hperm.mem_iff.mpr List.mem_cons_self
      exact absurd hleast (Nat.not_le.mpr (hsmall buffer hmem))
  · rw [htaken]
    constructor
    · rintro ⟨buffer, hmem, hleast⟩
      have hcapacity := h buffer hmem
      have hlimit : usizeMax ≤ buffer.capacity := hnone buffer hmem hleast
      rw [usizeMax] at hlimit
      omega
    · exact fun _ => rfl

end DatagramBufferPool

/-- A vector for the next datagram, from the pool where there is one. -/
def takeVecFrom (pool : Option DatagramBufferPool) (minCapacity : ℕ) :
    ByteVec × Option DatagramBufferPool :=
  match pool with
  | some pool => ((pool.takeVec minCapacity).1, some (pool.takeVec minCapacity).2)
  | none => (ByteVec.withCapacity minCapacity, none)

lemma takeBuffer_snd (pool : Option DatagramBufferPool) (minCapacity : ℕ) :
    (takeBuffer pool minCapacity).2 = (takeVecFrom pool minCapacity).2 := by
  cases pool with
  | none => rfl
  | some pool =>
      rw [takeBuffer, pool.take_eq]
      rfl

/-- A vector that was taken is empty and has the capacity that was asked for. -/
lemma takeVecFrom_fst (pool : Option DatagramBufferPool) (minCapacity : ℕ) :
    (takeVecFrom pool minCapacity).1.bytes = [] ∧
      minCapacity ≤ (takeVecFrom pool minCapacity).1.capacity := by
  cases pool with
  | none => exact ⟨rfl, Nat.le_refl _⟩
  | some pool =>
      rw [takeVecFrom]
      rcases pool.takeVec_cases minCapacity with ⟨buffer, rest, htaken, -, hleast, -⟩ | ⟨htaken, -⟩
      · rw [htaken]
        exact ⟨rfl, hleast⟩
      · rw [htaken]
        exact ⟨rfl, Nat.le_refl _⟩

/-! ## Writing a datagram -/

/-- `header.encode(&mut datagram[..HEADER_LEN])`. -/
def ByteVec.writeHeader (vec : ByteVec) (header : DatagramFecHeader) :
    Except DatagramFecError ByteVec :=
  (header.encode (vec.bytes.take headerLen)).map fun encoded =>
    { vec with bytes := encoded ++ vec.bytes.drop headerLen }

/-- The loop over the packets of one block, on the buffers that the datagrams are written into. -/
def DatagramFecEncoder.encodePacketsInto (X : Crates) (blockId transferLength : UInt32)
    (sourceSymbols symbolSize : UInt16) :
    List EncodingPacket → UInt32 → Option DatagramBufferPool →
      Except DatagramFecError (List ByteVec) × UInt32 × Option DatagramBufferPool
  | [], sequence, pool => (.ok [], sequence, pool)
  | packet :: packets, sequence, pool =>
      let serialized := X.serialize packet
      match DatagramFecHeader.raptorq X blockId transferLength sequence sourceSymbols symbolSize
        serialized with
      | .error error => (.error error, sequence, pool)
      | .ok header =>
          let taken := takeVecFrom pool (headerLen + serialized.length)
          match (taken.1.clear.resize headerLen).writeHeader header with
          | .error error => (.error error, sequence, taken.2)
          | .ok datagram =>
              let rest := encodePacketsInto X blockId transferLength sourceSymbols symbolSize
                packets (sequence + 1) taken.2
              (rest.1.map (datagram.extendFromSlice serialized :: ·), rest.2)

/-- The datagrams, each in a buffer that is taken for its length, and the pool that is left. -/
def storeAll : List Bytes → Option DatagramBufferPool → List ByteVec × Option DatagramBufferPool
  | [], pool => ([], pool)
  | datagram :: datagrams, pool =>
      let taken := takeVecFrom pool datagram.length
      let rest := storeAll datagrams taken.2
      ({ taken.1 with bytes := datagram } :: rest.1, rest.2)

/-- The second part is stored in what the first part leaves. -/
lemma storeAll_append_snd (front back : List Bytes) (pool : Option DatagramBufferPool) :
    (storeAll (front ++ back) pool).2 = (storeAll back (storeAll front pool).2).2 := by
  induction front generalizing pool with
  | nil => rfl
  | cons datagram front ih =>
      rw [List.cons_append, storeAll, storeAll]
      exact ih _

/-! ### One packet -/

section Packet

variable {X : Crates} {blockId transferLength sequence : UInt32} {sourceSymbols symbolSize : UInt16}
  {header : DatagramFecHeader}

/-- The header and the payload fit the buffer that is taken for them, so the datagram has the
memory of this buffer. -/
lemma writeHeader_extendFromSlice {vec : ByteVec} (hvalid : header.Valid) {serialized : Bytes}
    (hcapacity : headerLen + serialized.length ≤ vec.capacity) :
    ∃ written, (vec.clear.resize headerLen).writeHeader header = .ok written ∧
      written.extendFromSlice serialized
        = { vec with bytes := header.headerBytes ++ serialized } := by
  have hresize : vec.clear.resize headerLen = { vec with bytes := resize [] headerLen } := by
    refine ByteVec.store_of_le ?_
    rw [ByteVec.bytes_clear, ByteVec.capacity_clear]
    exact Nat.le_trans (Nat.le_add_right headerLen serialized.length) hcapacity
  refine ⟨{ vec with bytes := header.headerBytes }, ?_, ?_⟩
  · have hwhole : (resize [] headerLen).take headerLen = resize [] headerLen := rfl
    have hrest : (resize [] headerLen).drop headerLen = [] := rfl
    rw [hresize, ByteVec.writeHeader]
    simp only [hwhole, hrest, encode_zeros hvalid, Except.map, List.append_nil]
  · refine ByteVec.store_of_le ?_
    rw [List.length_append, DatagramFecHeader.length_headerBytes]
    exact hcapacity

variable {packet : EncodingPacket} (packets : List EncodingPacket)
  (pool : Option DatagramBufferPool)

/-- A packet that gets a header is written behind it, into the buffer that is taken. -/
lemma encodePacketsInto_cons_ok (h : DatagramFecHeader.raptorq X blockId transferLength sequence
    sourceSymbols symbolSize (X.serialize packet) = .ok header) :
    DatagramFecEncoder.encodePacketsInto X blockId transferLength sourceSymbols symbolSize
        (packet :: packets) sequence pool
      = (let datagram := header.headerBytes ++ X.serialize packet
        let taken := takeVecFrom pool datagram.length
        let rest := DatagramFecEncoder.encodePacketsInto X blockId transferLength sourceSymbols
          symbolSize packets (sequence + 1) taken.2
        (rest.1.map ({ taken.1 with bytes := datagram } :: ·), rest.2)) := by
  have hlength : (header.headerBytes ++ X.serialize packet).length
      = headerLen + (X.serialize packet).length := List.length_append
  obtain ⟨written, hwritten, hextend⟩ := writeHeader_extendFromSlice
    (DatagramFecHeader.valid_of_raptorq h)
    (takeVecFrom_fst pool (headerLen + (X.serialize packet).length)).2
  rw [DatagramFecEncoder.encodePacketsInto]
  simp only [h, hlength, hwritten, hextend]

end Packet

/-! ### All packets of a block -/

/-- The result and the encoder, or the counter, without the pool. -/
def withoutPool {α σ : Type} (result : α × σ × Option DatagramBufferPool) : α × σ :=
  (result.1, result.2.1)

section Packets

variable (X : Crates) (blockId transferLength : UInt32) (sourceSymbols symbolSize : UInt16)

/-- **The loop on the buffers** emits the datagrams of `encodePackets`, each in the buffer that is
taken for it, and leaves the same pool. -/
theorem encodePacketsInto_eq (packets : List EncodingPacket) (sequence : UInt32)
    (pool : Option DatagramBufferPool) :
    let encoded := DatagramFecEncoder.encodePackets X blockId transferLength sourceSymbols
      symbolSize packets sequence pool
    DatagramFecEncoder.encodePacketsInto X blockId transferLength sourceSymbols symbolSize packets
        sequence pool
      = (encoded.1.map fun datagrams => (storeAll datagrams pool).1, encoded.2) := by
  intro encoded
  induction packets generalizing sequence pool with
  | nil => rfl
  | cons packet packets ih =>
      cases hheader : DatagramFecHeader.raptorq X blockId transferLength sequence sourceSymbols
          symbolSize (X.serialize packet) with
      | error error =>
          simp only [encoded, DatagramFecEncoder.encodePackets,
            DatagramFecEncoder.encodePacketsInto, hheader, Except.map]
      | ok header =>
          simp only [encoded, encodePackets_cons_ok packets pool hheader,
            encodePacketsInto_cons_ok packets pool hheader, takeBuffer_snd, ih]
          cases (DatagramFecEncoder.encodePackets X blockId transferLength sourceSymbols symbolSize
            packets (sequence + 1) _).1 <;> rfl

/-- The loop leaves what its datagrams leave. -/
lemma encodePackets_storeAll {packets : List EncodingPacket} {sequence sequence' : UInt32}
    {pool pool' : Option DatagramBufferPool} {datagrams : List Bytes}
    (h : DatagramFecEncoder.encodePackets X blockId transferLength sourceSymbols symbolSize packets
      sequence pool = (.ok datagrams, sequence', pool')) :
    pool' = (storeAll datagrams pool).2 := by
  induction packets generalizing sequence pool datagrams with
  | nil =>
      cases h
      rfl
  | cons packet packets ih =>
      cases hheader : DatagramFecHeader.raptorq X blockId transferLength sequence sourceSymbols
          symbolSize (X.serialize packet) with
      | error error =>
          rw [DatagramFecEncoder.encodePackets] at h
          simp only [hheader] at h
          cases h
      | ok header =>
          rw [encodePackets_cons_ok packets pool hheader] at h
          obtain ⟨hmap, hrest⟩ := Prod.mk.inj h
          obtain ⟨rest, hrest', rfl⟩ := map_eq_ok_iff.mp hmap
          rw [takeBuffer_snd] at hrest hrest'
          rw [storeAll]
          exact ih (Prod.ext hrest' hrest)

/-- The loop does not look at the pool. -/
lemma encodePackets_same (packets : List EncodingPacket) (sequence : UInt32)
    (pool pool' : Option DatagramBufferPool) :
    withoutPool (DatagramFecEncoder.encodePackets X blockId transferLength sourceSymbols symbolSize
        packets sequence pool)
      = withoutPool (DatagramFecEncoder.encodePackets X blockId transferLength sourceSymbols
        symbolSize packets sequence pool') := by
  induction packets generalizing sequence pool pool' with
  | nil => rfl
  | cons packet packets ih =>
      cases hheader : DatagramFecHeader.raptorq X blockId transferLength sequence sourceSymbols
          symbolSize (X.serialize packet) with
      | error error => simp only [withoutPool, DatagramFecEncoder.encodePackets, hheader]
      | ok header =>
          obtain ⟨hresult, hsequence⟩ := Prod.mk.inj (ih (sequence + 1)
            (takeBuffer pool (header.headerBytes ++ X.serialize packet).length).2
            (takeBuffer pool' (header.headerBytes ++ X.serialize packet).length).2)
          simp only [withoutPool, encodePackets_cons_ok packets _ hheader, hresult, hsequence]

end Packets

/-! ## What the buffers hold -/

/-- The datagrams of a call in their buffers, and the pool that the call leaves. -/
structure HeldBy (pool : DatagramBufferPool) (datagrams : List Bytes) (vecs : List ByteVec)
    (left : DatagramBufferPool) : Prop where
  /-- There is one buffer for each datagram, in their order. -/
  bytes : vecs.map ByteVec.bytes = datagrams
  /-- Each buffer of the pool is the memory of one datagram, or it is still in the pool. -/
  conserved : pool.buffers.Perm (vecs.filterMap ByteVec.origin ++ left.buffers)
  /-- The memory of a datagram is the whole of the buffer, and the datagram fits it. -/
  memory : ∀ vec ∈ vecs, vec.bytes.length ≤ vec.capacity ∧
    ∀ buffer, vec.origin = some buffer → vec.capacity = buffer.capacity

/-- **No buffer is lost**: those that are taken for some datagrams hold them. -/
theorem heldBy_storeAll (datagrams : List Bytes) (pool : DatagramBufferPool) :
    ∃ left, (storeAll datagrams (some pool)).2 = some left ∧
      HeldBy pool datagrams (storeAll datagrams (some pool)).1 left := by
  induction datagrams generalizing pool with
  | nil => exact ⟨pool, rfl, rfl, List.Perm.refl _, by simp [storeAll]⟩
  | cons datagram datagrams ih =>
      rw [storeAll, takeVecFrom]
      rcases pool.takeVec_cases datagram.length with ⟨buffer, rest, htaken, hperm, hleast, -⟩ |
        ⟨htaken, -⟩
      · obtain ⟨left, hleft, hheld⟩ := ih ⟨rest⟩
        rw [htaken]
        refine ⟨left, hleft, congrArg (datagram :: ·) hheld.bytes, ?_, ?_⟩
        · -- the buffer goes with the first datagram, the others as they did from the rest
          exact hperm.trans (hheld.conserved.cons buffer)
        · rw [List.forall_mem_cons]
          exact ⟨⟨hleast, fun _ h => congrArg PoolBuffer.capacity (Option.some.inj h)⟩,
            hheld.memory⟩
      · obtain ⟨left, hleft, hheld⟩ := ih pool
        rw [htaken]
        refine ⟨left, hleft, congrArg (datagram :: ·) hheld.bytes, hheld.conserved, ?_⟩
        rw [List.forall_mem_cons]
        exact ⟨⟨Nat.le_refl _, fun _ h => by cases h⟩, hheld.memory⟩

/-! ## Whole calls -/

/-- Two calls with the same result that leave the encoder in the same state. -/
def SameCall {α σ : Type} (call call' : Option (α × σ × Option DatagramBufferPool)) : Prop :=
  call.map withoutPool = call'.map withoutPool

/-- Either both calls panic, or they differ in the pool at most. -/
lemma SameCall.cases {α σ : Type} {call call' : Option (α × σ × Option DatagramBufferPool)}
    (h : SameCall call call') :
    (call = none ∧ call' = none) ∨ ∃ result encoder left left',
      call = some (result, encoder, left) ∧ call' = some (result, encoder, left') := by
  cases call with
  | none => exact Or.inl ⟨rfl, Option.map_eq_none_iff.mp h.symm⟩
  | some first =>
      obtain ⟨result, encoder, left⟩ := first
      obtain ⟨⟨result', encoder', left'⟩, hcall', heq⟩ := Option.map_eq_some_iff.mp h.symm
      obtain ⟨rfl, rfl⟩ := Prod.mk.inj heq
      exact Or.inr ⟨_, _, left, left', rfl, hcall'⟩

/-- The results may be rewritten alike. -/
lemma SameCall.map_fst {α β σ : Type} {call call' : Option (α × σ × Option DatagramBufferPool)}
    (h : SameCall call call') (f : α → β) :
    SameCall (call.map fun result => (f result.1, result.2))
      (call'.map fun result => (f result.1, result.2)) := by
  rcases h.cases with ⟨rfl, rfl⟩ | ⟨result, encoder, left, left', rfl, rfl⟩ <;> rfl

namespace DatagramFecEncoder

variable (X : Crates) (self : DatagramFecEncoder) (data : Bytes) (repairSymbols : UInt32)
  (pool pool' : Option DatagramBufferPool)

lemma sameCall_encodeOneBlock :
    SameCall (self.encodeOneBlockWithOptionalPool X data repairSymbols pool)
      (self.encodeOneBlockWithOptionalPool X data repairSymbols pool') := by
  rw [SameCall, encodeOneBlockWithOptionalPool, encodeOneBlockWithOptionalPool, Option.map_map,
    Option.map_map]
  congr 1
  funext packets
  obtain ⟨hresult, hsequence⟩ := Prod.mk.inj (encodePackets_same X self.blockId
    (UInt32.ofNat data.length)
    (sourceSymbolCount data.length
      (exactOneBlockOti (UInt64.ofNat data.length) self.config.symbolSize).symbolSize)
    (exactOneBlockOti (UInt64.ofNat data.length) self.config.symbolSize).symbolSize packets
    self.packetSequence pool pool')
  simp only [Function.comp_apply, withoutPool, hresult, hsequence]
  split <;> rfl

lemma sameCall_encodeBlockWithRepairSymbols :
    SameCall (self.encodeBlockWithRepairSymbols X data repairSymbols pool)
      (self.encodeBlockWithRepairSymbols X data repairSymbols pool') := by
  rw [encodeBlockWithRepairSymbols, encodeBlockWithRepairSymbols]
  split_ifs
  · rfl
  · rfl
  · exact self.sameCall_encodeOneBlock X data repairSymbols pool pool'

lemma sameCall_encodeChunks (chunks : List Bytes) :
    SameCall (encodeChunks X chunks self pool) (encodeChunks X chunks self pool') := by
  induction chunks generalizing self pool pool' with
  | nil => rfl
  | cons chunk chunks ih =>
      rcases (self.sameCall_encodeOneBlock X chunk self.config.repairSymbols pool pool').cases with
        ⟨hcall, hcall'⟩ | ⟨result, encoder, left, left', hcall, hcall'⟩
      · rw [encodeChunks, encodeChunks, hcall, hcall']
        rfl
      · cases result with
        | error error =>
            rw [encodeChunks, encodeChunks, hcall, hcall']
            rfl
        | ok datagrams =>
            rw [encodeChunks_cons X chunks hcall, encodeChunks_cons X chunks hcall']
            exact (ih encoder left left').map_fst _

lemma sameCall_encodePayload :
    SameCall (self.encodePayload X data pool) (self.encodePayload X data pool') := by
  rw [encodePayload, encodePayload]
  split_ifs
  · rfl
  · exact self.sameCall_encodeChunks X pool pool' _
  · exact self.sameCall_encodeChunks X pool pool' _

variable {X self data repairSymbols pool pool'} {datagrams : List Bytes}
  {encoder : DatagramFecEncoder}

lemma encodeOneBlock_storeAll (h : self.encodeOneBlockWithOptionalPool X data repairSymbols pool
    = some (.ok datagrams, encoder, pool')) : pool' = (storeAll datagrams pool).2 := by
  obtain ⟨packets, hpackets⟩ := encodeOneBlock_eq_ok h
  exact encodePackets_storeAll _ _ _ _ _ hpackets

lemma encodeBlockWithRepairSymbols_storeAll
    (h : self.encodeBlockWithRepairSymbols X data repairSymbols pool
      = some (.ok datagrams, encoder, pool')) : pool' = (storeAll datagrams pool).2 :=
  encodeOneBlock_storeAll (encodeBlockWithRepairSymbols_eq_ok h)

lemma encodeChunks_storeAll {chunks : List Bytes}
    (h : encodeChunks X chunks self pool = some (.ok datagrams, encoder, pool')) :
    pool' = (storeAll datagrams pool).2 := by
  induction chunks generalizing self pool datagrams with
  | nil =>
      cases h
      rfl
  | cons chunk chunks ih =>
      obtain ⟨front, next, left, back, hfirst, hrest, rfl⟩ := encodeChunks_cons_eq_ok h
      rw [storeAll_append_snd, ← encodeOneBlock_storeAll hfirst]
      exact ih hrest

lemma encodePayload_storeAll
    (h : self.encodePayload X data pool = some (.ok datagrams, encoder, pool')) :
    pool' = (storeAll datagrams pool).2 := by
  obtain ⟨chunks, hchunks⟩ := encodePayload_eq_ok h
  exact encodeChunks_storeAll hchunks

end DatagramFecEncoder

/-! ## Calls that fail -/

section Refused

variable {X : Crates} {code : X.Systematic} {encodedPackets : Bytes →
  ObjectTransmissionInformation → UInt32 → Option (List EncodingPacket)}
  {self encoder : DatagramFecEncoder} {data : Bytes} {repairSymbols : UInt32}
  {pool pool' : Option DatagramBufferPool} {error : DatagramFecError}

/-- A geometry that is refused is refused at the first packet. -/
lemma encodePackets_refused (X : Crates) {blockId transferLength sequence : UInt32}
    {sourceSymbols symbolSize : UInt16}
    (hgeometry : ¬ OneBlockGeometry transferLength sourceSymbols symbolSize)
    (packets : List EncodingPacket) :
    (DatagramFecEncoder.encodePackets X blockId transferLength sourceSymbols symbolSize packets
      sequence pool).2.2 = pool := by
  cases packets with
  | nil => rfl
  | cons packet packets =>
      have hrefused : ∃ error, DatagramFecHeader.raptorq X blockId transferLength sequence
          sourceSymbols symbolSize (X.serialize packet) = .error error :=
        DatagramFecHeader.raptorq_error hgeometry
      obtain ⟨error, herror⟩ := hrefused
      simp only [DatagramFecEncoder.encodePackets, herror]

/-- An empty block takes no buffer. -/
lemma encodeOneBlock_empty {X : Crates} {result : Except DatagramFecError (List Bytes)}
    (h : self.encodeOneBlockWithOptionalPool X [] repairSymbols pool
      = some (result, encoder, pool')) : pool' = pool := by
  have hgeometry : ∀ sourceSymbols symbolSize,
      ¬ OneBlockGeometry (UInt32.ofNat 0) sourceSymbols symbolSize := by
    intro sourceSymbols symbolSize hgeometry
    exact absurd hgeometry.transferLength_pos (by decide)
  rw [DatagramFecEncoder.encodeOneBlockWithOptionalPool] at h
  obtain ⟨packets, -, hresult⟩ := Option.map_eq_some_iff.mp h
  simp only at hresult
  split at hresult <;> cases hresult <;> exact encodePackets_refused X (hgeometry _ _) packets

/-- A block that fails took no buffer. -/
lemma encodeOneBlock_kept (hencodes : code.Encodes encodedPackets) (hlength : data.length ≤ u32Max)
    (h : self.encodeOneBlockWithOptionalPool (X.withEncodedPackets encodedPackets) data
      repairSymbols pool = some (.error error, encoder, pool')) : pool' = pool := by
  by_cases hdata : data = []
  · subst hdata
    exact encodeOneBlock_empty h
  by_cases one : OneBlock data (max self.config.symbolSize 1)
  · obtain ⟨-, _, hresult⟩ := encodeOneBlockWithOptionalPool_within hencodes one h
    cases hresult
  · obtain ⟨_, hresult⟩ :=
      encodeOneBlockWithOptionalPool_beyond hencodes hdata hlength one h
    cases hresult
    rfl

lemma encodeBlockWithRepairSymbols_kept (hencodes : code.Encodes encodedPackets)
    (h : self.encodeBlockWithRepairSymbols (X.withEncodedPackets encodedPackets) data repairSymbols
      pool = some (.error error, encoder, pool')) : pool' = pool := by
  rw [DatagramFecEncoder.encodeBlockWithRepairSymbols] at h
  split_ifs at h with hlong
  · cases h
    rfl
  · cases h
    rfl
  · exact encodeOneBlock_kept hencodes (Nat.le_of_not_lt hlong) h

lemma encodePayload_kept (hencodes : code.Encodes encodedPackets)
    (h : self.encodePayload (X.withEncodedPackets encodedPackets) data pool
      = some (.error error, encoder, pool')) : pool' = pool := by
  have hsize := self.config.maxPayloadLen_pos
  rw [DatagramFecEncoder.encodePayload, Nat.max_eq_left hsize] at h
  split_ifs at h with hlong hempty
  · cases h
    rfl
  · -- an empty payload is one empty block
    obtain rfl := List.isEmpty_iff.mp hempty
    have hchunks : chunks self.config.maxPayloadLen [] ++ [[]] = [[]] := by simp [chunks]
    simp only [hchunks, DatagramFecEncoder.encodeChunks] at h
    obtain ⟨first, hfirst, hcont⟩ := Option.bind_eq_some_iff.mp h
    obtain ⟨result, next, left⟩ := first
    obtain rfl := encodeOneBlock_empty hfirst
    cases result with
    | error error =>
        cases hcont
        rfl
    | ok datagrams => cases hcont
  · have hdata : data ≠ [] := fun h => hempty (List.isEmpty_iff.mpr h)
    rcases encodeChunks_cases hencodes hdata hsize (Nat.le_of_not_lt hlong) h with
      ⟨error', hresult⟩ | hone
    · cases hresult
      rfl
    · obtain ⟨blocks, -, _, hresult⟩ := encodeChunks_ok hencodes hone h
      cases hresult

end Refused

end RaptorFec
