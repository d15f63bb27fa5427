import RaptorFec.Datagram.Payload

/-!
# The encoding functions

`DatagramFecEncoder` is called through five functions and the `_reusing` forms of some of them.

* `EncoderCall`, `EncoderCall.run` — the functions as one;
* `framed_run` — whatever the crates do, a datagram that a call returns is a header that `raptorq`
  made for the payload behind it;
* `EncoderPrecondition`, `WithinLimits` — the blocks and repair counts that the `raptorq` encoder is
  made for, as the transmission information says them and as the object does;
* `Crates.guarded` — the crates with this precondition checked at every call of the encoder;
* `guards_run_iff` — the calls that pass these checks, and change nothing when they fail: no call
  checks the limits before it constructs the encoder.
-/

namespace RaptorFec

namespace DatagramFecEncoder

variable (X : Crates) (self : DatagramFecEncoder)

/-- `encode_block`, and its `_reusing` form when there is a pool. -/
def encodeBlock (data : Bytes) (pool : Option DatagramBufferPool) : Option EncodeResult :=
  self.encodeBlockWithRepairSymbols X data self.config.repairSymbols pool

/-- `encode_object_with_repair_symbols`. -/
def encodeObjectWithRepairSymbols (data : Bytes) (repairSymbols : UInt32) : Option EncodeResult :=
  if u32Max < data.length then some (.error (.payloadTooLong data.length), self, none)
  else self.encodeOneBlockWithOptionalPool X data repairSymbols none

/-- `encode_object`. -/
def encodeObject (data : Bytes) : Option EncodeResult :=
  self.encodeObjectWithRepairSymbols X data self.config.repairSymbols

end DatagramFecEncoder

/-- The encoding functions. -/
inductive EncoderCall where
  | encodeBlock
  | encodeBlockWithRepairSymbols (repairSymbols : UInt32)
  | encodeObject
  | encodeObjectWithRepairSymbols (repairSymbols : UInt32)
  | encodePayload
  deriving DecidableEq, Repr

/-- The call of an encoding function; with a pool, of its `_reusing` form where it has one. -/
def EncoderCall.run (X : Crates) (self : DatagramFecEncoder) (data : Bytes)
    (pool : Option DatagramBufferPool) : EncoderCall → Option EncodeResult
  | .encodeBlock => self.encodeBlock X data pool
  | .encodeBlockWithRepairSymbols repairSymbols =>
      self.encodeBlockWithRepairSymbols X data repairSymbols pool
  | .encodeObject => self.encodeObject X data
  | .encodeObjectWithRepairSymbols repairSymbols =>
      self.encodeObjectWithRepairSymbols X data repairSymbols
  | .encodePayload => self.encodePayload X data pool

/-! ## The datagrams of a call -/

/-- A header that `raptorq` made, and the payload it was made for. -/
def Framed (X : Crates) (datagram : Bytes) : Prop :=
  ∃ (blockId transferLength packetSequence : UInt32) (sourceSymbols symbolSize : UInt16)
    (payload : Bytes) (header : DatagramFecHeader),
    DatagramFecHeader.raptorq X blockId transferLength packetSequence sourceSymbols symbolSize
      payload = .ok header ∧ datagram = header.headerBytes ++ payload

section Framed

variable {X : Crates} {self encoder : DatagramFecEncoder} {data : Bytes}
  {pool pool' : Option DatagramBufferPool} {datagrams : List Bytes} {repairSymbols : UInt32}

lemma framed_encodePackets {blockId transferLength : UInt32} {sourceSymbols symbolSize : UInt16}
    {packets : List EncodingPacket} {sequence : UInt32}
    (h : (DatagramFecEncoder.encodePackets X blockId transferLength sourceSymbols symbolSize packets
      sequence pool).1 = .ok datagrams) : ∀ datagram ∈ datagrams, Framed X datagram := by
  induction packets generalizing sequence pool datagrams with
  | nil =>
      cases Except.ok.inj h
      simp
  | cons packet packets ih =>
      cases hheader : DatagramFecHeader.raptorq X blockId transferLength sequence sourceSymbols
          symbolSize (X.serialize packet) with
      | error error =>
          rw [DatagramFecEncoder.encodePackets] at h
          simp only [hheader] at h
          cases h
      | ok header =>
          rw [encodePackets_cons_ok packets pool hheader] at h
          obtain ⟨rest, hrest, rfl⟩ := map_eq_ok_iff.mp h
          rw [List.forall_mem_cons]
          exact ⟨⟨_, _, _, _, _, _, header, hheader, rfl⟩, ih hrest⟩

lemma framed_encodeOneBlockWithOptionalPool
    (h : self.encodeOneBlockWithOptionalPool X data repairSymbols pool
      = some (.ok datagrams, encoder, pool')) : ∀ datagram ∈ datagrams, Framed X datagram := by
  obtain ⟨packets, hpackets⟩ := encodeOneBlock_eq_ok h
  exact framed_encodePackets (congrArg Prod.fst hpackets)

lemma framed_encodeChunks {chunks : List Bytes}
    (h : DatagramFecEncoder.encodeChunks X chunks self pool = some (.ok datagrams, encoder, pool')) :
    ∀ datagram ∈ datagrams, Framed X datagram := by
  induction chunks generalizing self pool datagrams encoder pool' with
  | nil =>
      cases h
      simp
  | cons chunk chunks ih =>
      obtain ⟨front, next, left, back, hfirst, hrest, rfl⟩ := encodeChunks_cons_eq_ok h
      rw [List.forall_mem_append]
      exact ⟨framed_encodeOneBlockWithOptionalPool hfirst, ih hrest⟩

lemma framed_encodeBlockWithRepairSymbols
    (h : self.encodeBlockWithRepairSymbols X data repairSymbols pool
      = some (.ok datagrams, encoder, pool')) : ∀ datagram ∈ datagrams, Framed X datagram :=
  framed_encodeOneBlockWithOptionalPool (encodeBlockWithRepairSymbols_eq_ok h)

lemma framed_encodeObjectWithRepairSymbols
    (h : self.encodeObjectWithRepairSymbols X data repairSymbols
      = some (.ok datagrams, encoder, pool')) : ∀ datagram ∈ datagrams, Framed X datagram := by
  rw [DatagramFecEncoder.encodeObjectWithRepairSymbols] at h
  split_ifs at h
  · cases h
  · exact framed_encodeOneBlockWithOptionalPool h

/-- **What a call returns** are headers that `raptorq` made for the payloads behind them. -/
theorem framed_run {call : EncoderCall}
    (h : call.run X self data pool = some (.ok datagrams, encoder, pool')) :
    ∀ datagram ∈ datagrams, Framed X datagram := by
  cases call with
  | encodeBlock => exact framed_encodeBlockWithRepairSymbols h
  | encodeBlockWithRepairSymbols repairSymbols => exact framed_encodeBlockWithRepairSymbols h
  | encodeObject => exact framed_encodeObjectWithRepairSymbols h
  | encodeObjectWithRepairSymbols repairSymbols => exact framed_encodeObjectWithRepairSymbols h
  | encodePayload =>
      obtain ⟨chunks, hchunks⟩ := encodePayload_eq_ok h
      exact framed_encodeChunks hchunks

end Framed

/-! ## The limits of one block -/

/-- What the `raptorq` encoder is made for: a block of 1 to 56403 source symbols, and symbol ids of
24 bits. -/
structure WithinLimits (object : Bytes) (symbolSize : UInt16) (repairSymbols : UInt32) : Prop where
  one : OneBlock object symbolSize
  ids_le : symbolsFor object.length symbolSize + repairSymbols.toNat ≤ esiLimit

/-- The precondition of `Encoder::new(data, oti)` and `get_encoded_packets(repair)`: one source
block of 1 to 56403 symbols, which is the data, and symbol ids of 24 bits. -/
def EncoderPrecondition (object : Bytes) (oti : ObjectTransmissionInformation)
    (repair : UInt32) : Prop :=
  oti.sourceBlocks = 1 ∧ oti.transferLength.toNat = object.length ∧ 0 < oti.symbolSize.toNat ∧
    1 ≤ symbolsFor oti.transferLength.toNat oti.symbolSize ∧
    symbolsFor oti.transferLength.toNat oti.symbolSize ≤ maxBlockSymbols ∧
    symbolsFor oti.transferLength.toNat oti.symbolSize + repair.toNat ≤ esiLimit

instance (object : Bytes) (oti : ObjectTransmissionInformation) (repair : UInt32) :
    Decidable (EncoderPrecondition object oti repair) :=
  inferInstanceAs (Decidable (_ ∧ _))

/-- The crates with a check in front of the encoder: `none` also when a call breaks the
precondition, whatever the crate does then. -/
def Crates.guarded (X : Crates) : Crates :=
  X.withEncodedPackets fun object oti repair =>
    if EncoderPrecondition object oti repair then X.encodedPackets object oti repair else none

/-- The transmission information of an object says its limits. -/
lemma encoderPrecondition_iff {object : Bytes} {symbolSize : UInt16} {repair : UInt32} :
    EncoderPrecondition object (oneBlockOti object symbolSize) repair
      ↔ WithinLimits object symbolSize repair := by
  constructor
  · rintro ⟨-, hlen, hsize, hpos, hle, hids⟩
    rw [hlen] at hpos hle hids
    refine ⟨⟨?_, hsize, hle⟩, hids⟩
    rintro rfl
    have hzero : symbolsFor 0 symbolSize = 0 := zero_ceilDiv _
    exact absurd hpos (Nat.not_le.mpr (Nat.lt_one_iff.mpr hzero))
  · rintro ⟨⟨hobject, hsize, hle⟩, hids⟩
    have hlong : object.length ≤ symbolSize.toNat * maxBlockSymbols :=
      (ceilDiv_le_iff_le_mul hsize).mp hle
    have hlen : (UInt64.ofNat object.length).toNat = object.length := by
      refine UInt64.toNat_ofNat_of_lt' ?_
      have hsize' := symbolSize.toNat_lt
      have hmax : maxBlockSymbols = 56403 := rfl
      rw [hmax] at hlong
      simp only [UInt64.size]
      omega
    have hpos : 1 ≤ symbolsFor object.length symbolSize :=
      symbolsFor_pos (List.length_pos_of_ne_nil hobject) hsize
    refine ⟨rfl, hlen, hsize, ?_⟩
    change 1 ≤ symbolsFor (UInt64.ofNat object.length).toNat symbolSize ∧ _
    rw [oneBlockOti, hlen]
    exact ⟨hpos, hle, hids⟩

/-- The code keeps its packets behind the check: within the limits the check passes. -/
def Crates.Systematic.guarded {X : Crates} (code : X.Systematic) : X.guarded.Systematic where
  symbol := code.symbol
  length_symbol := code.length_symbol
  symbol_source := code.symbol_source
  length_serialize := code.length_serialize
  deserialize_serialize := code.deserialize_serialize
  encodedPackets_eq object symbolSize repair one hlimit :=
    (if_pos (encoderPrecondition_iff.mpr ⟨one, hlimit⟩)).trans
      (code.encodedPackets_eq object symbolSize repair one hlimit)
  encodedPackets_none _ _ _ _ _ hno :=
    if_neg fun h => hno ⟨(encoderPrecondition_iff.mp h).one.symbols_le,
      (encoderPrecondition_iff.mp h).ids_le⟩

namespace EncoderCall

variable (self : DatagramFecEncoder) (data : Bytes)

/-- The number of repair symbols the function asks for. -/
def repairSymbols : EncoderCall → UInt32
  | .encodeBlock => self.config.repairSymbols
  | .encodeBlockWithRepairSymbols repairSymbols => repairSymbols
  | .encodeObject => self.config.repairSymbols
  | .encodeObjectWithRepairSymbols repairSymbols => repairSymbols
  | .encodePayload => self.config.repairSymbols

/-- The function refuses data of this length. -/
def TooLong : EncoderCall → Prop
  | .encodeBlock => u32Max < data.length ∨ self.config.maxPayloadLen < data.length
  | .encodeBlockWithRepairSymbols _ => u32Max < data.length ∨ self.config.maxPayloadLen < data.length
  | .encodeObject => u32Max < data.length
  | .encodeObjectWithRepairSymbols _ => u32Max < data.length
  | .encodePayload => u32Max < data.length

/-- The data of the first block the function sends. -/
def firstBlock : EncoderCall → Bytes
  | .encodeBlock => data
  | .encodeBlockWithRepairSymbols _ => data
  | .encodeObject => data
  | .encodeObjectWithRepairSymbols _ => data
  | .encodePayload => data.take self.config.maxPayloadLen

end EncoderCall

/-- The call breaks no precondition of the encoder, so that it returns what it returns without the
checks, and if that is an error it left both counters alone. -/
def EncoderCall.Guards (X : Crates) (self : DatagramFecEncoder) (data : Bytes)
    (pool : Option DatagramBufferPool) (call : EncoderCall) : Prop :=
  ∃ output encoder pool', call.run X.guarded self data pool = some (output, encoder, pool') ∧
    call.run X self data pool = some (output, encoder, pool') ∧
    ∀ error, output = .error error →
      encoder.blockId = self.blockId ∧ encoder.packetSequence = self.packetSequence

section Guarded

variable {X : Crates} (code : X.Systematic) {self : DatagramFecEncoder} {data : Bytes}
  {pool : Option DatagramBufferPool} {repairSymbols : UInt32}

/-! ### Without the checks -/

lemma encodeOneBlock_of_guarded {result : EncodeResult}
    (h : self.encodeOneBlockWithOptionalPool X.guarded data repairSymbols pool = some result) :
    self.encodeOneBlockWithOptionalPool X data repairSymbols pool = some result := by
  rw [DatagramFecEncoder.encodeOneBlockWithOptionalPool] at h ⊢
  obtain ⟨packets, hpackets, hresult⟩ := Option.map_eq_some_iff.mp h
  refine Option.map_eq_some_iff.mpr ⟨packets, ?_, ?_⟩
  · rw [Crates.guarded, Crates.withEncodedPackets] at hpackets
    simp only at hpackets
    split_ifs at hpackets
    exact hpackets
  · rw [← hresult, Crates.guarded, encodePackets_withEncodedPackets]

lemma encodeChunks_of_guarded {chunks : List Bytes} {result : EncodeResult}
    (h : DatagramFecEncoder.encodeChunks X.guarded chunks self pool = some result) :
    DatagramFecEncoder.encodeChunks X chunks self pool = some result := by
  induction chunks generalizing self pool result with
  | nil => exact h
  | cons chunk chunks ih =>
      rw [DatagramFecEncoder.encodeChunks] at h ⊢
      obtain ⟨first, hfirst, hrest⟩ := Option.bind_eq_some_iff.mp h
      rw [encodeOneBlock_of_guarded hfirst]
      refine Option.bind_eq_some_iff.mpr ⟨first, rfl, ?_⟩
      obtain ⟨output, encoder, left⟩ := first
      cases output with
      | error error => exact hrest
      | ok datagrams =>
          obtain ⟨rest, hcall, hresult⟩ := Option.bind_eq_some_iff.mp hrest
          exact Option.bind_eq_some_iff.mpr ⟨rest, ih hcall, hresult⟩

/-- **The checks change nothing** in a call that passes them. -/
lemma run_of_guarded {call : EncoderCall} {result : EncodeResult}
    (h : call.run X.guarded self data pool = some result) :
    call.run X self data pool = some result := by
  have hblock : ∀ repairSymbols, self.encodeBlockWithRepairSymbols X.guarded data repairSymbols pool
      = some result → self.encodeBlockWithRepairSymbols X data repairSymbols pool = some result := by
    intro repairSymbols h
    rw [DatagramFecEncoder.encodeBlockWithRepairSymbols] at h ⊢
    split_ifs at h ⊢
    · exact h
    · exact h
    · exact encodeOneBlock_of_guarded h
  have hobject : ∀ repairSymbols, self.encodeObjectWithRepairSymbols X.guarded data repairSymbols
      = some result → self.encodeObjectWithRepairSymbols X data repairSymbols = some result := by
    intro repairSymbols h
    rw [DatagramFecEncoder.encodeObjectWithRepairSymbols] at h ⊢
    split_ifs at h ⊢
    · exact h
    · exact encodeOneBlock_of_guarded h
  cases call with
  | encodeBlock => exact hblock _ h
  | encodeBlockWithRepairSymbols repairSymbols => exact hblock _ h
  | encodeObject => exact hobject _ h
  | encodeObjectWithRepairSymbols repairSymbols => exact hobject _ h
  | encodePayload =>
      rw [EncoderCall.run, DatagramFecEncoder.encodePayload] at h ⊢
      split_ifs at h ⊢
      · exact h
      · exact encodeChunks_of_guarded h
      · exact encodeChunks_of_guarded h

/-! ### The checks -/

include code in
/-- Within the limits a block is sent. -/
lemma encodeOneBlock_within
    (h : WithinLimits data (max self.config.symbolSize 1) repairSymbols) :
    ∃ datagrams encoder pool', self.encodeOneBlockWithOptionalPool X data repairSymbols pool
        = some (.ok datagrams, encoder, pool') ∧ encoder.config = self.config := by
  obtain ⟨pool', hcall⟩ := encodeOneBlockWithOptionalPool_of_packets code
    ⟨self.blockId, data, max self.config.symbolSize 1, h.one⟩ pool rfl rfl
    (code.encodedPackets_eq data _ repairSymbols h.one h.ids_le)
  exact ⟨_, _, pool', hcall, rfl⟩

/-- Beyond the limits a check fails. -/
lemma encodeOneBlock_beyond
    (h : ¬ WithinLimits data (max self.config.symbolSize 1) repairSymbols) :
    self.encodeOneBlockWithOptionalPool X.guarded data repairSymbols pool = none := by
  have hnone : X.guarded.encodedPackets data (exactOneBlockOti (UInt64.ofNat data.length)
      self.config.symbolSize) repairSymbols = none :=
    if_neg (mt encoderPrecondition_iff.mp h)
  rw [DatagramFecEncoder.encodeOneBlockWithOptionalPool, hnone]
  rfl

include code in
/-- Chunks that are within the limits are sent. -/
lemma encodeChunks_within {chunks : List Bytes}
    (h : ∀ chunk ∈ chunks,
      WithinLimits chunk (max self.config.symbolSize 1) self.config.repairSymbols) :
    ∃ datagrams encoder pool',
      DatagramFecEncoder.encodeChunks X chunks self pool = some (.ok datagrams, encoder, pool') := by
  induction chunks generalizing self pool with
  | nil => exact ⟨[], self, pool, rfl⟩
  | cons chunk chunks ih =>
      rw [List.forall_mem_cons] at h
      obtain ⟨front, encoder, left, hfirst, hconfig⟩ :
          ∃ front encoder left, self.encodeOneBlockWithOptionalPool X chunk
            self.config.repairSymbols pool = some (.ok front, encoder, left) ∧
            encoder.config = self.config := encodeOneBlock_within code h.1
      have hrest := h.2
      rw [← hconfig] at hrest
      obtain ⟨back, last, rest, hcall⟩ : ∃ back last rest,
          DatagramFecEncoder.encodeChunks X chunks encoder left = some (.ok back, last, rest) :=
        ih hrest
      refine ⟨front ++ back, last, rest, ?_⟩
      rw [encodeChunks_cons X chunks hfirst, hcall]
      rfl

/-- A call with the checks that returns, and fails without touching the counters. -/
def DatagramFecEncoder.Passes (self : DatagramFecEncoder) (result : Option EncodeResult) : Prop :=
  ∃ output encoder pool, result = some (output, encoder, pool) ∧
    ∀ error, output = .error error →
      encoder.blockId = self.blockId ∧ encoder.packetSequence = self.packetSequence

lemma guards_iff_passes {call : EncoderCall} :
    call.Guards X self data pool ↔ self.Passes (call.run X.guarded self data pool) := by
  constructor
  · rintro ⟨output, encoder, pool', hcall, -, hcounters⟩
    exact ⟨output, encoder, pool', hcall, hcounters⟩
  · rintro ⟨output, encoder, pool', hcall, hcounters⟩
    exact ⟨output, encoder, pool', hcall, run_of_guarded hcall, hcounters⟩

lemma passes_error (error : DatagramFecError) : self.Passes (some (.error error, self, pool)) :=
  ⟨_, self, pool, rfl, fun _ _ => ⟨rfl, rfl⟩⟩

include code

lemma passes_encodeOneBlock :
    self.Passes (self.encodeOneBlockWithOptionalPool X.guarded data repairSymbols pool)
      ↔ WithinLimits data (max self.config.symbolSize 1) repairSymbols := by
  constructor
  · rintro ⟨output, encoder, pool', hcall, -⟩
    by_contra hbeyond
    rw [encodeOneBlock_beyond hbeyond] at hcall
    cases hcall
  · intro hwithin
    obtain ⟨datagrams, encoder, pool', hcall, -⟩ := encodeOneBlock_within code.guarded hwithin
    exact ⟨.ok datagrams, encoder, pool', hcall, fun error herror => by cases herror⟩

lemma passes_encodeBlockWithRepairSymbols :
    self.Passes (self.encodeBlockWithRepairSymbols X.guarded data repairSymbols pool)
      ↔ (u32Max < data.length ∨ self.config.maxPayloadLen < data.length) ∨
        WithinLimits data (max self.config.symbolSize 1) repairSymbols := by
  rw [DatagramFecEncoder.encodeBlockWithRepairSymbols]
  split_ifs with hlong hblock
  · exact iff_of_true (passes_error _) (Or.inl (Or.inl hlong))
  · exact iff_of_true (passes_error _) (Or.inl (Or.inr hblock))
  · rw [passes_encodeOneBlock code, or_iff_right (not_or.mpr ⟨hlong, hblock⟩)]

lemma passes_encodeObjectWithRepairSymbols :
    self.Passes (self.encodeObjectWithRepairSymbols X.guarded data repairSymbols)
      ↔ u32Max < data.length ∨ WithinLimits data (max self.config.symbolSize 1) repairSymbols := by
  rw [DatagramFecEncoder.encodeObjectWithRepairSymbols]
  split_ifs with hlong
  · exact iff_of_true (passes_error _) (Or.inl hlong)
  · rw [passes_encodeOneBlock code, or_iff_right hlong]

/-- The chunks behind the first one are within the limits when the first one is. -/
lemma passes_encodePayload :
    self.Passes (self.encodePayload X.guarded data pool)
      ↔ u32Max < data.length ∨ WithinLimits (data.take self.config.maxPayloadLen)
        (max self.config.symbolSize 1) self.config.repairSymbols := by
  have hsize := self.config.maxPayloadLen_pos
  rw [DatagramFecEncoder.encodePayload, Nat.max_eq_left hsize]
  by_cases hlong : u32Max < data.length
  · rw [if_pos hlong]
    exact iff_of_true (passes_error _) (Or.inl hlong)
  rw [if_neg hlong, or_iff_right hlong]
  -- the call sends the first chunk, which is empty only when all the data is
  obtain ⟨rest, hrest, hmem⟩ : ∃ rest, (if data.isEmpty then
      chunks self.config.maxPayloadLen data ++ [data] else chunks self.config.maxPayloadLen data)
        = data.take self.config.maxPayloadLen :: rest ∧
      ∀ chunk ∈ rest, chunk ≠ [] ∧
        chunk.length ≤ (data.take self.config.maxPayloadLen).length := by
    cases data with
    | nil => exact ⟨[], by simp [chunks], by simp⟩
    | cons byte bytes =>
        obtain ⟨rest, hrest⟩ := chunks_eq_cons (List.cons_ne_nil byte bytes) hsize
        exact ⟨rest, hrest, fun chunk hchunk =>
          mem_chunks hsize (hrest ▸ List.mem_cons_of_mem _ hchunk)⟩
  simp only [hrest]
  constructor
  · rintro ⟨output, encoder, pool', hcall, -⟩
    by_contra hbeyond
    rw [DatagramFecEncoder.encodeChunks, encodeOneBlock_beyond hbeyond] at hcall
    cases hcall
  · intro hwithin
    have hall : ∀ chunk ∈ data.take self.config.maxPayloadLen :: rest,
        WithinLimits chunk (max self.config.symbolSize 1) self.config.repairSymbols := by
      rw [List.forall_mem_cons]
      refine ⟨hwithin, fun chunk hchunk => ?_⟩
      obtain ⟨hne, hle⟩ := hmem chunk hchunk
      have hsymbols := symbolsFor_mono hwithin.one.symbolSize_pos hle
      exact ⟨⟨hne, hwithin.one.symbolSize_pos, Nat.le_trans hsymbols hwithin.one.symbols_le⟩,
        Nat.le_trans (Nat.add_le_add_right hsymbols _) hwithin.ids_le⟩
    obtain ⟨datagrams, encoder, pool', hcall⟩ := encodeChunks_within code.guarded hall
    exact ⟨.ok datagrams, encoder, pool', hcall, fun error herror => by cases herror⟩

/-- **The calls that stay within the limits of one block**, and change nothing otherwise, are those
that refuse the length of the data and those whose first block is within the limits. -/
theorem guards_run_iff (call : EncoderCall) :
    call.Guards X self data pool
      ↔ call.TooLong self data ∨ WithinLimits (call.firstBlock self data)
        (max self.config.symbolSize 1) (call.repairSymbols self) := by
  rw [guards_iff_passes]
  cases call with
  | encodeBlock => exact passes_encodeBlockWithRepairSymbols code
  | encodeBlockWithRepairSymbols _ => exact passes_encodeBlockWithRepairSymbols code
  | encodeObject => exact passes_encodeObjectWithRepairSymbols code
  | encodeObjectWithRepairSymbols _ => exact passes_encodeObjectWithRepairSymbols code
  | encodePayload => exact passes_encodePayload code

end Guarded

/-- An encoder is constructed for an empty block and for a block of 56404 symbols, and asked for
more repair symbols than there are ids. -/
theorem not_guards_beyond :
    ¬ EncoderCall.encodeBlock.Guards repetition .new [] none ∧
      ¬ (EncoderCall.encodeBlockWithRepairSymbols 16777216).Guards repetition .new [0] none ∧
      ¬ EncoderCall.encodeObject.Guards repetition (DatagramFecEncoder.new.setSymbolSize 1)
        (List.replicate 56404 0) none := by
  refine ⟨?_, ?_, ?_⟩
  · rintro ⟨output, encoder, pool, hcall, -⟩
    cases hcall
  · rintro ⟨output, encoder, pool, hcall, -⟩
    have hnone : (EncoderCall.encodeBlockWithRepairSymbols 16777216).run repetition.guarded .new [0]
        none = none := by
      decide +kernel
    cases hnone.symm.trans hcall
  · intro hguards
    have hpasses := guards_iff_passes.mp hguards
    rw [EncoderCall.run, DatagramFecEncoder.encodeObject,
      passes_encodeObjectWithRepairSymbols repetitionIdeal.toSystematic,
      List.length_replicate] at hpasses
    rcases hpasses with hlong | hwithin
    · exact absurd hlong (by decide)
    · have hle := hwithin.one.symbols_le
      rw [List.length_replicate] at hle
      exact absurd hle (by decide)

/-- Three bytes in blocks of two, and no bytes. -/
theorem guards_run_iff_three :
    EncoderCall.encodePayload.Guards repetition ⟨4294967295, 7, ⟨1, 1, 2⟩⟩ [1, 2, 3] none ∧
      ¬ EncoderCall.encodePayload.Guards repetition ⟨4294967295, 7, ⟨1, 1, 2⟩⟩ [] none := by
  constructor
  · rw [guards_run_iff repetitionIdeal.toSystematic]
    exact Or.inr ⟨⟨by decide, by decide, by decide⟩, by decide⟩
  · rw [guards_run_iff repetitionIdeal.toSystematic]
    rintro (hlong | hwithin)
    · exact absurd hlong (Nat.not_lt_zero u32Max)
    · exact hwithin.one.nonempty rfl

end RaptorFec
