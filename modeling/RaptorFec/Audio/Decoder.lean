import RaptorFec.Audio.Geometry
import RaptorFec.Datagram.Window
import RaptorFec.Library.Fifo

/-!
# The audio decoder

`MultichannelAudioFecDecoder` delivers the shards of an epoch as soon as they can be read: a
source datagram delivers its own shard, and the datagram that completes the block delivers the
shards that were missing.  Around the datagram decoder it keeps, for each block in progress, the
source indices delivered so far, and two queues of block ids: the blocks in flight, of which the
oldest is expired when there are too many, and the blocks closed lately, whose datagrams are
ignored.

`pushDatagram` is split where the source stops looking at bytes:

* `Reads` says that the checks on the bytes pass, and which header, packet and shard they
  find;
* `pushDatagram_cases` lists everything a datagram can do; the invariants of the decoder are
  proved from it.
-/

namespace RaptorFec

/-! ## Shards -/

inductive MultichannelAudioRecovery where
  | systematic
  | raptorQ
  deriving DecidableEq, Repr

structure DecodedMultichannelAudioShard where
  blockId : UInt32
  header : MultichannelAudioShardHeader
  recovery : MultichannelAudioRecovery
  payload : Bytes
  deriving DecidableEq, Repr

def decodeSymbol (blockId : UInt32) (symbol : Bytes)
    (expectedSourceCount expectedSourceIndex : UInt16) (recovery : MultichannelAudioRecovery) :
    Except MultichannelAudioFecError DecodedMultichannelAudioShard := do
  let header ← MultichannelAudioShardHeader.decode symbol
  if header.sourceCount ≠ expectedSourceCount ∨ header.sourceIndex ≠ expectedSourceIndex then
    .error (.sourceIdentityMismatch expectedSourceIndex header.sourceIndex expectedSourceCount
      header.sourceCount)
  else
    let payload ← header.payload symbol
    .ok ⟨blockId, header, recovery, payload⟩

/-- The shard a source packet carries; a repair packet carries none. -/
def sourceCandidate (header : DatagramFecHeader) (packet : EncodingPacket) :
    Except MultichannelAudioFecError (Option DecodedMultichannelAudioShard) :=
  if packet.encodingSymbolId < header.sourceSymbols.toUInt32 then
    (decodeSymbol header.blockId packet.data header.sourceSymbols
      packet.encodingSymbolId.toUInt16 .systematic).map some
  else .ok none

/-- `chunks_exact`: the whole pieces of a byte string. -/
def chunksExact (size : ℕ) (bytes : Bytes) : List Bytes :=
  (List.range (bytes.length / size)).map (piece bytes size)

/-- The loop over the symbols of a recovered object, from a given source index on: the source
indices delivered so far and the output grow, also when the loop ends with an error. -/
def recoverSymbols (header : DatagramFecHeader) : ℕ → List Bytes → Finset UInt16 →
    List DecodedMultichannelAudioShard →
    Except MultichannelAudioFecError (List DecodedMultichannelAudioShard) × Finset UInt16
  | _, [], delivered, output => (.ok output, delivered)
  | index, symbol :: symbols, delivered, output =>
      let sourceIndex := UInt16.ofNat index
      if sourceIndex ∈ delivered then recoverSymbols header (index + 1) symbols delivered output
      else
        match decodeSymbol header.blockId symbol header.sourceSymbols sourceIndex .raptorQ with
        | .error error => (.error error, delivered)
        | .ok shard =>
            recoverSymbols header (index + 1) symbols (insert sourceIndex delivered)
              (output ++ [shard])

/-! ## The decoder -/

structure MultichannelAudioFecDecoder (X : Crates) where
  fec : DatagramFecDecoder X
  delivered : HashMap UInt32 (Finset UInt16)
  inFlight : Finset UInt32
  inFlightOrder : List UInt32
  completed : Finset UInt32
  completedOrder : List UInt32
  maxInFlightBlocks : ℕ
  maxCompletedBlocks : ℕ

namespace MultichannelAudioFecDecoder

variable {X : Crates}

def defaultCompletedAudioBlocks : ℕ := 128

def defaultInFlightAudioBlocks : ℕ := 128

/-- `MultichannelAudioFecDecoder::new`. -/
def new : MultichannelAudioFecDecoder X :=
  ⟨.new, ∅, ∅, [], ∅, [], defaultInFlightAudioBlocks, defaultCompletedAudioBlocks⟩

variable (self : MultichannelAudioFecDecoder X)

/-- `with_in_flight_limit`. -/
def withInFlightLimit (maxInFlightBlocks : ℕ) : MultichannelAudioFecDecoder X :=
  { self with maxInFlightBlocks := max maxInFlightBlocks 1 }

/-- `with_completed_window`. -/
def withCompletedWindow (maxCompletedBlocks : ℕ) : MultichannelAudioFecDecoder X :=
  { self with maxCompletedBlocks := max maxCompletedBlocks 1 }

/-- The loop of `remember_closed` over the queue of closed blocks. -/
def trimCompleted : List UInt32 → MultichannelAudioFecDecoder X → MultichannelAudioFecDecoder X
  | [], self => self
  | expired :: rest, self =>
      if self.maxCompletedBlocks < (expired :: rest).length then
        trimCompleted rest
          { self with completedOrder := rest, completed := self.completed.erase expired }
      else self

def rememberClosed (blockId : UInt32) : MultichannelAudioFecDecoder X :=
  let self : MultichannelAudioFecDecoder X :=
    if blockId ∈ self.completed then self
    else { self with
      completed := insert blockId self.completed
      completedOrder := self.completedOrder ++ [blockId] }
  trimCompleted self.completedOrder self

def closeBlock (blockId : UInt32) : MultichannelAudioFecDecoder X :=
  { self with
    inFlight := self.inFlight.erase blockId
    inFlightOrder := self.inFlightOrder.filter (· ≠ blockId)
    delivered := self.delivered.erase blockId : MultichannelAudioFecDecoder X
    }.rememberClosed blockId

/-- The oldest block in flight is expired; `rest` is the queue behind it. -/
def evict (oldest : UInt32) (rest : List UInt32) : MultichannelAudioFecDecoder X :=
  let self := { self with inFlightOrder := rest }
  if oldest ∈ self.inFlight then
    { self with
      inFlight := self.inFlight.erase oldest
      fec := self.fec.expireBlock oldest
      delivered := self.delivered.erase oldest : MultichannelAudioFecDecoder X
      }.rememberClosed oldest
  else self

/-- The loop of `observe_in_flight` over the queue of blocks in flight. -/
def evictOldest : List UInt32 → MultichannelAudioFecDecoder X → MultichannelAudioFecDecoder X
  | [], self => self
  | oldest :: rest, self =>
      if self.maxInFlightBlocks < self.inFlight.card then evictOldest rest (self.evict oldest rest)
      else self

def observeInFlight (blockId : UInt32) : MultichannelAudioFecDecoder X :=
  if blockId ∈ self.inFlight then self
  else
    let self := { self with
      inFlight := insert blockId self.inFlight
      inFlightOrder := self.inFlightOrder ++ [blockId] }
    evictOldest self.inFlightOrder self

/-- The source indices of a block that were delivered. -/
def deliveredOf (blockId : UInt32) : Finset UInt16 := (self.delivered.lookup blockId).getD ∅

/-- The source indices of a block are stored. -/
def setDelivered (blockId : UInt32) (delivered : Finset UInt16) : MultichannelAudioFecDecoder X :=
  { self with delivered := self.delivered.insert blockId delivered }

/-- The shard of a source packet is delivered, unless it was before: the source indices delivered
so far, and the output. -/
def deliverCandidate (delivered : Finset UInt16) :
    Option DecodedMultichannelAudioShard → Finset UInt16 × List DecodedMultichannelAudioShard
  | none => (delivered, [])
  | some source =>
      if source.header.sourceIndex ∈ delivered then (delivered, [])
      else (insert source.header.sourceIndex delivered, [source])

/-- The part of `push_datagram` behind the call of the datagram decoder that returned an object. -/
def completeBlock (header : DatagramFecHeader) (object : Bytes)
    (delivered : Finset UInt16) (output : List DecodedMultichannelAudioShard) :
    Except MultichannelAudioFecError (List DecodedMultichannelAudioShard)
      × MultichannelAudioFecDecoder X :=
  let symbolSize := header.symbolSize.toNat
  let expectedLen := symbolSize * header.sourceSymbols.toNat
  if object.length ≠ expectedLen then
    (.error (.decodedObjectLengthMismatch expectedLen object.length),
      self.setDelivered header.blockId delivered)
  else
    match recoverSymbols header 0 (chunksExact symbolSize object) delivered output with
    | (.error error, delivered) => (.error error, self.setDelivered header.blockId delivered)
    | (.ok output, delivered) =>
        (.ok (sortByKey (fun shard => shard.header.sourceIndex.toNat) output),
          (self.setDelivered header.blockId delivered).closeBlock header.blockId)

/-- The part of `push_datagram` behind the checks on the bytes. -/
def pushCandidate (datagram : Bytes) (header : DatagramFecHeader)
    (candidate : Option DecodedMultichannelAudioShard) :
    Except MultichannelAudioFecError (List DecodedMultichannelAudioShard)
      × MultichannelAudioFecDecoder X :=
  match self.fec.pushDatagram datagram with
  | (.error error, fec) => (.error (.fec error), { self with fec := fec })
  | (.ok none, fec) =>
      let self := { self with fec := fec }.observeInFlight header.blockId
      let (delivered, output) := deliverCandidate (self.deliveredOf header.blockId) candidate
      (.ok (sortByKey (fun shard => shard.header.sourceIndex.toNat) output),
        self.setDelivered header.blockId delivered)
  | (.ok (some object), fec) =>
      let (delivered, output) := deliverCandidate (self.deliveredOf header.blockId) candidate
      { self with fec := fec }.completeBlock header object delivered output

/-- `push_datagram`, with the decoder after the call. -/
def pushDatagram (datagram : Bytes) :
    Except MultichannelAudioFecError (List DecodedMultichannelAudioShard)
      × MultichannelAudioFecDecoder X :=
  match DatagramFecHeader.decode datagram with
  | .error error => (.error (.fec error), self)
  | .ok header =>
      if header.blockId ∈ self.completed then (.ok [], self)
      else
        match header.payload X datagram with
        | .error error => (.error (.fec error), self)
        | .ok serialized =>
            if serialized.length < encodingPacketHeaderLen then
              (.error (.fec (.packetTooShort datagram.length)), self)
            else
              match sourceCandidate header (X.deserialize serialized) with
              | .error error => (.error error, self)
              | .ok candidate => self.pushCandidate datagram header candidate

/-- `sequence_stats`. -/
def sequenceStats : SequenceStats := self.fec.sequenceStats

/-- `expire_block`. -/
def expireBlock (blockId : UInt32) : MultichannelAudioFecDecoder X :=
  { self with fec := self.fec.expireBlock blockId : MultichannelAudioFecDecoder X
    }.closeBlock blockId

/-- `in_flight_block_count`. -/
def inFlightBlockCount : ℕ := self.inFlight.card

end MultichannelAudioFecDecoder

/-! ## What a push can do -/

section Push

variable {X : Crates} {datagram : Bytes} {header : DatagramFecHeader} {packet : EncodingPacket}
  {candidate : Option DecodedMultichannelAudioShard}

/-- The datagram gets to the datagram decoder: the checks on its bytes pass, its block is not
remembered as closed, and a source packet carries a shard. -/
structure Reads (decoder : MultichannelAudioFecDecoder X) (datagram : Bytes)
    (header : DatagramFecHeader) (packet : EncodingPacket)
    (candidate : Option DecodedMultichannelAudioShard) : Prop extends
    Opens X datagram header packet where
  notClosed : header.blockId ∉ decoder.completed
  reads : sourceCandidate header packet = .ok candidate

namespace MultichannelAudioFecDecoder

variable (self : MultichannelAudioFecDecoder X)

lemma pushDatagram_of_reads (h : Reads self datagram header packet candidate) :
    self.pushDatagram datagram = self.pushCandidate datagram header candidate := by
  obtain ⟨payload, hpayload, hlong, rfl⟩ := h.payload
  rw [pushDatagram, h.decode]
  simp only [if_neg h.notClosed, hpayload, if_neg (Nat.not_lt.mpr hlong), h.reads]

/-- What does not get there changes nothing and delivers nothing. -/
lemma unread_or_reads (datagram : Bytes) :
    (∃ header packet candidate, Reads self datagram header packet candidate) ∨
      ((∃ error, self.pushDatagram datagram = (.error error, self)) ∨
        self.pushDatagram datagram = (.ok [], self)) := by
  cases hdecode : DatagramFecHeader.decode datagram with
  | error error => exact Or.inr (Or.inl ⟨_, by rw [pushDatagram, hdecode]⟩)
  | ok header =>
      by_cases hclosed : header.blockId ∈ self.completed
      · exact Or.inr (Or.inr (by rw [pushDatagram, hdecode]; exact if_pos hclosed))
      cases hpayload : header.payload X datagram with
      | error error =>
          exact Or.inr (Or.inl ⟨.fec error, by
            rw [pushDatagram, hdecode]
            simp only [if_neg hclosed, hpayload]⟩)
      | ok payload =>
          by_cases hlong : payload.length < encodingPacketHeaderLen
          · exact Or.inr (Or.inl ⟨.fec (.packetTooShort datagram.length), by
              rw [pushDatagram, hdecode]
              simp only [if_neg hclosed, hpayload, if_pos hlong]⟩)
          cases hcandidate : sourceCandidate header (X.deserialize payload) with
          | error error =>
              exact Or.inr (Or.inl ⟨error, by
                rw [pushDatagram, hdecode]
                simp only [if_neg hclosed, hpayload, if_neg hlong, hcandidate]⟩)
          | ok candidate =>
              exact Or.inl ⟨header, _, candidate,
                ⟨hdecode, payload, hpayload, Nat.not_lt.mp hlong, rfl⟩, hclosed, hcandidate⟩

/-- **What a datagram that gets there does**: what the datagram decoder makes of it when that
rejects it; otherwise it is filed with its block, or completes it. -/
theorem pushDatagram_cases_of_reads (h : Reads self datagram header packet candidate) :
    (∃ error fec, self.fec.pushDatagram datagram = (.error error, fec) ∧
      self.pushDatagram datagram = (.error (.fec error), { self with fec := fec })) ∨
    (∃ fec, self.fec.pushDatagram datagram = (.ok none, fec) ∧
      let next := { self with fec := fec }.observeInFlight header.blockId
      let given := deliverCandidate (next.deliveredOf header.blockId) candidate
      self.pushDatagram datagram
        = (.ok (sortByKey (fun shard => shard.header.sourceIndex.toNat) given.2),
            next.setDelivered header.blockId given.1)) ∨
    (∃ object fec, self.fec.pushDatagram datagram = (.ok (some object), fec) ∧
      let given := deliverCandidate (self.deliveredOf header.blockId) candidate
      self.pushDatagram datagram
        = { self with fec := fec }.completeBlock header object given.1 given.2) := by
  have hpush := self.pushDatagram_of_reads h
  rw [pushCandidate] at hpush
  cases hfec : self.fec.pushDatagram datagram with
  | mk result fec =>
      rw [hfec] at hpush
      cases result with
      | error error => exact Or.inl ⟨error, fec, rfl, hpush⟩
      | ok decoded =>
          cases decoded with
          | none => exact Or.inr (Or.inl ⟨fec, rfl, hpush⟩)
          | some object => exact Or.inr (Or.inr ⟨object, fec, rfl, hpush⟩)

/-- **What a datagram does to the decoder**: nothing, unless it gets to the datagram decoder. -/
theorem pushDatagram_cases (datagram : Bytes) :
    ((∃ error, self.pushDatagram datagram = (.error error, self)) ∨
      self.pushDatagram datagram = (.ok [], self)) ∨
    ∃ header packet candidate, Reads self datagram header packet candidate ∧
      ((∃ error fec, self.fec.pushDatagram datagram = (.error error, fec) ∧
          self.pushDatagram datagram = (.error (.fec error), { self with fec := fec })) ∨
        (∃ fec, self.fec.pushDatagram datagram = (.ok none, fec) ∧
          let next := { self with fec := fec }.observeInFlight header.blockId
          let given := deliverCandidate (next.deliveredOf header.blockId) candidate
          self.pushDatagram datagram
            = (.ok (sortByKey (fun shard => shard.header.sourceIndex.toNat) given.2),
                next.setDelivered header.blockId given.1)) ∨
        (∃ object fec, self.fec.pushDatagram datagram = (.ok (some object), fec) ∧
          let given := deliverCandidate (self.deliveredOf header.blockId) candidate
          self.pushDatagram datagram
            = { self with fec := fec }.completeBlock header object given.1 given.2)) := by
  rcases self.unread_or_reads datagram with ⟨header, packet, candidate, hreads⟩ | hunread
  · exact Or.inr ⟨header, packet, candidate, hreads, self.pushDatagram_cases_of_reads hreads⟩
  · exact Or.inl hunread

end MultichannelAudioFecDecoder

end Push

end RaptorFec
