import Mathlib.Algebra.Order.Floor.Div
import Mathlib.Data.Finset.Card
import Mathlib.GroupTheory.GroupAction.Ring
import RaptorFec.Library.Bytes

/-!
# The external crates

The repository links against two crates whose code is not part of it: `raptorq`, the fountain
code, and `crc32fast`.  `Crates` is their interface as the repository uses it; every definition
below takes one as a parameter.

What the repository relies on is stated as structures over a given `X : Crates`:

* `X.Systematic` — an encoding symbol for each symbol id, source symbols equal to the bytes of the
  object, packets that survive serialization, and `encodedPackets` emitting the source symbols
  and then the requested repair symbols;
* `X.Sound` — a block decoder returns nothing or exactly the object;
* `X.Ideal` — a block decoder returns the object exactly when the symbol ids it was given form a
  *decodable* set, which the source ids do, and which supersets keep;
* `Ideal.Threshold` — no decodable set is smaller than the source symbol count.
-/

namespace RaptorFec

/-- `raptorq::ObjectTransmissionInformation`. -/
structure ObjectTransmissionInformation where
  transferLength : UInt64
  symbolSize : UInt16
  sourceBlocks : UInt8
  subBlocks : UInt16
  symbolAlignment : UInt8
  deriving DecidableEq, Repr

/-- `raptorq::EncodingPacket` with its payload id. -/
structure EncodingPacket where
  sourceBlockNumber : UInt8
  encodingSymbolId : UInt32
  data : Bytes
  deriving DecidableEq, Repr

/-- The functions of `raptorq` and `crc32fast` the repository calls. -/
structure Crates where
  /-- `raptorq::Decoder`. -/
  Decoder : Type
  /-- `Encoder::new(data, oti).get_encoded_packets(repair)`; `none` when the crate panics. -/
  encodedPackets : Bytes → ObjectTransmissionInformation → UInt32 → Option (List EncodingPacket)
  /-- `Decoder::new(oti)`. -/
  newDecoder : ObjectTransmissionInformation → Decoder
  /-- `Decoder::decode(packet)`, with the decoder after the call. -/
  decode : Decoder → EncodingPacket → Option Bytes × Decoder
  /-- `EncodingPacket::serialize`. -/
  serialize : EncodingPacket → Bytes
  /-- `EncodingPacket::deserialize`. -/
  deserialize : Bytes → EncodingPacket
  /-- `crc32fast::Hasher::new_with_initial(previous)`, `update(bytes)`, `finalize()`. -/
  crc32Update : UInt32 → Bytes → UInt32

/-- One past the largest encoding symbol id: the ids have 24 bits. -/
def esiLimit : ℕ := 2 ^ 24

/-- The largest number of source symbols of one block. -/
def maxBlockSymbols : ℕ := 56403

/-- A symbol id fits 32 bits. -/
lemma toNat_ofNat_esi {esi : ℕ} (h : esi < esiLimit) : (UInt32.ofNat esi).toNat = esi :=
  UInt32.toNat_ofNat_of_lt' (Nat.lt_trans h (by decide))

/-- The cast of a symbol id to 16 bits. -/
lemma toUInt16_ofNat_esi {esi : ℕ} (h : esi < esiLimit) :
    (UInt32.ofNat esi).toUInt16 = UInt16.ofNat esi := by
  rw [← UInt16.toNat_inj, UInt32.toNat_toUInt16, toNat_ofNat_esi h]
  simp

/-- The number of source symbols of an object of `len` bytes. -/
def symbolsFor (len : ℕ) (symbolSize : UInt16) : ℕ := len ⌈/⌉ symbolSize.toNat

/-- The transmission information of an object sent as one block. -/
def oneBlockOti (object : Bytes) (symbolSize : UInt16) : ObjectTransmissionInformation :=
  ⟨UInt64.ofNat object.length, symbolSize, 1, 1, 1⟩

/-- A byte string filled up with zeros to `size` bytes. -/
def padTo (size : ℕ) (bytes : Bytes) : Bytes := bytes ++ List.replicate (size - bytes.length) 0

/-- Objects and symbol sizes that one source block can carry. -/
structure OneBlock (object : Bytes) (symbolSize : UInt16) : Prop where
  nonempty : object ≠ []
  symbolSize_pos : 0 < symbolSize.toNat
  symbols_le : symbolsFor object.length symbolSize ≤ maxBlockSymbols

namespace Crates

variable (X : Crates)

/-- The decoder after a list of packets. -/
def feed (decoder : X.Decoder) (packets : List EncodingPacket) : X.Decoder :=
  packets.foldl (fun decoder packet => (X.decode decoder packet).2) decoder

/-- None of the packets made the decoder return an object. -/
def Silent (decoder : X.Decoder) : List EncodingPacket → Prop
  | [] => True
  | packet :: packets =>
      (X.decode decoder packet).1 = none ∧ Silent (X.decode decoder packet).2 packets

@[simp] lemma feed_nil (decoder : X.Decoder) : X.feed decoder [] = decoder := rfl

lemma feed_snoc (decoder : X.Decoder) (packets : List EncodingPacket) (packet : EncodingPacket) :
    X.feed decoder (packets ++ [packet]) = (X.decode (X.feed decoder packets) packet).2 := by
  simp [feed]

@[simp] lemma silent_nil (decoder : X.Decoder) : X.Silent decoder [] := trivial

lemma silent_snoc (decoder : X.Decoder) (packets : List EncodingPacket)
    (packet : EncodingPacket) :
    X.Silent decoder (packets ++ [packet])
      ↔ X.Silent decoder packets ∧ (X.decode (X.feed decoder packets) packet).1 = none := by
  induction packets generalizing decoder with
  | nil => simp [Silent]
  | cons p ps ih =>
      rw [List.cons_append, Silent, ih, Silent, and_assoc]
      rfl

/-- `raptorq` is a systematic fountain code. -/
structure Systematic where
  /-- The bytes of the encoding symbol of an object with the given id. -/
  symbol : Bytes → UInt16 → ℕ → Bytes
  length_symbol : ∀ object symbolSize esi, OneBlock object symbolSize →
    (symbol object symbolSize esi).length = symbolSize.toNat
  /-- Source symbols are the pieces of the object, the last one padded with zeros. -/
  symbol_source : ∀ object symbolSize esi, OneBlock object symbolSize →
    esi < symbolsFor object.length symbolSize →
    symbol object symbolSize esi = padTo symbolSize.toNat (piece object symbolSize.toNat esi)
  length_serialize : ∀ packet, (X.serialize packet).length = 4 + packet.data.length
  deserialize_serialize : ∀ packet, packet.encodingSymbolId.toNat < esiLimit →
    X.deserialize (X.serialize packet) = packet
  /-- The source packets in order, then the repair packets. -/
  encodedPackets_eq : ∀ object symbolSize (repair : UInt32), OneBlock object symbolSize →
    symbolsFor object.length symbolSize + repair.toNat ≤ esiLimit →
    X.encodedPackets object (oneBlockOti object symbolSize) repair
      = some ((List.range (symbolsFor object.length symbolSize + repair.toNat)).map fun esi =>
          ⟨0, UInt32.ofNat esi, symbol object symbolSize esi⟩)
  /-- On a non-empty object beyond these limits the crate panics. -/
  encodedPackets_none : ∀ object symbolSize (repair : UInt32), object ≠ [] →
    0 < symbolSize.toNat →
    ¬ (symbolsFor object.length symbolSize ≤ maxBlockSymbols ∧
      symbolsFor object.length symbolSize + repair.toNat ≤ esiLimit) →
    X.encodedPackets object (oneBlockOti object symbolSize) repair = none

variable {X}

/-- The same crates with another `get_encoded_packets`. -/
def withEncodedPackets (X : Crates)
    (encodedPackets : Bytes → ObjectTransmissionInformation → UInt32 → Option (List EncodingPacket)) :
    Crates :=
  { X with encodedPackets := encodedPackets }

/-- A `get_encoded_packets` of the code that may return normally beyond the limit of one block. -/
structure Systematic.Encodes (code : X.Systematic)
    (encodedPackets : Bytes → ObjectTransmissionInformation → UInt32 →
      Option (List EncodingPacket)) : Prop where
  oneBlock : ∀ object symbolSize repair, OneBlock object symbolSize →
    encodedPackets object (oneBlockOti object symbolSize) repair
      = X.encodedPackets object (oneBlockOti object symbolSize) repair
  beyond : ∀ object symbolSize repair packets, object ≠ [] → 0 < symbolSize.toNat →
    ¬ OneBlock object symbolSize →
    encodedPackets object (oneBlockOti object symbolSize) repair = some packets → packets ≠ []

/-- The packet that carries one encoding symbol of an object. -/
def Systematic.packet (code : X.Systematic) (object : Bytes) (symbolSize : UInt16) (esi : ℕ) :
    EncodingPacket :=
  ⟨0, UInt32.ofNat esi, code.symbol object symbolSize esi⟩

/-- The packets of an object survive serialization. -/
lemma Systematic.deserialize_packet (code : X.Systematic) (object : Bytes) (symbolSize : UInt16)
    {esi : ℕ} (h : esi < esiLimit) :
    X.deserialize (X.serialize (code.packet object symbolSize esi))
      = code.packet object symbolSize esi :=
  code.deserialize_serialize _ ((toNat_ofNat_esi h).trans_lt h)

variable (X)

/-- A block decoder never returns anything but the object its packets were made from. -/
structure Sound extends X.Systematic where
  decode_sound : ∀ object symbolSize, OneBlock object symbolSize →
    ∀ (esis : List ℕ) (esi : ℕ), (∀ e ∈ esis, e < esiLimit) → esi < esiLimit →
      let packet := toSystematic.packet object symbolSize
      let decoder := X.newDecoder (oneBlockOti object symbolSize)
      X.Silent decoder (esis.map packet) →
      (X.decode (X.feed decoder (esis.map packet)) (packet esi)).1 = none ∨
        (X.decode (X.feed decoder (esis.map packet)) (packet esi)).1 = some object

/-- A block decoder returns the object exactly when the symbol ids it was given are decodable. -/
structure Ideal extends X.Systematic where
  /-- The sets of symbol ids that determine an object of the given length and symbol size. -/
  Decodable : ℕ → UInt16 → Finset ℕ → Prop
  decodable_source : ∀ len symbolSize, Decodable len symbolSize
    (Finset.range (symbolsFor len symbolSize))
  decodable_mono : ∀ len symbolSize s t, s ⊆ t → Decodable len symbolSize s →
    Decodable len symbolSize t
  decode_some : ∀ object symbolSize, OneBlock object symbolSize →
    ∀ (esis : List ℕ) (esi : ℕ), (∀ e ∈ esis, e < esiLimit) → esi < esiLimit →
      let packet := toSystematic.packet object symbolSize
      let decoder := X.newDecoder (oneBlockOti object symbolSize)
      X.Silent decoder (esis.map packet) →
      Decodable object.length symbolSize (insert esi esis.toFinset) →
      (X.decode (X.feed decoder (esis.map packet)) (packet esi)).1 = some object
  decode_none : ∀ object symbolSize, OneBlock object symbolSize →
    ∀ (esis : List ℕ) (esi : ℕ), (∀ e ∈ esis, e < esiLimit) → esi < esiLimit →
      let packet := toSystematic.packet object symbolSize
      let decoder := X.newDecoder (oneBlockOti object symbolSize)
      X.Silent decoder (esis.map packet) →
      ¬ Decodable object.length symbolSize (insert esi esis.toFinset) →
      (X.decode (X.feed decoder (esis.map packet)) (packet esi)).1 = none

variable {X}

/-- An ideal code is sound. -/
def Ideal.toSound (code : X.Ideal) : X.Sound where
  toSystematic := code.toSystematic
  decode_sound := by
    intro object symbolSize hone esis esi hesis hesi packet decoder hsilent
    by_cases hdec : code.Decodable object.length symbolSize (insert esi esis.toFinset)
    · exact Or.inr (code.decode_some object symbolSize hone esis esi hesis hesi hsilent hdec)
    · exact Or.inl (code.decode_none object symbolSize hone esis esi hesis hesi hsilent hdec)

/-- Fewer symbols than source symbols never determine the object. -/
def Ideal.Threshold (code : X.Ideal) : Prop :=
  ∀ len symbolSize s, code.Decodable len symbolSize s → symbolsFor len symbolSize ≤ s.card

end Crates

end RaptorFec
