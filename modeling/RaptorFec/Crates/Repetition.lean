import RaptorFec.Crates

/-!
# A repetition code

The assumptions on the external crates are consistent: `repetition` is a code that meets all of
them.  Its encoding symbol with id `e` is the source symbol `e % K` again, and a set of ids is
decodable when it covers every residue.  The concrete runs of the development use it, with the
standard CRC-32.
-/

namespace RaptorFec

/-- Shifts of the reflected CRC-32 register. -/
def crc32Shift : ℕ → ℕ → ℕ
  | 0, crc => crc
  | n + 1, crc => crc32Shift n (if crc % 2 = 1 then (crc / 2) ^^^ 0xEDB88320 else crc / 2)

/-- One byte of the CRC-32.  Only the low byte of the register decides what is fed back, so the
eight shifts of the rest are one shift by eight. -/
def crc32Byte (crc : ℕ) (byte : UInt8) : ℕ :=
  crc32Shift 8 ((crc ^^^ byte.toNat) % 256) ^^^ (crc / 256)

/-- The CRC-32 that `crc32fast` computes. -/
def crc32Reference (previous : UInt32) (bytes : Bytes) : UInt32 :=
  ~~~ UInt32.ofNat (bytes.foldl crc32Byte (~~~ previous).toNat)

/-- The standard test vector. -/
example : crc32Reference 0 [0x31, 0x32, 0x33, 0x34, 0x35, 0x36, 0x37, 0x38, 0x39] = 0xCBF43926 := by
  decide +kernel

/-- The decoder of the repetition code keeps the packets it was given, last one first. -/
structure RepetitionDecoder where
  oti : ObjectTransmissionInformation
  packets : List EncodingPacket

namespace Repetition

/-- The source symbol that stands for residue `e % K`. -/
def symbol (object : Bytes) (symbolSize : UInt16) (esi : ℕ) : Bytes :=
  padTo symbolSize.toNat
    (piece object symbolSize.toNat (esi % symbolsFor object.length symbolSize))

/-- A packet for residue `i`, if one was received. -/
def lookup (packets : List EncodingPacket) (count i : ℕ) : Option Bytes :=
  (packets.find? fun packet => packet.encodingSymbolId.toNat % count = i).map (·.data)

/-- Put the object together once every residue was received. -/
def recover (oti : ObjectTransmissionInformation) (packets : List EncodingPacket) :
    Option Bytes :=
  let count := symbolsFor oti.transferLength.toNat oti.symbolSize
  if (List.range count).all fun i => (lookup packets count i).isSome then
    some (((List.range count).map fun i => (lookup packets count i).getD []).flatten.take
      oti.transferLength.toNat)
  else none

/-- The RFC 6330 payload id: the block number and a 24-bit big-endian symbol id. -/
def serialize (packet : EncodingPacket) : Bytes :=
  packet.sourceBlockNumber :: UInt8.ofNat (packet.encodingSymbolId.toNat / 65536) ::
    UInt8.ofNat (packet.encodingSymbolId.toNat / 256) ::
    UInt8.ofNat packet.encodingSymbolId.toNat :: packet.data

def deserialize : Bytes → EncodingPacket
  | block :: a :: b :: c :: data =>
      ⟨block, UInt32.ofNat (a.toNat * 65536 + b.toNat * 256 + c.toNat), data⟩
  | _ => ⟨0, 0, []⟩

end Repetition

open Repetition in
/-- The repetition code with the reference CRC. -/
def repetition : Crates where
  Decoder := RepetitionDecoder
  encodedPackets object oti repair :=
    let count := symbolsFor object.length oti.symbolSize
    if count ≤ maxBlockSymbols ∧ count + repair.toNat ≤ esiLimit then
      some ((List.range (count + repair.toNat)).map fun esi =>
        ⟨0, UInt32.ofNat esi, symbol object oti.symbolSize esi⟩)
    else none
  newDecoder oti := ⟨oti, []⟩
  decode decoder packet :=
    let packets := packet :: decoder.packets
    (recover decoder.oti packets, ⟨decoder.oti, packets⟩)
  serialize := serialize
  deserialize := deserialize
  crc32Update := crc32Reference

namespace Repetition

lemma deserialize_serialize (packet : EncodingPacket)
    (h : packet.encodingSymbolId.toNat < esiLimit) : deserialize (serialize packet) = packet := by
  have hlimit : packet.encodingSymbolId.toNat < 16777216 := h
  have hesi : (UInt8.ofNat (packet.encodingSymbolId.toNat / 65536)).toNat * 65536
      + (UInt8.ofNat (packet.encodingSymbolId.toNat / 256)).toNat * 256
      + (UInt8.ofNat packet.encodingSymbolId.toNat).toNat = packet.encodingSymbolId.toNat := by
    simp only [UInt8.toNat_ofNat']
    omega
  rw [serialize, deserialize, hesi, UInt32.ofNat_toNat]

/-- The padded pieces of an object start with the object. -/
lemma take_flatten_padded {bytes : Bytes} {size count : ℕ} (h : bytes.length ≤ count * size) :
    (((List.range count).map fun i => padTo size (piece bytes size i)).flatten).take bytes.length
      = bytes := by
  induction count generalizing bytes with
  | zero =>
      have : bytes = [] := List.length_eq_zero_iff.mp (by omega)
      simp [this]
  | succ count ih =>
      rw [List.range_succ_eq_map, List.map_cons, List.flatten_cons, List.map_map, piece_zero]
      rcases Nat.lt_or_ge bytes.length size with hlt | hge
      · rw [List.take_of_length_le (by omega : bytes.length ≤ size), padTo, List.append_assoc,
          List.take_left' rfl]
      · have hpad : padTo size (bytes.take size) = bytes.take size := by
          simp [padTo, List.length_take, Nat.min_eq_left hge]
        have hfun : (fun i => padTo size (piece bytes size i)) ∘ Nat.succ
            = fun i => padTo size (piece (bytes.drop size) size i) :=
          funext fun i => congrArg (padTo size) (piece_succ bytes size i)
        have hrest : (bytes.drop size).length ≤ count * size := by
          rw [List.length_drop, Nat.add_mul] at *
          omega
        have hlen : bytes.length - size = (bytes.drop size).length := by rw [List.length_drop]
        rw [hpad, hfun, List.take_append, List.length_take, Nat.min_eq_left hge, hlen, ih hrest,
          List.take_of_length_le (by rw [List.length_take]; omega), List.take_append_drop]

variable {object : Bytes} {symbolSize : UInt16}

/-- The packet of one symbol id. -/
def packet (object : Bytes) (symbolSize : UInt16) (esi : ℕ) : EncodingPacket :=
  ⟨0, UInt32.ofNat esi, symbol object symbolSize esi⟩

variable (object symbolSize) in
/-- What `lookup` finds among packets of one object. -/
lemma lookup_packets {esis : List ℕ} (hesis : ∀ e ∈ esis, e < esiLimit) (i : ℕ) :
    let count := symbolsFor object.length symbolSize
    lookup (esis.map (packet object symbolSize)) count i
      = if ∃ e ∈ esis, e % count = i then
          some (padTo symbolSize.toNat (piece object symbolSize.toNat i)) else none := by
  intro count
  induction esis with
  | nil => simp [lookup]
  | cons e esis ih =>
      have he := toNat_ofNat_esi (hesis e (by simp))
      have ih := ih fun x hx => hesis x (List.mem_cons_of_mem _ hx)
      rw [lookup] at ih ⊢
      rw [List.map_cons, List.find?_cons]
      by_cases hei : e % count = i
      · have hsym : (packet object symbolSize e).encodingSymbolId.toNat % count = i := by
          rw [packet, he, hei]
        simp only [hsym, decide_true, Option.map_some, List.mem_cons, exists_eq_or_imp, hei,
          true_or, if_true]
        rw [packet, symbol]
        simp only [hei, count]
      · have hsym : ¬ (packet object symbolSize e).encodingSymbolId.toNat % count = i := by
          rw [packet, he]
          exact hei
        simp only [hsym, decide_false, ih, List.mem_cons, exists_eq_or_imp, hei, false_or]

lemma length_eq (hone : OneBlock object symbolSize) :
    object.length ≤ symbolsFor object.length symbolSize * symbolSize.toNat ∧
      (UInt64.ofNat object.length).toNat = object.length := by
  have hle : object.length ≤ symbolSize.toNat * symbolsFor object.length symbolSize :=
    (ceilDiv_le_iff_le_mul hone.symbolSize_pos).mp le_rfl
  have hsize : symbolSize.toNat < 65536 := symbolSize.toNat_lt
  have hcount : symbolsFor object.length symbolSize ≤ 56403 := hone.symbols_le
  have hmul : symbolSize.toNat * symbolsFor object.length symbolSize ≤ 65536 * 56403 :=
    Nat.mul_le_mul (Nat.le_of_lt hsize) hcount
  refine ⟨Nat.mul_comm _ _ ▸ hle, UInt64.toNat_ofNat_of_lt' ?_⟩
  simp only [UInt64.size]
  omega

/-- Recovery succeeds, with the object, exactly on the sets of ids that cover every residue. -/
lemma recover_packets (hone : OneBlock object symbolSize) {esis : List ℕ}
    (hesis : ∀ e ∈ esis, e < esiLimit) :
    let count := symbolsFor object.length symbolSize
    recover (oneBlockOti object symbolSize) (esis.map (packet object symbolSize))
      = if ∀ i < count, ∃ e ∈ esis, e % count = i then some object else none := by
  intro count
  obtain ⟨hlen, htransfer⟩ := length_eq hone
  have hlook := lookup_packets object symbolSize hesis
  rw [recover]
  simp only [oneBlockOti, htransfer, hlook, List.all_eq_true, List.mem_range]
  by_cases hcover : ∀ i < count, ∃ e ∈ esis, e % count = i
  · have hmap : ((List.range count).map fun i =>
        (if ∃ e ∈ esis, e % count = i then
          some (padTo symbolSize.toNat (piece object symbolSize.toNat i)) else none).getD [])
        = (List.range count).map fun i => padTo symbolSize.toNat
            (piece object symbolSize.toNat i) := by
      refine List.map_congr_left fun i hi => ?_
      rw [if_pos (hcover i (List.mem_range.mp hi)), Option.getD_some]
    rw [if_pos hcover, if_pos fun i hi => by rw [if_pos (hcover i hi)]; rfl, hmap,
      take_flatten_padded hlen]
  · rw [if_neg hcover, if_neg]
    intro hall
    refine hcover fun i hi => ?_
    by_contra hno
    have := hall i hi
    rw [if_neg hno] at this
    exact absurd this (by simp)

lemma feed_eq (oti : ObjectTransmissionInformation) (packets : List EncodingPacket) :
    repetition.feed (repetition.newDecoder oti) packets
      = (⟨oti, packets.reverse⟩ : RepetitionDecoder) := by
  induction packets using List.reverseRecOn with
  | nil => rfl
  | append_singleton packets packet ih =>
      rw [Crates.feed_snoc, ih, List.reverse_append]
      rfl

/-- What one more packet makes the decoder return. -/
lemma decode_packets (hone : OneBlock object symbolSize) {esis : List ℕ} {esi : ℕ}
    (hesis : ∀ e ∈ esis, e < esiLimit) (hesi : esi < esiLimit) :
    let count := symbolsFor object.length symbolSize
    (repetition.decode (repetition.feed (repetition.newDecoder (oneBlockOti object symbolSize))
        (esis.map (packet object symbolSize))) (packet object symbolSize esi)).1
      = if ∀ i < count, ∃ e ∈ insert esi esis.toFinset, e % count = i then some object
        else none := by
  intro count
  have hmem : ∀ e ∈ esi :: esis.reverse, e < esiLimit := by
    intro e he
    rcases List.mem_cons.mp he with rfl | he
    · exact hesi
    · exact hesis e (List.mem_reverse.mp he)
  have hrec := recover_packets hone hmem
  rw [feed_eq, ← List.map_reverse]
  have hiff : (∀ i < count, ∃ e ∈ insert esi esis.toFinset, e % count = i)
      ↔ ∀ i < count, ∃ e ∈ esi :: esis.reverse, e % count = i := by
    simp
  simp only [hiff]
  exact hrec

end Repetition

open Repetition in
/-- The repetition code meets every assumption of an ideal code. -/
def repetitionIdeal : repetition.Ideal where
  symbol := symbol
  length_symbol object symbolSize esi hone := by
    have hle := length_piece object symbolSize.toNat
      (esi % symbolsFor object.length symbolSize)
    rw [symbol, padTo, List.length_append, List.length_replicate]
    omega
  symbol_source object symbolSize esi hone hesi := by
    rw [symbol, Nat.mod_eq_of_lt hesi]
  length_serialize packet := by
    change (serialize packet).length = _
    simp only [serialize, List.length_cons]
    omega
  deserialize_serialize := Repetition.deserialize_serialize
  encodedPackets_eq object symbolSize repair hone hle := by
    change (if _ then _ else _) = _
    exact if_pos ⟨hone.symbols_le, hle⟩
  encodedPackets_none object symbolSize repair _ _ hno := by
    change (if _ then _ else _) = _
    exact if_neg hno
  Decodable len symbolSize s :=
    ∀ i < symbolsFor len symbolSize, ∃ e ∈ s, e % symbolsFor len symbolSize = i
  decodable_source len symbolSize i hi := ⟨i, Finset.mem_range.mpr hi, Nat.mod_eq_of_lt hi⟩
  decodable_mono len symbolSize s t hst hs i hi := by
    obtain ⟨e, he, hei⟩ := hs i hi
    exact ⟨e, hst he, hei⟩
  decode_some object symbolSize hone esis esi hesis hesi _ hdec :=
    (decode_packets hone hesis hesi).trans (if_pos hdec)
  decode_none object symbolSize hone esis esi hesis hesi _ hdec :=
    (decode_packets hone hesis hesi).trans (if_neg hdec)

/-- Covering every residue takes as many ids as there are residues. -/
lemma repetitionIdeal_threshold : repetitionIdeal.Threshold := by
  intro len symbolSize s hs
  have hsub : Finset.range (symbolsFor len symbolSize)
      ⊆ s.image (· % symbolsFor len symbolSize) := by
    intro i hi
    obtain ⟨e, he, hei⟩ := hs i (Finset.mem_range.mp hi)
    exact Finset.mem_image.mpr ⟨e, he, hei⟩
  calc symbolsFor len symbolSize
      = (Finset.range (symbolsFor len symbolSize)).card := (Finset.card_range _).symm
    _ ≤ (s.image (· % symbolsFor len symbolSize)).card := Finset.card_le_card hsub
    _ ≤ s.card := Finset.card_image_le

end RaptorFec
