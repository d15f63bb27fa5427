import RaptorFec.Datagram.Decoder
import RaptorFec.Datagram.Encoder
import RaptorFec.Library.Collector

/-!
# Decoding honest datagrams

What the decoder does when every datagram carries a symbol of one of a set of blocks with
distinct ids.

* `Holds code B held decoder` — for each block id, the decoder state is that of a `raptorq` decoder
  fed the symbols `held id` of the block with that id, in order; it holds for any systematic code
  (`Holds.push`, `Holds.expire`);
* `Simulates code B c decoder` — for an ideal code, the decoder refines the collector `c` whose
  blocks are done when their symbols are decodable, and where closing an id drops the ids it does
  not retain (`simulates_push`, `simulates_run`).
-/

namespace RaptorFec

variable {X : Crates}

/-- A set of source blocks with distinct ids. -/
structure BlockSet where
  blocks : Set SourceBlock
  inj : ∀ b ∈ blocks, ∀ b' ∈ blocks, b.id = b'.id → b = b'

instance : Membership SourceBlock BlockSet := ⟨fun B b => b ∈ B.blocks⟩

lemma BlockSet.eq_of_id {B : BlockSet} {b b' : SourceBlock} (hb : b ∈ B) (hb' : b' ∈ B)
    (hid : b.id = b'.id) : b = b' :=
  B.inj b hb b' hb' hid

/-- The decoder state of a block whose `raptorq` decoder was fed the given symbols, and returned
nothing yet. -/
structure Fed (code : X.Systematic) (block : SourceBlock) (esis : List ℕ) (state : BlockState X) :
    Prop where
  decoder : state.decoder = X.feed (X.newDecoder (oneBlockOti block.object block.symbolSize))
    (esis.map (code.packet block.object block.symbolSize))
  transferLength : state.transferLength = UInt32.ofNat block.object.length
  sourceSymbols : state.sourceSymbols = UInt16.ofNat block.sourceSymbols
  symbolSize : state.symbolSize = block.symbolSize
  silent : X.Silent (X.newDecoder (oneBlockOti block.object block.symbolSize))
    (esis.map (code.packet block.object block.symbolSize))
  esis_lt : ∀ e ∈ esis, e < esiLimit

/-- What the `raptorq` decoder of a block returns for one more symbol. -/
def Fed.next (code : X.Systematic) (block : SourceBlock) (esis : List ℕ) (esi : ℕ) : Option Bytes :=
  (X.decode (X.feed (X.newDecoder (oneBlockOti block.object block.symbolSize))
    (esis.map (code.packet block.object block.symbolSize)))
    (code.packet block.object block.symbolSize esi)).1

variable {code : X.Systematic} {block : SourceBlock} {esis : List ℕ} {state : BlockState X}
  {header : DatagramFecHeader} {sequence : UInt32} {esi : ℕ} {datagram : Bytes}

/-- An honest datagram opens. -/
lemma Carries.opens (h : Carries code block sequence esi datagram) :
    ∃ header, Opens X datagram header (code.packet block.object block.symbolSize esi) ∧
      block.Announces header ∧ header.packetSequence = sequence := by
  obtain ⟨header, hdecode, hpayload, hannounces, hsequence⟩ := h.found
  refine ⟨header, ⟨hdecode, _, hpayload, ?_, ?_⟩, hannounces, hsequence⟩
  · rw [length_serialized]
    exact Nat.le_add_right _ _
  · exact (code.deserialize_packet _ _ h.esi_lt).symm

lemma SourceBlock.Announces.oti_eq (h : block.Announces header) :
    header.oti = oneBlockOti block.object block.symbolSize := by
  rw [DatagramFecHeader.oti, exactOneBlockOti, h.transferLength, block.toNat_transferLength,
    h.symbolSize, max_one_eq block.one.symbolSize_pos, oneBlockOti]

lemma fed_new (code : X.Systematic) (h : block.Announces header) :
    Fed code block [] (BlockState.new header) where
  decoder := by
    rw [BlockState.new, h.oti_eq]
    rfl
  transferLength := h.transferLength
  sourceSymbols := h.sourceSymbols
  symbolSize := h.symbolSize
  silent := trivial
  esis_lt e he := absurd he (by simp)

/-- A symbol that makes the decoder return nothing is added to those it was fed. -/
lemma Fed.snoc (h : Fed code block esis state) (hesi : esi < esiLimit)
    (hnone : Fed.next code block esis esi = none) :
    Fed code block (esis ++ [esi])
      { state with
        decoder := (X.decode state.decoder (code.packet block.object block.symbolSize esi)).2 } where
  decoder := by
    rw [List.map_append, List.map_singleton, X.feed_snoc, h.decoder]
  transferLength := h.transferLength
  sourceSymbols := h.sourceSymbols
  symbolSize := h.symbolSize
  silent := by
    rw [List.map_append, List.map_singleton]
    exact (X.silent_snoc _ _ _).mpr ⟨h.silent, hnone⟩
  esis_lt e he := by
    rcases List.mem_append.mp he with he | he
    · exact h.esis_lt e he
    · exact List.mem_singleton.mp he ▸ hesi

/-- A header that announces the block agrees with its state. -/
lemma Fed.agrees (h : Fed code block esis state) (hannounces : block.Announces header) :
    ¬ state.Conflicts header := by
  rintro (hne | hne | hne)
  · exact hne (h.transferLength.trans hannounces.transferLength.symm)
  · exact hne (h.sourceSymbols.trans hannounces.sourceSymbols.symm)
  · exact hne (h.symbolSize.trans hannounces.symbolSize.symm)

/-- The decoder states are those of `raptorq` decoders fed the given symbols of each id. -/
structure Holds (code : X.Systematic) (B : BlockSet) (held : UInt32 → List ℕ)
    (decoder : DatagramFecDecoder X) : Prop where
  tracked : ∀ id state, decoder.blocks.lookup id = some state →
    ∃ block ∈ B, block.id = id ∧ Fed code block (held id) state
  untracked : ∀ id, decoder.blocks.lookup id = none → held id = []

namespace Holds

variable {B : BlockSet} {held : UInt32 → List ℕ} {decoder : DatagramFecDecoder X}

lemma new (code : X.Systematic) (B : BlockSet) :
    Holds code B (fun _ => []) DatagramFecDecoder.new where
  tracked id state h := by
    rw [DatagramFecDecoder.new, Finmap.lookup_empty] at h
    cases h
  untracked _ _ := rfl

lemma observe (h : Holds code B held decoder) (sequence : UInt32) :
    Holds code B held (decoder.observe sequence) := ⟨h.tracked, h.untracked⟩

/-- The state a packet of a block is fed to. -/
lemma blockFor (h : Holds code B held decoder) (hb : block ∈ B)
    (hannounces : block.Announces header) :
    Fed code block (held block.id) (decoder.blockFor header) := by
  rw [DatagramFecDecoder.blockFor, hannounces.blockId]
  cases hlookup : decoder.blocks.lookup block.id with
  | none =>
      rw [h.untracked block.id hlookup]
      exact fed_new code hannounces
  | some state =>
      obtain ⟨block', hb', hid, hfed⟩ := h.tracked block.id state hlookup
      obtain rfl := BlockSet.eq_of_id hb' hb hid
      exact hfed

lemma accepts (h : Holds code B held decoder) (hb : block ∈ B)
    (hannounces : block.Announces header) (esi : ℕ) :
    decoder.Accepts header (code.packet block.object block.symbolSize esi) where
  sourceBlockNumber := rfl
  length := by
    rw [Crates.Systematic.packet, code.length_symbol _ _ _ block.one, hannounces.symbolSize]
  agrees := by
    rintro ⟨state, hlookup, hconflict⟩
    rw [Option.mem_def, hannounces.blockId] at hlookup
    obtain ⟨block', hb', hid, hfed⟩ := h.tracked block.id state hlookup
    obtain rfl := BlockSet.eq_of_id hb' hb hid
    exact hfed.agrees hannounces hconflict

/-- **Pushing an honest datagram** of a block that is not closed: the block's `raptorq` decoder
is fed the symbol, and the block is closed when that returns an object. -/
theorem push (h : Holds code B held decoder) (hb : block ∈ B)
    (hcarries : Carries code block sequence esi datagram)
    (hopen : block.id ∉ decoder.completed) :
    (Fed.next code block (held block.id) esi = none ∧
      (decoder.pushDatagram datagram).1 = .ok none ∧
      (decoder.pushDatagram datagram).2.completed = decoder.completed ∧
      Holds code B (Function.update held block.id (held block.id ++ [esi]))
        (decoder.pushDatagram datagram).2) ∨
    (∃ object, Fed.next code block (held block.id) esi = some object ∧
      decoder.pushDatagram datagram
        = (.ok (some object), (decoder.observe sequence).expireBlock block.id)) := by
  obtain ⟨header, hopens, hannounces, hsequence⟩ := hcarries.opens
  have haccepts := (h.observe sequence).accepts hb hannounces esi
  have hfed := (h.observe sequence).blockFor hb hannounces
  have hnext : (X.decode ((decoder.observe sequence).blockFor header).decoder
      (code.packet block.object block.symbolSize esi)).1
      = Fed.next code block (held block.id) esi := by
    rw [hfed.decoder]
    rfl
  have hpush := DatagramFecDecoder.pushDatagram_of_opens decoder hopens
  rw [hannounces.blockId, if_neg hopen, hsequence] at hpush
  cases hout : Fed.next code block (held block.id) esi with
  | none =>
      have hwaits := DatagramFecDecoder.pushPacket_waits haccepts (hnext.trans hout)
      rw [hwaits] at hpush
      refine Or.inl ⟨rfl, by rw [hpush], by rw [hpush]; rfl, ?_⟩
      rw [hpush, hannounces.blockId]
      refine ⟨fun id state hlookup => ?_, fun id hlookup => ?_⟩
      · rw [HashMap.lookup_insert_eq] at hlookup
        by_cases hid : id = block.id
        · rw [if_pos hid] at hlookup
          obtain rfl := Option.some.inj hlookup
          refine ⟨block, hb, hid.symm, ?_⟩
          rw [hid, Function.update_self]
          exact hfed.snoc hcarries.esi_lt hout
        · rw [if_neg hid] at hlookup
          rw [Function.update_of_ne hid]
          exact h.tracked id state hlookup
      · rw [HashMap.lookup_insert_eq] at hlookup
        by_cases hid : id = block.id
        · rw [if_pos hid] at hlookup
          cases hlookup
        · rw [if_neg hid] at hlookup
          rw [Function.update_of_ne hid]
          exact h.untracked id hlookup
  | some object =>
      have hreturns : (decoder.observe sequence).Completes header
          (code.packet block.object block.symbolSize esi) := ⟨haccepts, by rw [hnext, hout]; rfl⟩
      obtain ⟨decoded, hdecoded, hcompletes⟩ :=
        DatagramFecDecoder.pushPacket_completes hreturns
      obtain rfl := Option.some.inj (hdecoded.symm.trans (hnext.trans hout))
      rw [hcompletes, hannounces.blockId] at hpush
      exact Or.inr ⟨_, rfl, hpush⟩

/-- A datagram of a closed block changes nothing but the statistics. -/
lemma push_closed (hcarries : Carries code block sequence esi datagram)
    (hclosed : block.id ∈ decoder.completed) :
    decoder.pushDatagram datagram = (.ok none, decoder.observe sequence) := by
  obtain ⟨header, hopens, hannounces, hsequence⟩ := hcarries.opens
  rw [DatagramFecDecoder.pushDatagram_of_opens decoder hopens, hannounces.blockId, if_pos hclosed,
    hsequence]

/-- Closing a block empties it and every block it does not retain. -/
lemma expire (h : Holds code B held decoder) (blockId : UInt32) :
    Holds code B (fun id => if id = blockId ∨ ¬ Retained blockId id then [] else held id)
      (decoder.expireBlock blockId) := by
  refine ⟨fun id state hlookup => ?_, fun id hlookup => ?_⟩
  · rw [DatagramFecDecoder.lookup_expireBlock] at hlookup
    split_ifs at hlookup with hgone
    simp only [if_neg hgone]
    exact h.tracked id state hlookup
  · rw [DatagramFecDecoder.lookup_expireBlock] at hlookup
    by_cases hgone : id = blockId ∨ ¬ Retained blockId id
    · exact if_pos hgone
    · rw [if_neg hgone] at hlookup
      simp only [if_neg hgone]
      exact h.untracked id hlookup

end Holds

/-- **Any honest datagram, for a sound code**: nothing is returned, or the object of the block. -/
theorem Holds.push_sound {code : X.Sound} {B : BlockSet} {held : UInt32 → List ℕ}
    {decoder : DatagramFecDecoder X} (h : Holds code.toSystematic B held decoder) (hb : block ∈ B)
    (hcarries : Carries code.toSystematic block sequence esi datagram) :
    (∃ held', Holds code.toSystematic B held' (decoder.pushDatagram datagram).2) ∧
      ((decoder.pushDatagram datagram).1 = .ok none ∨
        (decoder.pushDatagram datagram).1 = .ok (some block.object)) := by
  by_cases hclosed : block.id ∈ decoder.completed
  · rw [Holds.push_closed hcarries hclosed]
    exact ⟨⟨held, h.observe sequence⟩, Or.inl rfl⟩
  rcases h.push hb hcarries hclosed with ⟨-, hresult, -, hholds⟩ | ⟨object, hnext, hpush⟩
  · exact ⟨⟨_, hholds⟩, Or.inl hresult⟩
  · obtain ⟨header, -, hannounces, -⟩ := hcarries.opens
    have hfed := h.blockFor hb hannounces
    have hobject : object = block.object := by
      rcases code.decode_sound block.object block.symbolSize block.one (held block.id) esi
        hfed.esis_lt hcarries.esi_lt hfed.silent with hnone | hsome
      · rw [Fed.next, hnone] at hnext
        cases hnext
      · rw [Fed.next, hsome] at hnext
        exact (Option.some.inj hnext).symm
    rw [hpush, hobject]
    exact ⟨⟨_, (h.observe sequence).expire block.id⟩, Or.inr rfl⟩

/-! ## The collector the decoder refines -/

/-- The symbols are decodable for the block with this id. -/
def DoneIn (code : X.Ideal) (B : BlockSet) (id : UInt32) (s : Finset ℕ) : Prop :=
  ∃ block ∈ B, block.id = id ∧ code.Decodable block.object.length block.symbolSize s

/-- Closing `current` forgets `id`. -/
def DropsId (current id : UInt32) : Prop := ¬ Retained current id

lemma regular_doneIn (code : X.Ideal) (B : BlockSet) :
    Collector.Regular (DoneIn code B) DropsId where
  mono := by
    rintro id s t hst ⟨block, hb, hid, hdec⟩
    exact ⟨block, hb, hid, code.decodable_mono _ _ s t hst hdec⟩
  self id h := h (retained_self id)

lemma doneIn_iff {code : X.Ideal} {B : BlockSet} (hb : block ∈ B) {s : Finset ℕ} :
    DoneIn code B block.id s ↔ code.Decodable block.object.length block.symbolSize s := by
  constructor
  · rintro ⟨block', hb', hid, hdec⟩
    obtain rfl := BlockSet.eq_of_id hb' hb hid
    exact hdec
  · exact fun hdec => ⟨block, hb, rfl, hdec⟩

/-- The datagram carries the symbol, given by block id and symbol id. -/
def IsSymbol (code : X.Systematic) (B : BlockSet) (datagram : Bytes) (symbol : UInt32 × ℕ) : Prop :=
  ∃ block ∈ B, ∃ sequence, block.id = symbol.1 ∧ Carries code block sequence symbol.2 datagram

/-- The result of a push is the object of the block that is fired. -/
def IsResult (B : BlockSet) (result : Except DatagramFecError (Option Bytes)) :
    Option UInt32 → Prop
  | none => result = .ok none
  | some id => ∃ block ∈ B, block.id = id ∧ result = .ok (some block.object)

/-- The decoder holds, block by block, the symbols the collector holds. -/
structure Simulates (code : X.Ideal) (B : BlockSet) (decoder : DatagramFecDecoder X)
    (c : Collector UInt32 ℕ) : Prop where
  held : ∃ held : UInt32 → List ℕ, Holds code.toSystematic B held decoder ∧
    ∀ id, (held id).toFinset = c.held id
  closed : ∀ id, id ∈ c.closed ↔ id ∈ decoder.completed

lemma simulates_new (code : X.Ideal) (B : BlockSet) :
    Simulates code B DatagramFecDecoder.new Collector.empty where
  held := ⟨_, Holds.new _ _, fun _ => rfl⟩
  closed _ := ⟨fun h => absurd h (Set.notMem_empty _), fun h => absurd h (Finset.notMem_empty _)⟩

/-- The next result of a block's `raptorq` decoder, for an ideal code. -/
lemma fed_next_eq (code : X.Ideal) (block : SourceBlock) {esis : List ℕ} {esi : ℕ}
    (hesis : ∀ e ∈ esis, e < esiLimit) (hesi : esi < esiLimit)
    (hsilent : X.Silent (X.newDecoder (oneBlockOti block.object block.symbolSize))
      (esis.map (code.packet block.object block.symbolSize))) :
    (code.Decodable block.object.length block.symbolSize (insert esi esis.toFinset) →
      Fed.next code.toSystematic block esis esi = some block.object) ∧
    (¬ code.Decodable block.object.length block.symbolSize (insert esi esis.toFinset) →
      Fed.next code.toSystematic block esis esi = none) :=
  ⟨code.decode_some block.object block.symbolSize block.one esis esi hesis hesi hsilent,
    code.decode_none block.object block.symbolSize block.one esis esi hesis hesi hsilent⟩

lemma Simulates.expire {code : X.Ideal} {B : BlockSet} {decoder : DatagramFecDecoder X}
    {c : Collector UInt32 ℕ} (h : Simulates code B decoder c) (id : UInt32) :
    Simulates code B (decoder.expireBlock id) (c.close DropsId id) := by
  obtain ⟨held, hholds, hheld⟩ := h.held
  refine ⟨⟨_, hholds.expire id, fun j => ?_⟩, fun j => ?_⟩
  · by_cases hgone : j = id ∨ ¬ Retained id j
    · exact (congrArg List.toFinset (if_pos hgone)).trans (if_pos hgone).symm
    · exact ((congrArg List.toFinset (if_neg hgone)).trans (hheld j)).trans (if_neg hgone).symm
  · rw [Collector.mem_closed_close, DatagramFecDecoder.mem_expireBlock_completed, h.closed, DropsId,
      not_not]

lemma Simulates.observe {code : X.Ideal} {B : BlockSet} {decoder : DatagramFecDecoder X}
    {c : Collector UInt32 ℕ} (h : Simulates code B decoder c) (sequence : UInt32) :
    Simulates code B (decoder.observe sequence) c := by
  obtain ⟨held, hholds, hheld⟩ := h.held
  exact ⟨⟨held, hholds.observe sequence, hheld⟩, h.closed⟩

/-- **One push of the decoder is one push of the collector.** -/
theorem simulates_push (code : X.Ideal) (B : BlockSet) (decoder : DatagramFecDecoder X)
    (c : Collector UInt32 ℕ) (datagram : Bytes) (symbol : UInt32 × ℕ)
    (h : Simulates code B decoder c) (hsymbol : IsSymbol code.toSystematic B datagram symbol) :
    IsResult B (decoder.pushDatagram datagram).1 (c.push (DoneIn code B) DropsId symbol).1 ∧
      Simulates code B (decoder.pushDatagram datagram).2
        (c.push (DoneIn code B) DropsId symbol).2 := by
  obtain ⟨id, esi⟩ := symbol
  obtain ⟨block, hb, sequence, rfl, hcarries⟩ := hsymbol
  by_cases hclosed : block.id ∈ decoder.completed
  · rw [Collector.push_closed ((h.closed _).mpr hclosed), Holds.push_closed hcarries hclosed]
    exact ⟨rfl, h.observe sequence⟩
  have hopen : block.id ∉ c.closed := fun hc => hclosed ((h.closed _).mp hc)
  obtain ⟨held, hholds, hheld⟩ := h.held
  have hfed : ∃ header, block.Announces header := by
    obtain ⟨header, -, hannounces, -⟩ := hcarries.opens
    exact ⟨header, hannounces⟩
  obtain ⟨header, hannounces⟩ := hfed
  have hstate := hholds.blockFor hb hannounces
  obtain ⟨hsome, hnone⟩ := fed_next_eq code block hstate.esis_lt hcarries.esi_lt hstate.silent
  rw [hheld] at hsome hnone
  by_cases hdone : code.Decodable block.object.length block.symbolSize
      (insert esi (c.held block.id))
  · rw [Collector.push_fires hopen ((doneIn_iff hb).mpr hdone)]
    rcases hholds.push hb hcarries hclosed with ⟨hnext, -⟩ | ⟨object, hnext, hpush⟩
    · rw [hsome hdone] at hnext
      cases hnext
    · obtain rfl := Option.some.inj ((hsome hdone).symm.trans hnext)
      rw [hpush]
      exact ⟨⟨block, hb, rfl, rfl⟩, (h.observe sequence).expire block.id⟩
  · rw [Collector.push_waits hopen fun hd => hdone ((doneIn_iff hb).mp hd)]
    rcases hholds.push hb hcarries hclosed with ⟨-, hresult, hcompleted, hholds'⟩ |
      ⟨object, hnext, -⟩
    · refine ⟨hresult, ⟨_, hholds', fun id => ?_⟩, fun id => ?_⟩
      · by_cases hid : id = block.id
        · subst hid
          have hnew : (held block.id ++ [esi]).toFinset = insert esi (c.held block.id) := by
            rw [List.toFinset_append, hheld, Finset.union_comm]
            rfl
          exact ((congrArg List.toFinset
            (Function.update_self block.id (held block.id ++ [esi]) held)).trans hnew).trans
            (Function.update_self block.id (insert esi (c.held block.id)) c.held).symm
        · exact ((congrArg List.toFinset (Function.update_of_ne hid _ _)).trans (hheld id)).trans
            (Function.update_of_ne hid _ c.held).symm
      · rw [hcompleted]
        exact h.closed id
    · rw [hnone hdone] at hnext
      cases hnext

/-- A datagram of a block that is not closed adds its symbol to those held, or completes the
block. -/
lemma Simulates.push_cases {code : X.Ideal} {B : BlockSet} {decoder : DatagramFecDecoder X}
    {c : Collector UInt32 ℕ} (h : Simulates code B decoder c) (hb : block ∈ B)
    (hcarries : Carries code.toSystematic block sequence esi datagram)
    (hopen : block.id ∉ decoder.completed) :
    (¬ code.Decodable block.object.length block.symbolSize (insert esi (c.held block.id)) ∧
      (decoder.pushDatagram datagram).1 = .ok none ∧
      Simulates code B (decoder.pushDatagram datagram).2 { c with
        held := Function.update c.held block.id (insert esi (c.held block.id)) }) ∨
    (code.Decodable block.object.length block.symbolSize (insert esi (c.held block.id)) ∧
      (decoder.pushDatagram datagram).1 = .ok (some block.object) ∧
      Simulates code B (decoder.pushDatagram datagram).2 (c.close DropsId block.id)) := by
  have hc : block.id ∉ c.closed := fun hin => hopen ((h.closed _).mp hin)
  obtain ⟨hresult, hsim⟩ := simulates_push code B decoder c datagram (block.id, esi) h
    ⟨block, hb, sequence, rfl, hcarries⟩
  by_cases hdone : code.Decodable block.object.length block.symbolSize
      (insert esi (c.held block.id))
  · rw [Collector.push_fires hc ((doneIn_iff hb).mpr hdone)] at hresult hsim
    obtain ⟨block', hb', hid, hobject⟩ := hresult
    obtain rfl := BlockSet.eq_of_id hb' hb hid
    exact Or.inr ⟨hdone, hobject, hsim⟩
  · rw [Collector.push_waits hc fun hd => hdone ((doneIn_iff hb).mp hd)] at hresult hsim
    exact Or.inl ⟨hdone, hresult, hsim⟩

/-- **The decoder refines the collector** along every run of honest datagrams. -/
theorem simulates_run (code : X.Ideal) (B : BlockSet) {decoder : DatagramFecDecoder X}
    {c : Collector UInt32 ℕ} {datagrams : List Bytes} {symbols : List (UInt32 × ℕ)}
    (h : Simulates code B decoder c)
    (hsymbols : List.Forall₂ (IsSymbol code.toSystematic B) datagrams symbols) :
    List.Forall₂ (IsResult B) (runOutputs DatagramFecDecoder.pushDatagram decoder datagrams)
        (runOutputs (Collector.push (DoneIn code B) DropsId) c symbols) ∧
      Simulates code B (runState DatagramFecDecoder.pushDatagram decoder datagrams)
        (runState (Collector.push (DoneIn code B) DropsId) c symbols) :=
  run_simulates (R := Simulates code B) (I := IsSymbol code.toSystematic B) (O := IsResult B)
    (fun decoder c datagram symbol => simulates_push code B decoder c datagram symbol) h hsymbols

/-! ## Symbols on the wire -/

/-- The block id and the symbol id that a datagram carries, read off its bytes. -/
def wireSymbol (X : Crates) (datagram : Bytes) : Option (UInt32 × ℕ) :=
  match DatagramFecHeader.decode datagram with
  | .error _ => none
  | .ok header =>
      match header.payload X datagram with
      | .error _ => none
      | .ok payload => some (header.blockId, (X.deserialize payload).encodingSymbolId.toNat)

/-- The packet sequence in the header of a datagram. -/
def wireSequence (datagram : Bytes) : Option UInt32 :=
  (DatagramFecHeader.decode datagram).toOption.map (·.packetSequence)

/-- The distinct symbol ids of a block among some datagrams. -/
def survivingSymbols (X : Crates) (datagrams : List Bytes) (blockId : UInt32) : Finset ℕ :=
  (((datagrams.filterMap (wireSymbol X)).filter fun symbol => symbol.1 = blockId).map
    Prod.snd).toFinset

/-- A symbol survives when some datagram carries it. -/
lemma mem_survivingSymbols_iff {datagrams : List Bytes} {id : UInt32} {e : ℕ} :
    e ∈ survivingSymbols X datagrams id ↔
      ∃ datagram ∈ datagrams, wireSymbol X datagram = some (id, e) := by
  rw [survivingSymbols, List.mem_toFinset, List.mem_map]
  constructor
  · rintro ⟨symbol, hmem, rfl⟩
    obtain ⟨hwire, hid⟩ := List.mem_filter.mp hmem
    rw [← of_decide_eq_true hid]
    exact List.mem_filterMap.mp hwire
  · rintro ⟨datagram, hmem, hwire⟩
    exact ⟨(id, e), List.mem_filter.mpr ⟨List.mem_filterMap.mpr ⟨datagram, hmem, hwire⟩,
      decide_eq_true rfl⟩, rfl⟩

lemma wireSymbol_of_carries (h : Carries code block sequence esi datagram) :
    wireSymbol X datagram = some (block.id, esi) := by
  obtain ⟨header, hdecode, hpayload, hannounces, -⟩ := h.found
  have hback := code.deserialize_packet block.object block.symbolSize h.esi_lt
  rw [wireSymbol, hdecode]
  simp only [hpayload, hback, hannounces.blockId]
  rw [Crates.Systematic.packet, toNat_ofNat_esi h.esi_lt]

lemma wireSequence_of_carries (h : Carries code block sequence esi datagram) :
    wireSequence datagram = some sequence := by
  obtain ⟨header, hdecode, -, -, rfl⟩ := h.found
  rw [wireSequence, hdecode]
  rfl

/-- One more datagram adds the symbol it carries. -/
lemma survivingSymbols_snoc (h : Carries code block sequence esi datagram) (datagrams : List Bytes) :
    survivingSymbols X (datagrams ++ [datagram]) block.id
      = insert esi (survivingSymbols X datagrams block.id) := by
  have hone : [datagram].filterMap (wireSymbol X) = [(block.id, esi)] :=
    List.filterMap_cons_some (wireSymbol_of_carries h)
  rw [survivingSymbols, survivingSymbols, List.filterMap_append, hone, List.filter_append,
    List.map_append, List.toFinset_append, Finset.union_comm]
  simp

/-- A datagram of another block adds nothing. -/
lemma survivingSymbols_snoc_of_ne (h : Carries code block sequence esi datagram) {id : UInt32}
    (hne : block.id ≠ id) (datagrams : List Bytes) :
    survivingSymbols X (datagrams ++ [datagram]) id = survivingSymbols X datagrams id := by
  have hone : [datagram].filterMap (wireSymbol X) = [(block.id, esi)] :=
    List.filterMap_cons_some (wireSymbol_of_carries h)
  have hother : [(block.id, esi)].filter (fun symbol => symbol.1 = id) = [] := by
    simp [hne]
  rw [survivingSymbols, survivingSymbols, List.filterMap_append, hone, List.filter_append, hother,
    List.append_nil]

/-- The symbols read off honest datagrams are the symbols they carry. -/
lemma mem_survivingSymbols {B : BlockSet} {datagrams : List Bytes} {symbols : List (UInt32 × ℕ)}
    (h : List.Forall₂ (IsSymbol code B) datagrams symbols) {id : UInt32} {e : ℕ} :
    e ∈ survivingSymbols X datagrams id ↔ (id, e) ∈ symbols := by
  have hwire : datagrams.filterMap (wireSymbol X) = symbols := by
    induction h with
    | nil => rfl
    | cons hsymbol _ ih =>
        obtain ⟨block, -, sequence, hid, hcarries⟩ := hsymbol
        rw [List.filterMap_cons_some ((wireSymbol_of_carries hcarries).trans
          (congrArg (fun i => some (i, _)) hid)), ih]
  rw [survivingSymbols, hwire, List.mem_toFinset, List.mem_map]
  constructor
  · rintro ⟨⟨id', e'⟩, hmem, rfl⟩
    obtain ⟨hsymbol, hid⟩ := List.mem_filter.mp hmem
    obtain rfl : id' = id := of_decide_eq_true hid
    exact hsymbol
  · exact fun hmem => ⟨(id, e), List.mem_filter.mpr ⟨hmem, decide_eq_true rfl⟩, rfl⟩

end RaptorFec
