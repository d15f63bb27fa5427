import RaptorFec.Datagram.Lossy
import RaptorFec.Datagram.Profile
import RaptorFec.Datagram.Repair

/-!
# One block from two encoders

A repair encoder is made for a block that a `DatagramFecEncoder` sent.  It takes the profile of the
block from one of its datagrams and the bytes that the block carries, and emits further datagrams
of the block when it is asked to.  A decoder does not know which encoder a datagram is from.

* `RepairPackets.OfCode` — what is assumed of the crate: the repair packets are those of the code;
* `carries_of_mem_emitted` — whatever calls are made, each datagram carries a symbol of the block;
* `OnDemand` — the datagrams that repair encoders emit for the blocks of some pieces;
* `encodeAdditional_recovered` — what a decoder returns of the datagrams of both.
-/

namespace RaptorFec

variable {X : Crates} {repairPackets : RepairPackets}

/-! ## The datagrams of a repair encoder -/

/-- Repair packets carry the symbols behind the source symbols, from a start on. -/
def RepairPackets.OfCode (repairPackets : RepairPackets) (code : X.Systematic) : Prop :=
  ∀ object symbolSize (start count : UInt32), OneBlock object symbolSize →
    symbolsFor object.length symbolSize + start.toNat + count.toNat ≤ esiLimit →
    repairPackets object (oneBlockOti object symbolSize) start count
      = (List.range count.toNat).map fun i =>
          code.packet object symbolSize (symbolsFor object.length symbolSize + start.toNat + i)

/-- The profile that the datagrams of the block announce. -/
def SourceBlock.profile (block : SourceBlock) : RaptorQBlockProfile :=
  ⟨block.id, UInt32.ofNat block.object.length, UInt16.ofNat block.sourceSymbols, block.symbolSize⟩

section Block

variable {code : X.Systematic} {block : SourceBlock} {datagram : Bytes} {sequence : UInt32} {esi : ℕ}

lemma symbolPacket (code : X.Systematic) {object : Bytes} {symbolSize : UInt16}
    (hone : OneBlock object symbolSize) (hesi : esi < esiLimit) :
    SymbolPacket symbolSize esi (code.packet object symbolSize esi) :=
  ⟨rfl, toNat_ofNat_esi hesi, code.length_symbol _ _ _ hone⟩

lemma RepairPackets.OfCode.consecutive (h : repairPackets.OfCode code) :
    repairPackets.Consecutive := by
  intro object symbolSize start count hone hroom
  exact ⟨_, h object symbolSize start count hone hroom,
    fun i hi => symbolPacket code hone (by omega)⟩

/-- The profile can be read off each datagram of the block. -/
lemma fromDatagram_of_carries (h : Carries code block sequence esi datagram) :
    RaptorQBlockProfile.fromDatagram X datagram = .ok block.profile := by
  obtain ⟨header, hopens, hannounces, -⟩ := h.opens
  have hlength : (code.packet block.object block.symbolSize esi).data.length
      = header.symbolSize.toNat := by
    rw [hannounces.symbolSize]
    exact code.length_symbol _ _ _ block.one
  have hprofile : header.profile = block.profile := by
    rw [DatagramFecHeader.profile, hannounces.blockId, hannounces.transferLength,
      hannounces.sourceSymbols, hannounces.symbolSize, SourceBlock.profile]
  have hnumber : (code.packet block.object block.symbolSize esi).sourceBlockNumber = 0 := rfl
  rw [RaptorQBlockProfile.fromDatagram_of_opens hopens, if_neg (not_not.mpr hnumber),
    if_neg (not_not.mpr hlength), hprofile]

namespace RaptorQRepairEncoder

variable {self : RaptorQRepairEncoder}

/-- A call that succeeds emits datagrams of the block, with symbols behind those emitted before. -/
lemma mem_encodeAdditional (hrepair : repairPackets.OfCode code)
    (h : Ready block.object block.profile self) {repairSymbols : UInt32} {datagrams : List Bytes}
    (hcall : (self.encodeAdditional X repairPackets repairSymbols).1 = .ok datagrams)
    (hmem : datagram ∈ datagrams) :
    ∃ sequence esi, block.sourceSymbols + self.nextRepairSymbol.toNat ≤ esi ∧
      Carries code block sequence esi datagram := by
  have hsymbols : block.profile.sourceSymbols.toNat = block.sourceSymbols :=
    block.toNat_sourceSymbols
  rcases encodeAdditional_cases code hrepair.consecutive h repairSymbols with ⟨error, herror⟩ |
    ⟨hroom, -⟩
  · rw [herror] at hcall
    cases hcall
  have hlimit : block.sourceSymbols + self.nextRepairSymbol.toNat + repairSymbols.toNat
      ≤ esiLimit := by
    rw [hsymbols] at hroom
    omega
  have hrange := validateRepairSymbolRange_eq_ok_iff.mpr hroom
  have hpackets : repairPackets block.object (oneBlockOti block.object block.profile.symbolSize)
      self.nextRepairSymbol repairSymbols = (List.range repairSymbols.toNat).map fun i =>
        code.packet block.object block.symbolSize
          (block.sourceSymbols + self.nextRepairSymbol.toNat + i) :=
    hrepair block.object block.symbolSize self.nextRepairSymbol repairSymbols block.one hlimit
  have hloop := encodePackets_range code h.geometry (fun i => code.packet block.object
    block.symbolSize (block.sourceSymbols + self.nextRepairSymbol.toNat + i)) _ repairSymbols.toNat
    self.nextPacketSequence fun i hi => symbolPacket code block.one (by omega)
  rw [encodeAdditional] at hcall
  split_ifs at hcall with hcount
  simp only [h.profile_eq, h.encoder_eq] at hcall
  split_ifs at hcall with hbytes
  simp only [hrange, hpackets, hloop] at hcall
  obtain rfl := Except.ok.inj hcall
  obtain ⟨i, hi, rfl⟩ := List.mem_map.mp hmem
  have hi := List.mem_range.mp hi
  exact ⟨_, _, Nat.le_add_right _ i, carries_datagram code block _ (by omega)⟩

/-- **Every datagram of a run of calls** carries a symbol of the block, behind its source symbols
and the repair symbols that were emitted before. -/
theorem carries_of_mem_emitted (hrepair : repairPackets.OfCode code) {already next : UInt32}
    (hnew : new block.object block.profile already next = .ok self) (requests : List UInt32)
    (hmem : datagram ∈ emitted (runOutputs (encodeAdditional X repairPackets) self requests)) :
    ∃ sequence esi, block.sourceSymbols + already.toNat ≤ esi ∧
      Carries code block sequence esi datagram := by
  obtain ⟨result, hresult, hin⟩ := List.mem_flatMap.mp hmem
  obtain ⟨past, repairSymbols, -, rfl⟩ := exists_step_of_mem_runOutputs _ hresult
  obtain ⟨hready, hemitted⟩ := emitted_run code hrepair.consecutive hnew past
  cases hcall : ((runState (encodeAdditional X repairPackets) self past).encodeAdditional X
      repairPackets repairSymbols).1 with
  | error error =>
      rw [hcall] at hin
      cases hin
  | ok datagrams =>
      rw [hcall] at hin
      obtain ⟨sequence, esi, hbehind, hcarries⟩ := mem_encodeAdditional hrepair hready hcall hin
      rw [hemitted.nextRepairSymbol] at hbehind
      exact ⟨sequence, esi, by omega, hcarries⟩

end RaptorQRepairEncoder

end Block

/-! ## The datagrams of both encoders -/

section Both

variable (X repairPackets) in
/-- A datagram that a repair encoder emits for the block of one of the pieces.  The encoder was made
for the profile of a datagram that was sent and for the piece of its block, behind `already` repair
symbols. -/
def OnDemand (encoder : DatagramFecEncoder) (pieces datagrams : List Bytes) (already : UInt32)
    (datagram : Bytes) : Prop :=
  ∃ first ∈ datagrams, ∃ profile, RaptorQBlockProfile.fromDatagram X first = .ok profile ∧
    ∃ (i : ℕ) (source : Bytes), pieces[i]? = some source ∧
      profile.blockId = encoder.blockId + UInt32.ofNat i ∧
      ∃ next self, RaptorQRepairEncoder.new source profile already next = .ok self ∧
        ∃ requests, datagram ∈ RaptorQRepairEncoder.emitted
          (runOutputs (RaptorQRepairEncoder.encodeAdditional X repairPackets) self requests)

variable {code : X.Systematic} {encoder : DatagramFecEncoder} {pieces datagrams : List Bytes}
  {blocks : List SourceBlock} {datagram : Bytes}

/-- A datagram that is emitted on demand carries a symbol of one of the blocks, too. -/
lemma PiecesSent.carries_onDemand (h : PiecesSent code encoder pieces datagrams blocks)
    (hids : (blocks.map SourceBlock.id).Nodup) (hrepair : repairPackets.OfCode code)
    {already : UInt32}
    (hdemand : OnDemand X repairPackets encoder pieces datagrams already datagram) :
    ∃ block ∈ blocks, ∃ sequence esi, block.sourceSymbols + already.toNat ≤ esi ∧
      Carries code block sequence esi datagram := by
  obtain ⟨first, hfirst, profile, hprofile, i, source, hsource, hid, next, self, hnew, requests,
    hmem⟩ := hdemand
  obtain ⟨block, hb, sequence, esi, -, hcarries⟩ := h.carries hids hfirst
  rw [fromDatagram_of_carries hcarries] at hprofile
  obtain rfl := Except.ok.inj hprofile
  -- the piece is the object of the block, which has the id of the profile
  obtain ⟨other, hother, heq⟩ := h.mem_iff.mpr ⟨i, hsource, hid⟩
  obtain ⟨hsame, rfl⟩ := Prod.mk.inj heq
  obtain rfl := List.inj_on_of_nodup_map hids hb hother hsame
  obtain ⟨sequence, esi, hbehind, hcarries⟩ :=
    RaptorQRepairEncoder.carries_of_mem_emitted hrepair hnew requests hmem
  exact ⟨block, hb, sequence, esi, hbehind, hcarries⟩

/-- **What arrives of both encoders.**  Payloads that are not empty are sent, and repair encoders are
made for some of their blocks and asked for more datagrams, any number of times.  A fresh decoder
gets some of all these datagrams, over a path that may lose, repeat and reorder them as long as
between two datagrams of a block there arrives none of a block that does not retain it (`Uncut`).
It reports no error and returns, each at most once, exactly those pieces of the payloads whose
blocks have decodable symbols among the datagrams that arrive, from whichever encoder.  And a repair
encoder that was made behind the repair symbols of the encoder adds symbols that were not sent
before. -/
theorem encodeAdditional_recovered (code : X.Ideal)
    (hrepair : repairPackets.OfCode code.toSystematic) {payloads : List Bytes}
    (hcalls : AcceptedCalls (EncodesPayload X) encoder payloads datagrams)
    (hfew : (encoder.pieces payloads).length ≤ 2 ^ 32) (arrivals : List Bytes)
    (harrivals : ∀ datagram ∈ arrivals, datagram ∈ datagrams ∨ ∃ already,
      OnDemand X repairPackets encoder (encoder.pieces payloads) datagrams already datagram)
    (huncut : Uncut X arrivals) :
    let outputs := runOutputs DatagramFecDecoder.pushDatagram
      (DatagramFecDecoder.new : DatagramFecDecoder X) arrivals
    (∀ output ∈ outputs, ∃ returned, output = .ok returned) ∧
      ((returnedBlocks X arrivals outputs).map Prod.fst).Nodup ∧
      (∀ id object, (id, object) ∈ returnedBlocks X arrivals outputs ↔
        (∃ i, (encoder.pieces payloads)[i]? = some object ∧
          id = encoder.blockId + UInt32.ofNat i) ∧
          (survivingSymbols X arrivals id).Nonempty ∧
          code.Decodable object.length (max encoder.config.symbolSize 1)
            (survivingSymbols X arrivals id)) ∧
      ∀ already datagram, encoder.config.repairSymbols ≤ already →
        OnDemand X repairPackets encoder (encoder.pieces payloads) datagrams already datagram →
        ∀ sent ∈ datagrams, wireSymbol X sent ≠ wireSymbol X datagram := by
  intro outputs
  obtain ⟨blocks, hsent⟩ := sent_of_calls code.toSystematic hcalls
  have hids := hsent.nodup hfew
  have hcarries : ∀ datagram ∈ arrivals, ∃ block ∈ blocks, ∃ sequence esi,
      Carries code.toSystematic block sequence esi datagram := by
    intro datagram hdatagram
    rcases harrivals datagram hdatagram with hfirst | ⟨already, hdemand⟩
    · obtain ⟨block, hb, sequence, esi, -, hcarries⟩ := hsent.carries hids hfirst
      exact ⟨block, hb, sequence, esi, hcarries⟩
    · obtain ⟨block, hb, sequence, esi, -, hcarries⟩ := hsent.carries_onDemand hids hrepair hdemand
      exact ⟨block, hb, sequence, esi, hcarries⟩
  obtain ⟨hok, hnodup, hmem⟩ := hsent.returned_of_carries code hids hcarries huncut
  refine ⟨hok, hnodup, hmem, fun already datagram hbehind hdemand sent hfirst heq => ?_⟩
  obtain ⟨block, hb, _, esi, hlt, hcarriesFirst⟩ := hsent.carries hids hfirst
  obtain ⟨other, hother, _, esi', hle, hcarriesDemand⟩ :=
    hsent.carries_onDemand hids hrepair hdemand
  rw [wireSymbol_of_carries hcarriesFirst, wireSymbol_of_carries hcarriesDemand] at heq
  obtain ⟨hid, rfl⟩ := Prod.mk.inj (Option.some.inj heq)
  obtain rfl := List.inj_on_of_nodup_map hids hb hother hid
  have := UInt32.le_iff_toNat_le.mp hbehind
  omega

end Both

/-! ### A lost source symbol -/

lemma Repetition.ofCode_repairPackets :
    Repetition.repairPackets.OfCode repetitionIdeal.toSystematic :=
  fun _ _ _ _ _ _ => rfl

/-- A repair encoder for the first of two blocks, behind its one repair symbol. -/
def firstBlockEncoder : RaptorQRepairEncoder := ⟨⟨7, 2, 2, 1⟩, ([1, 2], ⟨2, 1, 1, 1, 1⟩), 1, 100⟩

/-- One more datagram of the first block. -/
def oneMore : List Bytes :=
  RaptorQRepairEncoder.emitted (runOutputs
    (RaptorQRepairEncoder.encodeAdditional repetition Repetition.repairPackets) firstBlockEncoder [1])

/-- One source symbol of the first block arrives, and one symbol that was asked for. -/
theorem encodeAdditional_recovered_one :
    ∃ (datagrams : List Bytes) (encoder : DatagramFecEncoder) (pool : Option DatagramBufferPool),
      let arrivals := pick datagrams [0] ++ oneMore
      DatagramFecEncoder.encodePayload repetition ⟨7, 9, ⟨2, 1, 1⟩⟩ [1, 2, 3] none
        = some (.ok datagrams, encoder, pool) ∧
      (7, [1, 2]) ∈ returnedBlocks repetition arrivals (runOutputs DatagramFecDecoder.pushDatagram
        (DatagramFecDecoder.new : DatagramFecDecoder repetition) arrivals) := by
  have hok : (DatagramFecEncoder.encodePayload repetition ⟨7, 9, ⟨2, 1, 1⟩⟩ [1, 2, 3] none).map
      (fun result => (result.1.toOption.map fun datagrams =>
        ((pick datagrams [0]).map fun first =>
            (RaptorQBlockProfile.fromDatagram repetition first).toOption,
          blockIds repetition (pick datagrams [0] ++ oneMore),
          survivingSymbols repetition (pick datagrams [0] ++ oneMore) 7)))
      = some (some ([some ⟨7, 2, 2, 1⟩], [7, 7], {0, 3})) := by
    decide +kernel
  obtain ⟨⟨result, encoder, pool⟩, hcall, hresult⟩ := Option.map_eq_some_iff.mp hok
  obtain ⟨datagrams, hdatagrams, hresult⟩ := Option.map_eq_some_iff.mp hresult
  obtain ⟨hprofiles, hresult⟩ := Prod.mk.inj hresult
  obtain ⟨hids, hsymbols⟩ := Prod.mk.inj hresult
  obtain rfl : result = .ok datagrams := by
    cases result with
    | error error => cases hdatagrams
    | ok sent => exact congrArg Except.ok (Option.some.inj hdatagrams)
  have hcalls : AcceptedCalls (EncodesPayload repetition) ⟨7, 9, ⟨2, 1, 1⟩⟩ [[1, 2, 3]]
      datagrams :=
    List.append_nil datagrams ▸ .accepted ⟨by decide, _, _, Or.inl hcall⟩ (.nil encoder)
  obtain ⟨first, hfirst, hprofile⟩ : ∃ first ∈ pick datagrams [0],
      (RaptorQBlockProfile.fromDatagram repetition first).toOption = some ⟨7, 2, 2, 1⟩ := by
    have hmem : some ⟨7, 2, 2, 1⟩ ∈ (pick datagrams [0]).map fun first =>
        (RaptorQBlockProfile.fromDatagram repetition first).toOption := hprofiles ▸ by simp
    exact List.mem_map.mp hmem
  have hprofile : RaptorQBlockProfile.fromDatagram repetition first = .ok ⟨7, 2, 2, 1⟩ := by
    cases hread : RaptorQBlockProfile.fromDatagram repetition first with
    | error error =>
        rw [hread] at hprofile
        cases hprofile
    | ok profile =>
        rw [hread] at hprofile
        exact congrArg Except.ok (Option.some.inj hprofile)
  have harrivals : ∀ datagram ∈ pick datagrams [0] ++ oneMore, datagram ∈ datagrams ∨
      ∃ already, OnDemand repetition Repetition.repairPackets ⟨7, 9, ⟨2, 1, 1⟩⟩
        (DatagramFecEncoder.pieces ⟨7, 9, ⟨2, 1, 1⟩⟩ [[1, 2, 3]]) datagrams already datagram := by
    intro datagram hdatagram
    rcases List.mem_append.mp hdatagram with hsent | hmore
    · exact Or.inl (mem_of_mem_pick datagram hsent)
    · exact Or.inr ⟨1, first, mem_of_mem_pick first hfirst, _, hprofile, 0, [1, 2], rfl, rfl, 100,
        firstBlockEncoder, rfl, [1], hmore⟩
  obtain ⟨-, -, hiff, -⟩ := encodeAdditional_recovered repetitionIdeal
    Repetition.ofCode_repairPackets hcalls (by decide) _ harrivals
    (uncut_of_retained hids (by decide))
  refine ⟨datagrams, encoder, pool, hcall, (hiff _ _).mpr ⟨⟨0, rfl, rfl⟩, ?_⟩⟩
  rw [hsymbols]
  refine ⟨⟨0, by decide⟩, fun i hi => ?_⟩
  have hi : i < 2 := hi
  obtain rfl | rfl : i = 0 ∨ i = 1 := by omega
  · exact ⟨0, by decide, rfl⟩
  · exact ⟨3, by decide, rfl⟩

end RaptorFec
