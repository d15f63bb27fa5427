import RaptorFec.Datagram.Repair
import RaptorFec.Datagram.Window

/-!
# Profiles and the decoder

`RaptorQBlockProfile::from_datagram` repeats the checks of `push_datagram` on a datagram.

* `rejected_or_opens` — what does not open is rejected by both, with one error;
* `fromDatagram_of_opens` — the profile of what opens;
* `fromDatagram_agrees` — a decoder that has not closed the block of the datagram, and does not
  hold it with another geometry, accepts what `from_datagram` accepts, and feeds it to a block with
  the profile that `from_datagram` returns.
-/

namespace RaptorFec

variable {X : Crates}

/-- Whether a call succeeds, and its error if not. -/
def verdict {ε α : Type} (result : Except ε α) : Except ε Unit := result.map fun _ => ()

@[simp] lemma verdict_ok {ε α : Type} (a : α) : verdict (.ok a : Except ε α) = .ok () := rfl

@[simp] lemma verdict_error {ε α : Type} (error : ε) :
    verdict (.error error : Except ε α) = .error error := rfl

/-- The profile of a block that is held under an id. -/
def BlockState.profile (block : BlockState X) (blockId : UInt32) : RaptorQBlockProfile :=
  ⟨blockId, block.transferLength, block.sourceSymbols, block.symbolSize⟩

/-- The profile that a header announces. -/
def DatagramFecHeader.profile (header : DatagramFecHeader) : RaptorQBlockProfile :=
  ⟨header.blockId, header.transferLength, header.sourceSymbols, header.symbolSize⟩

/-! ## The checks of `from_datagram` -/

namespace RaptorQBlockProfile

variable {datagram : Bytes} {header : DatagramFecHeader} {packet : EncodingPacket}

/-- The checks of `from_header` were made by `decode`. -/
lemma fromHeader_of_valid (h : header.Valid) : fromHeader header = .ok header.profile := by
  rw [fromHeader, DatagramFecHeader.validateFields_eq_ok_iff.mpr h, ok_bind, new,
    validateOneBlockGeometry_eq_ok_iff.mpr h.geometry, ok_bind]
  rfl

/-- The profile of a datagram that opens. -/
lemma fromDatagram_of_opens (h : Opens X datagram header packet) :
    fromDatagram X datagram
      = if packet.sourceBlockNumber ≠ 0 then
          .error (.unsupportedSourceBlockNumber packet.sourceBlockNumber)
        else if packet.data.length ≠ header.symbolSize.toNat then
          .error (.symbolSizeMismatch header.symbolSize.toNat packet.data.length)
        else .ok header.profile := by
  obtain ⟨payload, hpayload, hlong, rfl⟩ := h.payload
  have hlen := DatagramFecHeader.length_of_payload hpayload
  have hvalid := (DatagramFecHeader.decode_eq_ok_iff.mp h.decode).1
  rw [fromDatagram, if_neg (by omega), h.decode, ok_bind, hpayload, ok_bind,
    if_neg (Nat.not_lt.mpr hlong), fromHeader_of_valid hvalid]

/-- What does not open is rejected by `from_datagram` and by every decoder, with one error. -/
lemma rejected_or_opens (X : Crates) (datagram : Bytes) :
    (∃ header packet, Opens X datagram header packet) ∨
      ∃ error, fromDatagram X datagram = .error error ∧
        ∀ decoder : DatagramFecDecoder X,
          decoder.pushDatagram datagram = (.error error, decoder) := by
  by_cases hshort : datagram.length < headerLen + encodingPacketHeaderLen
  · refine Or.inr ⟨_, by rw [fromDatagram, if_pos hshort], fun decoder => ?_⟩
    rw [DatagramFecDecoder.pushDatagram, if_pos hshort]
  cases hdecode : DatagramFecHeader.decode datagram with
  | error error =>
      refine Or.inr ⟨error, ?_, fun decoder => ?_⟩
      · rw [fromDatagram, if_neg hshort, hdecode]
        rfl
      · rw [DatagramFecDecoder.pushDatagram, if_neg hshort, hdecode]
  | ok header =>
      cases hpayload : header.payload X datagram with
      | error error =>
          refine Or.inr ⟨error, ?_, fun decoder => ?_⟩
          · rw [fromDatagram, if_neg hshort, hdecode, ok_bind, hpayload]
            rfl
          · rw [DatagramFecDecoder.pushDatagram, if_neg hshort, hdecode]
            simp only [hpayload]
      | ok payload =>
          by_cases hlong : payload.length < encodingPacketHeaderLen
          · refine Or.inr ⟨.packetTooShort datagram.length, ?_, fun decoder => ?_⟩
            · rw [fromDatagram, if_neg hshort, hdecode, ok_bind, hpayload, ok_bind, if_pos hlong]
            · rw [DatagramFecDecoder.pushDatagram, if_neg hshort, hdecode]
              simp only [hpayload, if_pos hlong]
          · exact Or.inl ⟨header, _, hdecode, payload, hpayload, Nat.not_lt.mp hlong, rfl⟩

end RaptorQBlockProfile

/-! ## The checks of the decoder -/

namespace DatagramFecDecoder

variable {self : DatagramFecDecoder X} {datagram : Bytes} {header : DatagramFecHeader}
  {packet : EncodingPacket}

/-- The block of the header is not closed, and not held with another geometry. -/
structure Open (decoder : DatagramFecDecoder X) (header : DatagramFecHeader) : Prop where
  notClosed : header.blockId ∉ decoder.completed
  agrees : ∀ block ∈ decoder.blocks.lookup header.blockId, ¬ block.Conflicts header

/-- The push feeds the packet of the datagram to a block with this profile, which is the live block
or a new one. -/
def Feeds (self : DatagramFecDecoder X) (datagram : Bytes) (profile : RaptorQBlockProfile) : Prop :=
  ∃ header packet block, Opens X datagram header packet ∧
    block.profile profile.blockId = profile ∧
    (self.blocks.lookup profile.blockId = some block ∨
      self.blocks.lookup profile.blockId = none ∧ block.decoder = X.newDecoder profile.oti) ∧
    match X.decode block.decoder packet with
    | (none, decoder) => (self.pushDatagram datagram).1 = .ok none ∧
        (self.pushDatagram datagram).2.blocks.lookup profile.blockId
          = some { block with decoder := decoder }
    | (some object, _) => (self.pushDatagram datagram).1 = .ok (some object)

/-- The block a packet is fed to has the geometry of the header. -/
lemma Open.profile_blockFor (h : self.Open header) :
    (self.blockFor header).profile header.blockId = header.profile := by
  rw [blockFor]
  cases hlookup : self.blocks.lookup header.blockId with
  | none => rfl
  | some block =>
      have hagrees := h.agrees block hlookup
      rw [BlockState.Conflicts] at hagrees
      simp only [not_or, not_not] at hagrees
      simp only [Option.getD_some, BlockState.profile, DatagramFecHeader.profile, hagrees]

/-- The block a packet is fed to is the live block, or a new one. -/
lemma blockFor_cases (self : DatagramFecDecoder X) (header : DatagramFecHeader) :
    self.blocks.lookup header.blockId = some (self.blockFor header) ∨
      self.blocks.lookup header.blockId = none ∧
        (self.blockFor header).decoder = X.newDecoder header.profile.oti := by
  rw [blockFor]
  cases hlookup : self.blocks.lookup header.blockId with
  | none => exact Or.inr ⟨rfl, rfl⟩
  | some block => exact Or.inl rfl

/-- What passes the checks is fed to its block. -/
lemma Open.feeds (h : self.Open header) (hopens : Opens X datagram header packet)
    (hnumber : packet.sourceBlockNumber = 0)
    (hlength : packet.data.length = header.symbolSize.toNat) :
    self.Feeds datagram header.profile ∧ verdict (self.pushDatagram datagram).1 = .ok () := by
  have haccepts : (self.observe header.packetSequence).Accepts header packet :=
    ⟨hnumber, hlength, fun ⟨block, hblock, hconflicts⟩ => h.agrees block hblock hconflicts⟩
  have hpush := pushDatagram_of_opens self hopens
  rw [if_neg h.notClosed] at hpush
  cases hdecode : X.decode (self.blockFor header).decoder packet with
  | mk result decoder =>
      cases result with
      | none =>
          have hwaits := pushPacket_waits haccepts (congrArg Prod.fst hdecode)
          rw [hwaits] at hpush
          refine ⟨⟨header, packet, self.blockFor header, hopens, h.profile_blockFor,
            self.blockFor_cases header, ?_⟩, by rw [hpush]; rfl⟩
          rw [hdecode, hpush]
          refine ⟨rfl, (Finmap.lookup_insert _).trans ?_⟩
          change some { self.blockFor header with
            decoder := (X.decode (self.blockFor header).decoder packet).2 } = _
          rw [hdecode]
      | some object =>
          have hcompletes : (self.observe header.packetSequence).Completes header packet :=
            ⟨haccepts, by change (X.decode (self.blockFor header).decoder packet).1.isSome = true
                          rw [hdecode]; rfl⟩
          obtain ⟨decoded, hdecoded, hreturns⟩ := pushPacket_completes hcompletes
          obtain rfl := Option.some.inj (hdecoded.symm.trans (congrArg Prod.fst hdecode))
          rw [hreturns] at hpush
          refine ⟨⟨header, packet, self.blockFor header, hopens, h.profile_blockFor,
            self.blockFor_cases header, ?_⟩, by rw [hpush]; rfl⟩
          rw [hdecode, hpush]

/-- What fails a check on the packet is rejected with the error of that check. -/
lemma Open.verdict_eq (h : self.Open header) (hopens : Opens X datagram header packet) :
    verdict (self.pushDatagram datagram).1
      = verdict (RaptorQBlockProfile.fromDatagram X datagram) := by
  rw [RaptorQBlockProfile.fromDatagram_of_opens hopens]
  by_cases hnumber : packet.sourceBlockNumber ≠ 0
  · rw [pushDatagram_of_opens self hopens, if_neg h.notClosed, pushPacket, if_pos hnumber,
      if_pos hnumber]
    rfl
  by_cases hlength : packet.data.length ≠ header.symbolSize.toNat
  · rw [pushDatagram_of_opens self hopens, if_neg h.notClosed, pushPacket, if_neg hnumber,
      if_pos hlength, if_neg hnumber, if_pos hlength]
    rfl
  rw [(h.feeds hopens (not_not.mp hnumber) (not_not.mp hlength)).2, if_neg hnumber, if_neg hlength]
  rfl

lemma open_new (header : DatagramFecHeader) : (new : DatagramFecDecoder X).Open header where
  notClosed := Finset.notMem_empty _
  agrees block h := by
    rw [new, Finmap.lookup_empty] at h
    cases h

/-- What `from_datagram` accepts passes the checks on the packet. -/
lemma Open.feeds_of_fromDatagram (h : self.Open header) (hopens : Opens X datagram header packet)
    {profile : RaptorQBlockProfile}
    (hprofile : RaptorQBlockProfile.fromDatagram X datagram = .ok profile) :
    self.Feeds datagram profile := by
  rw [RaptorQBlockProfile.fromDatagram_of_opens hopens] at hprofile
  split_ifs at hprofile with hnumber hlength
  obtain rfl := Except.ok.inj hprofile
  exact (h.feeds hopens (not_not.mp hnumber) (not_not.mp hlength)).1

/-- **`from_datagram` agrees with the decoder.**  A fresh decoder accepts what `from_datagram`
accepts, and rejects the rest with its error.  So does every decoder that has not closed the block
of the datagram and does not hold it with another geometry; and it feeds what it accepts to a block
with the profile that `from_datagram` returns. -/
theorem fromDatagram_agrees (X : Crates) (datagram : Bytes) :
    verdict ((new : DatagramFecDecoder X).pushDatagram datagram).1
        = verdict (RaptorQBlockProfile.fromDatagram X datagram) ∧
      ∀ self : DatagramFecDecoder X,
        (∀ header, DatagramFecHeader.decode datagram = .ok header → self.Open header) →
        verdict (self.pushDatagram datagram).1
            = verdict (RaptorQBlockProfile.fromDatagram X datagram) ∧
          ∀ profile, RaptorQBlockProfile.fromDatagram X datagram = .ok profile →
            self.Feeds datagram profile := by
  rcases RaptorQBlockProfile.rejected_or_opens X datagram with ⟨header, packet, hopens⟩ |
    ⟨error, hprofile, hreject⟩
  · refine ⟨(open_new header).verdict_eq hopens, fun self hopen => ?_⟩
    have h := hopen header hopens.decode
    exact ⟨h.verdict_eq hopens, fun profile hprofile => h.feeds_of_fromDatagram hopens hprofile⟩
  · refine ⟨by rw [hreject, hprofile]; rfl, fun self _ => ⟨by rw [hreject, hprofile]; rfl, ?_⟩⟩
    intro profile hok
    cases hprofile.symm.trans hok

/-- A decoder that closed block 3, and a datagram of block 5. -/
theorem fromDatagram_agrees_five :
    verdict ((runState step (new : DatagramFecDecoder repetition)
        [.push (byteDatagram 3 0)]).pushDatagram (byteDatagram 5 1)).1
          = verdict (RaptorQBlockProfile.fromDatagram repetition (byteDatagram 5 1)) ∧
      (runState step (new : DatagramFecDecoder repetition)
        [.push (byteDatagram 3 0)]).Feeds (byteDatagram 5 1) ⟨5, 1, 1, 1⟩ := by
  have hid : (DatagramFecHeader.decode (byteDatagram 5 1)).toOption.map (·.blockId) = some 5 := by
    decide +kernel
  have hclosed : (5 : UInt32) ∉ (runState step (new : DatagramFecDecoder repetition)
      [.push (byteDatagram 3 0)]).completed := by
    decide +kernel
  have hlive : ((runState step (new : DatagramFecDecoder repetition)
      [.push (byteDatagram 3 0)]).blocks.lookup 5).isNone := by
    decide +kernel
  have hprofile : RaptorQBlockProfile.fromDatagram repetition (byteDatagram 5 1)
      = .ok ⟨5, 1, 1, 1⟩ := by
    decide +kernel
  have hagrees := (fromDatagram_agrees repetition (byteDatagram 5 1)).2
    (runState step new [.push (byteDatagram 3 0)]) fun header hdecode => by
      rw [hdecode] at hid
      have heq : header.blockId = 5 := Option.some.inj hid
      refine ⟨by rw [heq]; exact hclosed, fun block hblock => ?_⟩
      rw [heq, Option.isNone_iff_eq_none.mp hlive] at hblock
      cases hblock
  exact ⟨hagrees.1, hagrees.2 _ hprofile⟩

end DatagramFecDecoder

end RaptorFec
