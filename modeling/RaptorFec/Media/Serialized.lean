import RaptorFec.Media.Arrivals

/-!
# Access units without a frame decoder

`decode_serialized_media_access_unit` reads a frame from the bytes of one object, without the state
of a `MediaFecDecoder`: the fragment header in front of them has to be that of an only fragment.

* `decodeSerialized_agrees` — on any bytes it reads what a `MediaFecDecoder` returns when these
  bytes are the first object of their frame, except that it also looks at the fragment offset;
* `serialized_recovered` — which frames it reads of the objects that a datagram decoder returns.
-/

namespace RaptorFec

@[ext]
structure SerializedMediaAccessUnit where
  metadata : MediaFrameMetadata
  payload : Bytes
  deriving DecidableEq, Repr

/-- `decode_serialized_media_access_unit`. -/
def decodeSerializedMediaAccessUnit (bytes : Bytes) :
    Except String (Option SerializedMediaAccessUnit) :=
  if bytes.length < mediaFrameHeaderLen then .ok none
  else
    match MediaFragmentHeader.decode (bytes.take mediaFrameHeaderLen) with
    | .error _ => .ok none
    | .ok header =>
        if header.fragmentIndex ≠ 0 ∨ header.fragmentCount ≠ 1 ∨ header.fragmentOffset ≠ 0 then
          .ok none
        -- the checked subtraction
        else if bytes.length < mediaFrameHeaderLen then .error "media access-unit frame underflow"
        else
          let payloadLen := bytes.length - mediaFrameHeaderLen
          let accessUnitLen := header.accessUnitLen.toNat
          if accessUnitLen ≠ payloadLen then
            .error s!"media access-unit payload length mismatch: header={accessUnitLen}, body={payloadLen}"
          else .ok (some ⟨header.metadata, bytes.drop mediaFrameHeaderLen⟩)

section Agreement

variable {bytes : Bytes} {header : MediaFragmentHeader} {self : FrameAssembly}

/-- The header is that of an only fragment. -/
def MediaFragmentHeader.Only (header : MediaFragmentHeader) : Prop :=
  header.fragmentIndex = 0 ∧ header.fragmentCount = 1

/-- What is read behind the header of an only fragment. -/
lemma decodeSerialized_only (hlen : mediaFrameHeaderLen ≤ bytes.length)
    (hheader : MediaFragmentHeader.decode (bytes.take mediaFrameHeaderLen) = .ok header)
    (honly : header.Only) (hoffset : header.fragmentOffset = 0) :
    (header.accessUnitLen.toNat = (bytes.drop mediaFrameHeaderLen).length ∧
      decodeSerializedMediaAccessUnit bytes
        = .ok (some ⟨header.metadata, bytes.drop mediaFrameHeaderLen⟩)) ∨
    (header.accessUnitLen.toNat ≠ (bytes.drop mediaFrameHeaderLen).length ∧
      ∃ text, decodeSerializedMediaAccessUnit bytes = .error text) := by
  have hshort := Nat.not_lt.mpr hlen
  have hchecks : ¬ (header.fragmentIndex ≠ 0 ∨ header.fragmentCount ≠ 1 ∨
      header.fragmentOffset ≠ 0) := by
    rw [honly.1, honly.2, hoffset]
    decide
  rw [decodeSerializedMediaAccessUnit, if_neg hshort, hheader, List.length_drop]
  simp only [if_neg hchecks, if_neg hshort]
  split_ifs with hmatch
  · exact Or.inr ⟨hmatch, _, rfl⟩
  · exact Or.inl ⟨not_not.mp hmatch, rfl⟩

/-- Nothing is read behind any other header. -/
lemma decodeSerialized_other (hlen : mediaFrameHeaderLen ≤ bytes.length)
    (hheader : MediaFragmentHeader.decode (bytes.take mediaFrameHeaderLen) = .ok header)
    (hother : ¬ (header.Only ∧ header.fragmentOffset = 0)) :
    decodeSerializedMediaAccessUnit bytes = .ok none := by
  have hchecks : header.fragmentIndex ≠ 0 ∨ header.fragmentCount ≠ 1 ∨
      header.fragmentOffset ≠ 0 := by
    by_contra hnone
    push Not at hnone
    exact hother ⟨⟨hnone.1, hnone.2.1⟩, hnone.2.2⟩
  rw [decodeSerializedMediaAccessUnit, if_neg (Nat.not_lt.mpr hlen), hheader]
  simp only [if_pos hchecks]

/-- An only fragment fills the one slot. -/
lemma insert_only (honly : header.Only) (fragment : Bytes) :
    (PartialFrame.new header.metadata header.fragmentCount header.accessUnitLen.toNat).insert
        header fragment
      = .ok ⟨header.metadata, header.accessUnitLen.toNat, [some fragment], 1⟩ := by
  obtain ⟨hindex, hcount⟩ := honly
  rw [PartialFrame.insert, PartialFrame.new]
  simp only [ne_eq, not_true_eq_false, if_false, hindex, hcount]
  rfl

lemma finish_only (metadata : MediaFrameMetadata) (accessUnitLen : ℕ) (fragment : Bytes) :
    PartialFrame.finish ⟨metadata, accessUnitLen, [some fragment], 1⟩
      = if fragment.length ≠ accessUnitLen then
          .error (.accessUnitLengthMismatch accessUnitLen fragment.length)
        else .ok ⟨metadata, fragment⟩ := by
  rw [PartialFrame.finish, joinFragments, joinFragments, ok_bind, ok_bind, List.append_nil]

/-- An only fragment completes its frame. -/
lemma absorbBlock_only (hlen : mediaFrameHeaderLen ≤ bytes.length)
    (hheader : MediaFragmentHeader.decode (bytes.take mediaFrameHeaderLen) = .ok header)
    (hclosed : header.metadata.key ∉ self.completed)
    (hnew : self.partials.lookup header.metadata.key = none) (honly : header.Only) :
    (self.absorbBlock bytes).1
      = if (bytes.drop mediaFrameHeaderLen).length ≠ header.accessUnitLen.toNat then
          .error (.accessUnitLengthMismatch header.accessUnitLen.toNat
            (bytes.drop mediaFrameHeaderLen).length)
        else .ok (some ⟨header.metadata, bytes.drop mediaFrameHeaderLen⟩) := by
  have hvalid : ¬ (header.fragmentCount = 0 ∨ header.fragmentCount ≤ header.fragmentIndex) := by
    rw [honly.1, honly.2]
    decide
  have hcomplete : PartialFrame.isComplete ⟨header.metadata, header.accessUnitLen.toNat,
      [some (bytes.drop mediaFrameHeaderLen)], 1⟩ := rfl
  rw [FrameAssembly.absorbBlock, if_neg (Nat.not_lt.mpr hlen), hheader]
  simp only [if_neg hvalid, FrameAssembly.absorbFragment, if_neg hclosed, hnew, Option.getD_none,
    FrameAssembly.absorbInto, insert_only honly, if_neg (not_not.mpr hcomplete), finish_only]
  split_ifs <;> rfl

/-- Of several fragments the first one completes nothing, and the media decoder has nothing to
return. -/
lemma absorbBlock_other (hlen : mediaFrameHeaderLen ≤ bytes.length)
    (hheader : MediaFragmentHeader.decode (bytes.take mediaFrameHeaderLen) = .ok header)
    (hclosed : header.metadata.key ∉ self.completed)
    (hnew : self.partials.lookup header.metadata.key = none) (hother : ¬ header.Only) :
    (self.absorbBlock bytes).1 = .ok none ∨ (self.absorbBlock bytes).1
      = .error (.invalidFragmentIndex header.fragmentIndex header.fragmentCount) := by
  rw [FrameAssembly.absorbBlock, if_neg (Nat.not_lt.mpr hlen), hheader]
  simp only
  split_ifs with hvalid
  · exact Or.inr rfl
  rw [not_or, UInt16.not_le] at hvalid
  obtain ⟨-, hlt⟩ := hvalid
  have hindex := UInt16.lt_iff_toNat_lt.mp hlt
  -- one of several slots is filled
  have hmany : header.fragmentCount.toNat ≠ 1 := by
    intro hone
    refine hother ⟨UInt16.toNat_inj.mp ?_, UInt16.toNat_inj.mp hone⟩
    rw [hone] at hindex
    exact Nat.lt_one_iff.mp hindex
  have hinsert : (PartialFrame.new header.metadata header.fragmentCount
      header.accessUnitLen.toNat).insert header (bytes.drop mediaFrameHeaderLen)
      = .ok ⟨header.metadata, header.accessUnitLen.toNat,
          (List.replicate header.fragmentCount.toNat none).set header.fragmentIndex.toNat
            (some (bytes.drop mediaFrameHeaderLen)), 1⟩ := by
    have hfree : (List.replicate header.fragmentCount.toNat (none : Option Bytes)).getD
        header.fragmentIndex.toNat none = none := by
      simp
    have hbound : ¬ (List.replicate header.fragmentCount.toNat (none : Option Bytes)).length
        ≤ header.fragmentIndex.toNat := by
      rw [List.length_replicate]
      exact Nat.not_le.mpr hindex
    rw [PartialFrame.insert, PartialFrame.new]
    simp only [ne_eq, not_true_eq_false, if_false, if_neg hbound, hfree]
    rfl
  have hincomplete : ¬ PartialFrame.isComplete ⟨header.metadata, header.accessUnitLen.toNat,
      (List.replicate header.fragmentCount.toNat none).set header.fragmentIndex.toNat
        (some (bytes.drop mediaFrameHeaderLen)), 1⟩ := by
    rw [PartialFrame.isComplete, List.length_set, List.length_replicate]
    exact fun hone => hmany hone.symm
  rw [FrameAssembly.absorbFragment]
  simp only [if_neg hclosed, hnew, Option.getD_none, FrameAssembly.absorbInto, hinsert,
    if_pos hincomplete, true_or]

/-- Nothing of the frame of these bytes is held, and it was not returned. -/
def FrameAssembly.Untouched (self : FrameAssembly) (bytes : Bytes) : Prop :=
  ∀ header, MediaFragmentHeader.decode (bytes.take mediaFrameHeaderLen) = .ok header →
    header.metadata.key ∉ self.completed ∧ self.partials.lookup header.metadata.key = none

/-- The bytes start with a header of fragment offset zero. -/
def StartsAtZero (bytes : Bytes) : Prop :=
  ∃ header, MediaFragmentHeader.decode (bytes.take mediaFrameHeaderLen) = .ok header ∧
    header.fragmentOffset = 0

/-- Where a header is read, the bytes are long enough for it. -/
lemma le_length_of_decode
    (hheader : MediaFragmentHeader.decode (bytes.take mediaFrameHeaderLen) = .ok header) :
    mediaFrameHeaderLen ≤ bytes.length := by
  by_contra hshort
  have htake : (bytes.take mediaFrameHeaderLen).length < mediaFrameHeaderLen :=
    Nat.lt_of_le_of_lt (List.length_take_le' _ _) (Nat.not_le.mp hshort)
  rw [MediaFragmentHeader.decode, if_pos htake] at hheader
  cases hheader

/-- Any other bytes are no access unit, and no error. -/
lemma decodeSerialized_none (hzero : ¬ StartsAtZero bytes) :
    decodeSerializedMediaAccessUnit bytes = .ok none := by
  cases hheader : MediaFragmentHeader.decode (bytes.take mediaFrameHeaderLen) with
  | ok header =>
      exact decodeSerialized_other (le_length_of_decode hheader) hheader
        fun honly => hzero ⟨header, hheader, honly.2⟩
  | error error =>
      rw [decodeSerializedMediaAccessUnit, hheader]
      exact ite_self _

/-- **Reading a frame with and without a frame decoder.**  From bytes that are the first of their
frame, `decode_serialized_media_access_unit` reads exactly the frame that a `MediaFecDecoder`
returns, and fails exactly when this one finds that the length is wrong, except that it reads
nothing behind a header whose fragment offset is not zero. -/
theorem decodeSerialized_agrees (self : FrameAssembly) (bytes : Bytes)
    (hnew : self.Untouched bytes) :
    (∀ unit, decodeSerializedMediaAccessUnit bytes = .ok (some unit) ↔
      StartsAtZero bytes ∧
        (self.absorbBlock bytes).1 = .ok (some ⟨unit.metadata, unit.payload⟩)) ∧
    ((∃ text, decodeSerializedMediaAccessUnit bytes = .error text) ↔
      StartsAtZero bytes ∧ ∃ expected actual,
        (self.absorbBlock bytes).1 = .error (.accessUnitLengthMismatch expected actual)) := by
  by_cases hzero : StartsAtZero bytes
  swap
  · rw [decodeSerialized_none hzero]
    simp [hzero]
  have hzero' := hzero
  obtain ⟨header, hheader, hoffset⟩ := hzero'
  have hlen := le_length_of_decode hheader
  obtain ⟨hclosed, hfree⟩ := hnew header hheader
  by_cases honly : header.Only
  · rw [absorbBlock_only hlen hheader hclosed hfree honly]
    rcases decodeSerialized_only hlen hheader honly hoffset with
      ⟨hmatch, hread⟩ | ⟨hmatch, text, hread⟩
    · rw [hread, if_neg (not_not.mpr hmatch.symm)]
      refine ⟨fun unit => ?_, by simp⟩
      simp [hzero, SerializedMediaAccessUnit.ext_iff]
    · rw [hread, if_pos (Ne.symm hmatch)]
      simp [hzero]
  · rw [decodeSerialized_other hlen hheader fun h => honly h.1]
    rcases absorbBlock_other hlen hheader hclosed hfree honly with hnothing | hinvalid
    · simp [hnothing]
    · simp [hinvalid]

end Agreement

/-- The header of a frame of three bytes, with two bytes behind it. -/
def cutShort : Bytes :=
  [2, 1, 0, 0, 1, 0] ++ List.replicate 26 0 ++ [3] ++ List.replicate 11 0 ++ [1, 2]

theorem decodeSerialized_agrees_cutShort :
    ∃ text, decodeSerializedMediaAccessUnit cutShort = .error text :=
  (decodeSerialized_agrees FrameAssembly.new cutShort fun _ _ => ⟨List.not_mem_nil, rfl⟩).2.mpr
    ⟨⟨_, rfl, rfl⟩, 3, 2, by decide +kernel⟩

/-! ## Behind the datagram decoder -/

/-- The access unit that should be read. -/
def MediaFrame.serialized (frame : MediaFrame) : SerializedMediaAccessUnit :=
  ⟨frame.metadata, frame.payload⟩

/-- What is read of the object of a fragment. -/
lemma decodeSerialized_object {F : Fragmentation} {i : ℕ} (hi : i < F.count) :
    decodeSerializedMediaAccessUnit (F.object i)
      = if F.count = 1 then .ok (some F.frame.serialized) else .ok none := by
  have hheader := F.decode_object i
  have hlen := le_length_of_decode hheader
  split_ifs with hcount
  · obtain rfl : i = 0 := Nat.lt_one_iff.mp (hcount ▸ hi)
    have honly : (F.header 0).Only :=
      ⟨rfl, UInt16.toNat_inj.mp (F.toNat_fragmentCount.trans hcount)⟩
    have hoffset : (F.header 0).fragmentOffset = 0 := by
      rw [Fragmentation.header, Nat.zero_mul]
      rfl
    -- the one fragment is the payload
    have hpayload : (F.object 0).drop mediaFrameHeaderLen = F.frame.payload := by
      have hflat := F.flatten_fragments
      rw [hcount] at hflat
      rw [F.drop_object, ← hflat]
      exact (List.append_nil _).symm
    rcases decodeSerialized_only hlen hheader honly hoffset with ⟨-, hread⟩ | ⟨hmatch, -⟩
    · rw [hread, hpayload]
      rfl
    · rw [hpayload, F.toNat_accessUnitLen] at hmatch
      exact absurd rfl hmatch
  · refine decodeSerialized_other hlen hheader fun honly => hcount ?_
    rw [← F.toNat_fragmentCount]
    exact congrArg UInt16.toNat honly.1.2

/-- The access unit that is read of a result of the datagram decoder. -/
def accessUnitOf : Except DatagramFecError (Option Bytes) → Option SerializedMediaAccessUnit
  | .ok (some object) => (decodeSerializedMediaAccessUnit object).toOption.join
  | _ => none

lemma accessUnitOf_result {F : Fragmentation} {i : ℕ} (hi : i < F.count) :
    accessUnitOf (F.result i) = if F.count = 1 then some F.frame.serialized else none := by
  rw [Fragmentation.result, accessUnitOf, decodeSerialized_object hi]
  split_ifs <;> rfl

section Run

variable {X : Crates} {code : X.Ideal} {E : Encodings X} {e : Encoding X} {arrivals : List Bytes}

/-- The frame of an encoding is read of a result exactly when the result brings the one block of
the encoding. -/
lemma Encodings.IsArrival.accessUnitOf_eq {code : X.Systematic} {e' : Encoding X} {i : ℕ}
    {arrival : Bytes × Except DatagramFecError (Option Bytes)} (honce : E.Once)
    (he : e ∈ E.encodings) (h : E.IsArrival code e' arrival i) :
    accessUnitOf arrival.2 = some e.frame.serialized ↔
      e' = e ∧ (e.transmission code).count = 1 := by
  rw [h.result, accessUnitOf_result h.index, Encoding.frame_transmission]
  constructor
  · intro hread
    split_ifs at hread with hcount
    have hmetadata : e'.frame.metadata = e.frame.metadata :=
      congrArg SerializedMediaAccessUnit.metadata (Option.some.inj hread)
    obtain rfl := honce e' h.mem e he (by rw [hmetadata])
    exact ⟨rfl, hcount⟩
  · rintro ⟨rfl, hcount⟩
    exact if_pos hcount

/-- **Frames of one fragment need no frame decoder.**  Frames of distinct keys are encoded under
distinct block ids, and their datagrams reach a fresh datagram decoder in any order, lost, repeated
and interleaved, as long as between two datagrams of a block there arrives none of a block that does
not retain it (`Uncut`).  Then `decode_serialized_media_access_unit` fails on no object it returns,
and of these objects it reads the frames that are one block of which enough symbols arrive. -/
theorem serialized_recovered (code : X.Ideal) (E : Encodings X) (honce : E.Once)
    (arrivals : List Bytes)
    (harrivals : ∀ datagram ∈ arrivals, ∃ e ∈ E.encodings, datagram ∈ e.encoded.datagrams)
    (huncut : Uncut X arrivals) (e : Encoding X) (he : e ∈ E.encodings) :
    let results := runOutputs DatagramFecDecoder.pushDatagram (DatagramFecDecoder.new (X := X))
      arrivals
    (e.frame.serialized ∈ results.filterMap accessUnitOf ↔
      e.encoded.blocks.length = 1 ∧ e.Recoverable code arrivals) ∧
    ∀ object, Except.ok (some object) ∈ results →
      ∃ unit, decodeSerializedMediaAccessUnit object = .ok unit := by
  intro results
  have harrival := Encodings.isArrival_of_run code harrivals
  have hlength : results.length = arrivals.length := length_runOutputs _ _ _
  have hfrom : ∀ result ∈ results, ∃ arrival ∈ arrivals.zip results, arrival.2 = result := by
    intro result hresult
    rw [← List.map_snd_zip (Nat.le_of_eq hlength)] at hresult
    exact List.mem_map.mp hresult
  refine ⟨?_, fun object hobject => ?_⟩
  · rw [e.length_blocks code.toSystematic, e.recoverable_iff code]
    constructor
    · intro hmem
      obtain ⟨result, hresult, hread⟩ := List.mem_filterMap.mp hmem
      obtain ⟨arrival, hin, rfl⟩ := hfrom result hresult
      rcases harrival arrival hin with hnone | ⟨e', i, h⟩
      · rw [hnone] at hread
        cases hread
      · obtain ⟨rfl, hcount⟩ := (h.accessUnitOf_eq honce he).mp hread
        refine ⟨hcount, fun j hj => (E.returned_iff he harrivals huncut hj).mp ?_⟩
        -- both are the one block
        obtain rfl : j = i := by
          have hi := h.index
          omega
        exact mem_returnedBlocks.mpr ⟨arrival, hin, h.result, h.wire⟩
    · rintro ⟨hcount, hrecoverable⟩
      have hpos := (e.transmission code.toSystematic).count_pos
      have hreturned := (E.returned_iff he harrivals huncut hpos).mpr (hrecoverable 0 hpos)
      obtain ⟨arrival, hin, hresult, -⟩ := mem_returnedBlocks.mp hreturned
      refine List.mem_filterMap.mpr ⟨arrival.2, (List.of_mem_zip hin).2, ?_⟩
      have hread := accessUnitOf_result hpos
      rw [if_pos hcount, e.frame_transmission] at hread
      rw [hresult]
      exact hread
  · obtain ⟨arrival, hin, hresult⟩ := hfrom _ hobject
    rcases harrival arrival hin with hnone | ⟨e', i, h⟩
    · rw [hnone] at hresult
      cases hresult
    · rw [h.result] at hresult
      obtain rfl := Option.some.inj (Except.ok.inj hresult)
      rw [decodeSerialized_object h.index]
      split_ifs
      · exact ⟨_, rfl⟩
      · exact ⟨_, rfl⟩

end Run

/-- Six bytes in one block. -/
def sixBytes : Transmission :=
  slicedTransmission [1, 2, 3, 4, 5, 6] 6 7 (by decide) (by decide)

/-- The datagram of the block. -/
def lone : List Bytes := [sixBytes.datagram repetitionIdeal.toSystematic 0 0]

theorem serialized_recovered_six :
    (sampleFrame [1, 2, 3, 4, 5, 6]).serialized
      ∈ (runOutputs DatagramFecDecoder.pushDatagram (DatagramFecDecoder.new (X := repetition))
          lone).filterMap accessUnitOf := by
  obtain ⟨e, hframe, hsent⟩ := sliced_accepts [1, 2, 3, 4, 5, 6] 6 7 (by decide) (by decide)
  have hids : blockIds repetition lone = [7] := by decide +kernel
  have hcount : sixBytes.count = 1 := by decide
  have hblocks : e.encoded.blocks.length = 1 := by
    rw [hsent.blocks_eq, List.length_map, List.length_range]
    exact hcount
  have hone : ∀ i < 1, survivingSymbols repetition lone (sixBytes.encodedBlock i).blockId = {0} ∧
      symbolsFor (sixBytes.encodedBlock i).payloadLen sixBytes.symbolSize = 1 := by
    decide +kernel
  have hmem : ∀ datagram ∈ lone, ∃ e' ∈ (oneEncoding e).encodings,
      datagram ∈ e'.encoded.datagrams := by
    intro datagram hdatagram
    rw [List.mem_singleton.mp hdatagram]
    exact ⟨e, rfl, datagram_mem hsent sixBytes.count_pos⟩
  rw [← hframe]
  exact (serialized_recovered repetitionIdeal (oneEncoding e) (once_oneEncoding e) lone hmem
    (uncut_of_retained hids (by decide)) e rfl).1.mpr ⟨hblocks,
      recoverable_of_one hsent fun i hi => hone i (hcount ▸ hi)⟩

end RaptorFec
