import RaptorFec.Datagram.Honest
import RaptorFec.Media.Encoder

/-!
# The media decoder

`MediaFecDecoder` hands every datagram to the datagram decoder and files each block that comes out
of it under the frame it belongs to.  A frame is returned with its last fragment; its key is then
remembered, so that late fragments are ignored.

The part behind the datagram decoder is `FrameAssembly`:

* `PartialFrame.Filled F seen` — the partial frame holds the fragments `seen` of the
  fragmentation `F`, and nothing else;
* `absorbInto_waits`, `absorbInto_returns` — what a fragment of `F` does to a partial frame filled
  by fragments of `F`;
* `pushDatagram_run` — a run of the decoder is a run of the assembly on what the datagram decoder
  returns.
-/

namespace RaptorFec

structure DecodedMediaFrame where
  metadata : MediaFrameMetadata
  payload : Bytes
  deriving DecidableEq, Repr

/-! ## Partial frames -/

structure PartialFrame where
  metadata : MediaFrameMetadata
  accessUnitLen : ℕ
  fragments : List (Option Bytes)
  received : UInt16
  deriving DecidableEq, Repr

/-- The loop of `finish` over the slots. -/
def joinFragments : List (Option Bytes) → Except MediaFecError Bytes
  | [] => .ok []
  | none :: _ => .error .incompleteFrame
  | some fragment :: fragments => do
      let rest ← joinFragments fragments
      .ok (fragment ++ rest)

namespace PartialFrame

/-- `PartialFrame::new`. -/
def new (metadata : MediaFrameMetadata) (fragmentCount : UInt16) (accessUnitLen : ℕ) :
    PartialFrame :=
  ⟨metadata, accessUnitLen, List.replicate fragmentCount.toNat none, 0⟩

variable (self : PartialFrame)

/-- `PartialFrame::insert`; a rejected fragment leaves the partial frame as it is. -/
def insert (header : MediaFragmentHeader) (fragment : Bytes) : Except MediaFecError PartialFrame :=
  if header.metadata ≠ self.metadata then .error .conflictingMetadata
  else if header.accessUnitLen.toNat ≠ self.accessUnitLen then .error .conflictingAccessUnitLength
  else
    let index := header.fragmentIndex.toNat
    if self.fragments.length ≤ index then
      .error (.invalidFragmentIndex header.fragmentIndex (UInt16.ofNat self.fragments.length))
    else if self.fragments.getD index none = none then
      .ok { self with
        fragments := self.fragments.set index (some fragment)
        received := satAdd16 self.received 1 }
    else .ok self

/-- `is_complete`. -/
def isComplete : Prop := self.received.toNat = self.fragments.length

instance : Decidable self.isComplete := inferInstanceAs (Decidable (_ = _))

/-- `PartialFrame::finish`. -/
def finish : Except MediaFecError DecodedMediaFrame := do
  let payload ← joinFragments self.fragments
  if payload.length ≠ self.accessUnitLen then
    .error (.accessUnitLengthMismatch self.accessUnitLen payload.length)
  else .ok ⟨self.metadata, payload⟩

end PartialFrame

/-! ## The decoder -/

/-- `(stream_id, sequence)`. -/
abbrev FrameKey := UInt64 × UInt64

/-- The key of a frame. -/
def MediaFrameMetadata.key (metadata : MediaFrameMetadata) : FrameKey :=
  (metadata.streamId, metadata.sequence)

/-- `prune_completed`. -/
def pruneCompleted (completed : Finset FrameKey) (current : FrameKey) : Finset FrameKey :=
  completed.filter fun candidate => candidate.1 ≠ current.1 ∨ current.2 < 128 ∨
    current.2.toNat - 128 ≤ candidate.2.toNat

/-- The frames that are being put together, and the keys of those that were returned lately. -/
structure FrameAssembly where
  partials : HashMap FrameKey PartialFrame
  completed : Finset FrameKey

/-- The result of a push. -/
abbrev MediaPushResult := Except MediaFecError (Option DecodedMediaFrame)

namespace FrameAssembly

/-- The assembly of a new decoder. -/
def new : FrameAssembly := ⟨∅, ∅⟩

variable (self : FrameAssembly)

/-- The part of `push_datagram` behind the entry of the partial frame. -/
def absorbInto (key : FrameKey) (entry : PartialFrame) (header : MediaFragmentHeader)
    (fragment : Bytes) : MediaPushResult × FrameAssembly :=
  match entry.insert header fragment with
  | .error error => (.error error, { self with partials := self.partials.insert key entry })
  | .ok entry =>
      if ¬ entry.isComplete then
        (.ok none, { self with partials := self.partials.insert key entry })
      else
        (entry.finish.map some,
          { partials := self.partials.erase key
            completed := pruneCompleted (insert key self.completed) key })

/-- The part of `push_datagram` behind the checks on the header of the fragment. -/
def absorbFragment (header : MediaFragmentHeader) (fragment : Bytes) :
    MediaPushResult × FrameAssembly :=
  let key := header.metadata.key
  if key ∈ self.completed then (.ok none, self)
  else
    self.absorbInto key ((self.partials.lookup key).getD
      (PartialFrame.new header.metadata header.fragmentCount header.accessUnitLen.toNat))
      header fragment

/-- The part of `push_datagram` behind the datagram decoder. -/
def absorbBlock (block : Bytes) : MediaPushResult × FrameAssembly :=
  if block.length < mediaFrameHeaderLen then (.error (.headerTooShort block.length), self)
  else
    match MediaFragmentHeader.decode (block.take mediaFrameHeaderLen) with
    | .error error => (.error error, self)
    | .ok header =>
        if header.fragmentCount = 0 ∨ header.fragmentCount ≤ header.fragmentIndex then
          (.error (.invalidFragmentIndex header.fragmentIndex header.fragmentCount), self)
        else self.absorbFragment header (block.drop mediaFrameHeaderLen)

/-- What `push_datagram` does with a result of the datagram decoder. -/
def absorb : Except DatagramFecError (Option Bytes) → MediaPushResult × FrameAssembly
  | .error error => (.error (.fec error), self)
  | .ok none => (.ok none, self)
  | .ok (some block) => self.absorbBlock block

end FrameAssembly

structure MediaFecDecoder (X : Crates) extends FrameAssembly where
  fec : DatagramFecDecoder X

namespace MediaFecDecoder

variable {X : Crates}

/-- `MediaFecDecoder::new`. -/
def new : MediaFecDecoder X := ⟨FrameAssembly.new, DatagramFecDecoder.new⟩

/-- `push_datagram`, with the decoder after the call. -/
def pushDatagram (self : MediaFecDecoder X) (datagram : Bytes) :
    MediaPushResult × MediaFecDecoder X :=
  let fec := self.fec.pushDatagram datagram
  let absorbed := self.toFrameAssembly.absorb fec.1
  (absorbed.1, ⟨absorbed.2, fec.2⟩)

end MediaFecDecoder

/-! ## Filling a partial frame -/

/-- The key of the frame that is cut. -/
def Fragmentation.key (F : Fragmentation) : FrameKey := F.frame.metadata.key

/-- The frame a decoder should return. -/
def MediaFrame.decoded (frame : MediaFrame) : DecodedMediaFrame := ⟨frame.metadata, frame.payload⟩

/-- The slots of a fragmentation of which the fragments `seen` arrived. -/
def Fragmentation.slots (F : Fragmentation) (seen : Finset ℕ) : List (Option Bytes) :=
  (List.range F.count).map fun j => if j ∈ seen then some (F.fragment j) else none

/-- All fragments of a fragmentation arrived. -/
def Fragmentation.Covered (F : Fragmentation) (seen : Finset ℕ) : Prop := ∀ j < F.count, j ∈ seen

/-- The partial frame holds the fragments `seen`. -/
structure PartialFrame.Filled (F : Fragmentation) (seen : Finset ℕ) (entry : PartialFrame) :
    Prop where
  metadata : entry.metadata = F.frame.metadata
  accessUnitLen : entry.accessUnitLen = F.frame.payload.length
  fragments : entry.fragments = F.slots seen
  received : entry.received.toNat = seen.card
  seen_lt : ∀ j ∈ seen, j < F.count

/-- The partial frame that the first fragment creates. -/
def Fragmentation.fresh (F : Fragmentation) : PartialFrame :=
  PartialFrame.new F.frame.metadata (UInt16.ofNat F.count)
    (UInt32.ofNat F.frame.payload.length).toNat

section Filled

variable {F : Fragmentation} {seen : Finset ℕ} {entry : PartialFrame} {i : ℕ}

@[simp] lemma length_slots : (F.slots seen).length = F.count := by
  simp [Fragmentation.slots]

lemma getD_slots (hi : i < F.count) :
    (F.slots seen).getD i none = if i ∈ seen then some (F.fragment i) else none := by
  rw [List.getD_eq_getElem _ _ (by rw [length_slots]; exact hi)]
  simp [Fragmentation.slots]

lemma slots_insert :
    (F.slots seen).set i (some (F.fragment i)) = F.slots (insert i seen) := by
  refine List.ext_getElem (by simp) fun j h₁ h₂ => ?_
  rw [List.getElem_set]
  simp only [Fragmentation.slots, List.getElem_map, List.getElem_range, Finset.mem_insert]
  by_cases hij : i = j
  · simp [hij]
  · simp [hij, Ne.symm hij]

/-- A covered fragmentation joins to the payload. -/
lemma joinFragments_slots (h : F.Covered seen) :
    joinFragments (F.slots seen) = .ok F.frame.payload := by
  have hjoin : ∀ fragments : List Bytes,
      joinFragments (fragments.map some) = .ok fragments.flatten := by
    intro fragments
    induction fragments with
    | nil => rfl
    | cons fragment fragments ih => rw [List.map_cons, joinFragments, ih]; rfl
  have hslots : F.slots seen = ((List.range F.count).map F.fragment).map some := by
    rw [Fragmentation.slots, List.map_map]
    refine List.map_congr_left fun j hj => ?_
    exact if_pos (h j (List.mem_range.mp hj))
  rw [hslots, hjoin, F.flatten_fragments]

lemma filled_fresh (F : Fragmentation) : PartialFrame.Filled F ∅ F.fresh where
  metadata := rfl
  accessUnitLen := F.toNat_accessUnitLen 0
  fragments := by
    have hcount : (UInt16.ofNat F.count).toNat = F.count := F.toNat_fragmentCount
    refine List.ext_getElem (by simp [Fragmentation.fresh, PartialFrame.new, hcount])
      fun j h₁ h₂ => ?_
    simp [Fragmentation.fresh, PartialFrame.new, Fragmentation.slots]
  received := rfl
  seen_lt j hj := absurd hj (Finset.notMem_empty j)

/-- Inserting a fragment of the same fragmentation. -/
lemma filled_insert (h : PartialFrame.Filled F seen entry) (hi : i < F.count) :
    ∃ entry', entry.insert (F.header i) (F.fragment i) = .ok entry' ∧
      PartialFrame.Filled F (insert i seen) entry' := by
  have hindex := F.toNat_fragmentIndex hi
  have hmeta : ¬ (F.header i).metadata ≠ entry.metadata := not_not.mpr h.metadata.symm
  have hlen : ¬ (F.header i).accessUnitLen.toNat ≠ entry.accessUnitLen := by
    rw [F.toNat_accessUnitLen, h.accessUnitLen]
    exact not_not.mpr rfl
  rw [PartialFrame.insert, if_neg hmeta, if_neg hlen]
  simp only [hindex, h.fragments, length_slots, if_neg (Nat.not_le.mpr hi), getD_slots hi]
  by_cases hseen : i ∈ seen
  · refine ⟨entry, by simp [hseen], ?_⟩
    rw [Finset.insert_eq_of_mem hseen]
    exact h
  · refine ⟨_, if_pos (by rw [if_neg hseen]), ?_⟩
    refine ⟨h.metadata, h.accessUnitLen, slots_insert, ?_, ?_⟩
    · have hcard := Finset.card_insert_of_notMem hseen
      have hlt : seen.card < F.count := by
        have hle : (insert i seen).card ≤ (Finset.range F.count).card := by
          refine Finset.card_le_card fun j hj => Finset.mem_range.mpr ?_
          rcases Finset.mem_insert.mp hj with rfl | hj
          · exact hi
          · exact h.seen_lt j hj
        rw [hcard, Finset.card_range] at hle
        exact hle
      have hcount := F.count_lt
      rw [toNat_satAdd16, h.received, hcard, show (1 : UInt16).toNat = 1 from rfl]
      omega
    · intro j hj
      rcases Finset.mem_insert.mp hj with rfl | hj
      · exact hi
      · exact h.seen_lt j hj

lemma isComplete_iff (h : PartialFrame.Filled F seen entry) : entry.isComplete ↔ F.Covered seen := by
  have hsub : seen ⊆ Finset.range F.count := fun j hj => Finset.mem_range.mpr (h.seen_lt j hj)
  rw [PartialFrame.isComplete, h.received, h.fragments, length_slots]
  constructor
  · intro hcard j hj
    have heq := Finset.eq_of_subset_of_card_le hsub (by rw [Finset.card_range, hcard])
    rw [heq]
    exact Finset.mem_range.mpr hj
  · intro hcovered
    have heq : seen = Finset.range F.count :=
      Finset.Subset.antisymm hsub fun j hj => hcovered j (Finset.mem_range.mp hj)
    rw [heq, Finset.card_range]

/-- A covered partial frame is the frame. -/
lemma finish_filled (h : PartialFrame.Filled F seen entry) (hcovered : F.Covered seen) :
    entry.finish = .ok F.frame.decoded := by
  rw [PartialFrame.finish, h.fragments, joinFragments_slots hcovered, ok_bind,
    if_neg (not_not.mpr h.accessUnitLen.symm), h.metadata]
  rfl

end Filled

/-! ## Absorbing a fragment -/

section Absorb

variable {F : Fragmentation} {seen : Finset ℕ} {i : ℕ} {assembly : FrameAssembly}

/-- The object of a fragment gets through the checks on its header. -/
lemma absorbBlock_object (hi : i < F.count) :
    assembly.absorbBlock (F.object i)
      = assembly.absorbFragment (F.header i) (F.fragment i) := by
  have hlen := F.length_object i
  have hindex := F.toNat_fragmentIndex hi
  have hcount : (F.header i).fragmentCount.toNat = F.count := F.toNat_fragmentCount
  have hvalid : ¬ ((F.header i).fragmentCount = 0 ∨
      (F.header i).fragmentCount ≤ (F.header i).fragmentIndex) := by
    rintro (hzero | hle)
    · rw [hzero] at hcount
      exact absurd hcount (Nat.ne_of_lt F.count_pos)
    · rw [UInt16.le_iff_toNat_le, hindex, hcount] at hle
      omega
  rw [FrameAssembly.absorbBlock, if_neg (by rw [hlen, mediaFrameHeaderLen]; omega),
    F.decode_object]
  simp only [if_neg hvalid, F.drop_object]

/-- A fragment of a frame that was returned is ignored. -/
lemma absorbFragment_closed (h : F.key ∈ assembly.completed) :
    assembly.absorbFragment (F.header i) (F.fragment i) = (.ok none, assembly) := if_pos h

/-- The partial frame a fragment of a frame in progress gets to. -/
lemma absorbFragment_open (h : F.key ∉ assembly.completed) :
    assembly.absorbFragment (F.header i) (F.fragment i)
      = assembly.absorbInto F.key ((assembly.partials.lookup F.key).getD F.fresh) (F.header i)
          (F.fragment i) := if_neg h

/-- A fragment that leaves others missing is filed. -/
lemma absorbInto_waits {entry : PartialFrame} (h : PartialFrame.Filled F seen entry)
    (hi : i < F.count) (hmissing : ¬ F.Covered (insert i seen)) :
    ∃ entry', PartialFrame.Filled F (insert i seen) entry' ∧
      assembly.absorbInto F.key entry (F.header i) (F.fragment i)
        = (.ok none, { assembly with partials := assembly.partials.insert F.key entry' }) := by
  obtain ⟨entry', hinsert, hfilled⟩ := filled_insert h hi
  refine ⟨entry', hfilled, ?_⟩
  rw [FrameAssembly.absorbInto, hinsert]
  exact if_pos fun hcomplete => hmissing ((isComplete_iff hfilled).mp hcomplete)

/-- The last fragment returns the frame. -/
lemma absorbInto_returns {entry : PartialFrame} (h : PartialFrame.Filled F seen entry)
    (hi : i < F.count) (hcovered : F.Covered (insert i seen)) :
    assembly.absorbInto F.key entry (F.header i) (F.fragment i)
      = (.ok (some F.frame.decoded),
          { partials := assembly.partials.erase F.key
            completed := pruneCompleted (insert F.key assembly.completed) F.key }) := by
  obtain ⟨entry', hinsert, hfilled⟩ := filled_insert h hi
  rw [FrameAssembly.absorbInto, hinsert]
  refine (if_neg (not_not.mpr ((isComplete_iff hfilled).mpr hcovered))).trans ?_
  rw [finish_filled hfilled hcovered]
  rfl

/-- The key of the frame that is returned is remembered. -/
lemma mem_pruneCompleted_self (completed : Finset FrameKey) (key : FrameKey) :
    key ∈ pruneCompleted (insert key completed) key :=
  Finset.mem_filter.mpr ⟨Finset.mem_insert_self _ _, Or.inr (Or.inr (Nat.sub_le _ _))⟩

end Absorb

/-- **A run of the decoder** is a run of the assembly on what the datagram decoder returns. -/
theorem pushDatagram_run {X : Crates} (decoder : MediaFecDecoder X) (datagrams : List Bytes) :
    runOutputs MediaFecDecoder.pushDatagram decoder datagrams
      = runOutputs FrameAssembly.absorb decoder.toFrameAssembly
          (runOutputs DatagramFecDecoder.pushDatagram decoder.fec datagrams) :=
  runOutputs_compose MediaFecDecoder.fec MediaFecDecoder.toFrameAssembly (fun _ _ => rfl)
    (fun _ _ => rfl) (fun _ _ => rfl) decoder datagrams

end RaptorFec
