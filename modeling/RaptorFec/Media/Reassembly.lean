import RaptorFec.Datagram.Window
import RaptorFec.Media.Recovery

/-!
# Reassembly of many frames

Datagrams of many frames reach one decoder, in any order, with any losses and repetitions; the
same frame may have been encoded more than once.  The decoder files a fragment by its index alone:
neither the fragment count nor the fragment offset of a later fragment is compared with those of
the partial frame.

* `Encodings` — a set of accepted frames, one metadata and payload for each key, with distinct block
  ids;
* `PartialFrame.CutLike` — the partial frame could have been filled by a given encoding;
* `returned_exactly` — as long as every push that stores a fragment in a partial frame finds it cut
  like its own encoding, every frame that is returned is one that was encoded;
* `merges_two_encodings` — three pushes that return a payload nobody encoded.
-/

namespace RaptorFec

variable {X : Crates}

/-! ## Encodings -/

/-- A frame that an encoder accepted. -/
structure Encoding (X : Crates) where
  encoder : MediaFecEncoder
  encoder' : MediaFecEncoder
  frame : MediaFrame
  encoded : EncodedMediaFrame
  pool : Option DatagramBufferPool
  pool' : Option DatagramBufferPool
  accepted : encoder.encodeFrameWithOptionalPool X frame pool = some (.ok encoded, encoder', pool')

/-- Encodings of frames that have one metadata and one payload for each key, under distinct block
ids. -/
structure Encodings (X : Crates) where
  encodings : Set (Encoding X)
  frame_unique : ∀ e ∈ encodings, ∀ e' ∈ encodings,
    e.frame.metadata.key = e'.frame.metadata.key → e.frame = e'.frame
  ids_distinct : ∀ e ∈ encodings, ∀ e' ∈ encodings, ∀ block ∈ e.encoded.blocks,
    ∀ block' ∈ e'.encoded.blocks, block.blockId = block'.blockId → e = e'

namespace Encoding

variable (e : Encoding X)

/-- The size of the fragments that the encoding cuts. -/
def fragmentSize : ℕ := e.encoded.decision.config.maxPayloadLen - mediaFrameHeaderLen

/-- The length of a fragment of the encoding. -/
def fragmentLen (i : ℕ) : ℕ :=
  min e.fragmentSize (e.frame.payload.length - i * e.fragmentSize)

variable (code : X.Systematic)

/-- The transmission behind an encoding. -/
noncomputable def transmission : Transmission :=
  (MediaFecEncoder.encodeFrameWithOptionalPool_sent code e.accepted).choose

lemma isSent : (e.transmission code).IsSent code e.encoder e.frame e.encoded :=
  (MediaFecEncoder.encodeFrameWithOptionalPool_sent code e.accepted).choose_spec

lemma length_blocks : e.encoded.blocks.length = (e.transmission code).count := by
  rw [(e.isSent code).blocks_eq, List.length_map, List.length_range]

lemma getElem_blocks {i : ℕ} (hi : i < e.encoded.blocks.length) :
    e.encoded.blocks[i] = (e.transmission code).encodedBlock i := by
  simp [(e.isSent code).blocks_eq]

lemma length_fragment (i : ℕ) :
    ((e.transmission code).fragment i).length = e.fragmentLen i := by
  rw [Fragmentation.fragment, length_piece, (e.isSent code).size_eq, (e.isSent code).frame_eq]
  rfl

/-- Every datagram of an encoding carries a symbol of one of its blocks. -/
lemma exists_carries {datagram : Bytes} (h : datagram ∈ e.encoded.datagrams) :
    ∃ i < (e.transmission code).count, ∃ sequence esi,
      Carries code ((e.transmission code).block i) sequence esi datagram := by
  rw [(e.isSent code).datagrams_eq] at h
  obtain ⟨i, hi, hmem⟩ := List.mem_flatMap.mp h
  obtain ⟨esi, hesi, rfl⟩ := List.mem_map.mp hmem
  exact ⟨i, List.mem_range.mp hi, _, esi,
    Transmission.carries code (List.mem_range.mp hi) (List.mem_range.mp hesi)⟩

end Encoding

namespace Encodings

variable (E : Encodings X) (code : X.Systematic)

/-- The source blocks of all encodings. -/
noncomputable def blockSet : BlockSet where
  blocks := {b | ∃ e ∈ E.encodings, ∃ i < (e.transmission code).count,
    b = (e.transmission code).block i}
  inj := by
    rintro b ⟨e, he, i, hi, rfl⟩ b' ⟨e', he', j, hj, rfl⟩ hid
    rw [Transmission.id_block hi, Transmission.id_block hj] at hid
    obtain rfl := E.ids_distinct e he e' he' _ ((e.isSent code).mem_blocks.mpr ⟨i, hi, rfl⟩) _
      ((e'.isSent code).mem_blocks.mpr ⟨j, hj, rfl⟩) hid
    rw [Transmission.id_injOn hi hj hid]

end Encodings

/-! ## Merging fragments -/

/-- The partial frame has a slot for each block of the encoding, and every fragment it holds has the
length that the encoding gives it. -/
structure PartialFrame.CutLike (entry : PartialFrame) (e : Encoding X) : Prop where
  slots : entry.fragments.length = e.encoded.blocks.length
  lengths : ∀ i fragment, entry.fragments[i]? = some (some fragment) →
    fragment.length = e.fragmentLen i

/-- **The condition of one push.**  When the datagram completes a block of an encoding and the
partial frame of its key has an empty slot for the fragment, that partial frame is cut like the
encoding. -/
def MediaFecDecoder.MergesAlike (encodings : Set (Encoding X)) (decoder : MediaFecDecoder X)
    (datagram : Bytes) : Prop :=
  ∀ e ∈ encodings, ∀ i, ∀ hi : i < e.encoded.blocks.length,
    decoder.fec.Closes e.encoded.blocks[i].blockId (.push datagram) →
    ∀ entry ∈ decoder.partials.lookup e.frame.metadata.key,
      entry.fragments[i]? = some none → entry.CutLike e

/-- Behind the first fragment the payload has bytes left, at most one fragment behind the last. -/
lemma Fragmentation.bounds (F : Fragmentation) {i : ℕ} (hpos : 0 < i) (hi : i < F.count) :
    i * F.size < F.frame.payload.length ∧
      (i + 1 = F.count → F.frame.payload.length ≤ (i + 1) * F.size) ∧
      (i + 1 < F.count → (i + 1) * F.size < F.frame.payload.length) := by
  have hcount : F.count = F.frame.payload.length ⌈/⌉ F.size := by
    rw [Fragmentation.count] at hi ⊢
    omega
  have hlt : ∀ j, j < F.count → j * F.size < F.frame.payload.length := by
    intro j hj
    rw [hcount] at hj
    by_contra hle
    have := (ceilDiv_le_iff_le_mul F.size_pos).mpr
      (Nat.mul_comm j F.size ▸ Nat.not_lt.mp hle)
    omega
  refine ⟨hlt i hi, fun hlast => ?_, hlt (i + 1)⟩
  rw [hlast, hcount, Nat.mul_comm]
  exact (ceilDiv_le_iff_le_mul F.size_pos).mp le_rfl

/-- Fragmentations of one payload with the same number of fragments give a fragment the same bytes
if they give it the same length. -/
lemma fragment_eq_of_length {F F' : Fragmentation} (hframe : F.frame = F'.frame)
    (hcount : F.count = F'.count) {i : ℕ} (hi : i < F.count)
    (hlen : (F.fragment i).length = (F'.fragment i).length) : F.fragment i = F'.fragment i := by
  rw [Fragmentation.fragment, Fragmentation.fragment, length_piece, length_piece, ← hframe] at hlen
  rw [Fragmentation.fragment, Fragmentation.fragment, ← hframe]
  rcases Nat.eq_zero_or_pos i with rfl | hpos
  · rw [piece_zero, piece_zero, List.take_eq_take_iff]
    simpa using hlen
  · -- the lengths determine the size
    obtain ⟨hlt, hlast, hinner⟩ := F.bounds hpos hi
    obtain ⟨hlt', hlast', hinner'⟩ := F'.bounds hpos (hcount ▸ hi)
    rw [← hframe, ← hcount] at hlast' hinner'
    rw [← hframe] at hlt'
    rw [Nat.succ_mul] at hlast hinner hlast' hinner'
    have hsize : F.size = F'.size := by
      rcases Nat.lt_or_ge (i + 1) F.count with hmid | hend
      · have h := hinner hmid
        have h' := hinner' hmid
        omega
      · have hend' : i + 1 = F.count := Nat.le_antisymm hi hend
        have h := hlast hend'
        have h' := hlast' hend'
        exact Nat.eq_of_mul_eq_mul_left hpos (by omega)
    rw [hsize]

section Merge

variable {F F' : Fragmentation} {seen : Finset ℕ} {entry : PartialFrame} {i : ℕ}
  {assembly : FrameAssembly}

/-- A partial frame that is cut like another fragmentation is filled by it. -/
lemma filled_of_cut (h : PartialFrame.Filled F' seen entry) (hframe : F'.frame = F.frame)
    (hslots : entry.fragments.length = F.count)
    (hlengths : ∀ j fragment, entry.fragments[j]? = some (some fragment) →
      fragment.length = (F.fragment j).length) : PartialFrame.Filled F seen entry := by
  have hcount : F'.count = F.count := by rw [← hslots, h.fragments, length_slots]
  refine ⟨h.metadata.trans (by rw [hframe]), h.accessUnitLen.trans (by rw [hframe]), ?_, h.received,
    fun j hj => hcount ▸ h.seen_lt j hj⟩
  rw [h.fragments, Fragmentation.slots, Fragmentation.slots, hcount]
  refine List.map_congr_left fun j hj => ?_
  have hj' : j < F'.count := hcount ▸ List.mem_range.mp hj
  split_ifs with hseen
  · have hstored : entry.fragments[j]? = some (some (F'.fragment j)) := by
      rw [h.fragments, List.getElem?_eq_getElem (by rw [length_slots]; exact hj')]
      simp [Fragmentation.slots, hseen]
    rw [fragment_eq_of_length hframe hcount hj' (hlengths j _ hstored)]
  · rfl

/-- A fragment that finds no empty slot changes nothing. -/
lemma absorbInto_occupied (h : PartialFrame.Filled F' seen entry) (hframe : F'.frame = F.frame)
    (hi : i < F.count) (hmissing : ¬ F'.Covered seen) (hslot : entry.fragments[i]? ≠ some none) :
    ∃ result, (∀ frame, result ≠ .ok (some frame)) ∧
      assembly.absorbInto F.key entry (F.header i) (F.fragment i)
        = (result, { assembly with partials := assembly.partials.insert F.key entry }) := by
  have hindex := F.toNat_fragmentIndex hi
  have hmeta : ¬ (F.header i).metadata ≠ entry.metadata :=
    not_not.mpr (by rw [h.metadata, hframe]; rfl)
  have hlen : ¬ (F.header i).accessUnitLen.toNat ≠ entry.accessUnitLen := by
    rw [F.toNat_accessUnitLen, h.accessUnitLen, hframe]
    exact not_not.mpr rfl
  by_cases hrange : entry.fragments.length ≤ i
  · have hinsert : ∃ error, entry.insert (F.header i) (F.fragment i) = .error error :=
      ⟨_, by rw [PartialFrame.insert, if_neg hmeta, if_neg hlen]
             simp only [hindex, if_pos hrange]
             rfl⟩
    obtain ⟨error, hinsert⟩ := hinsert
    exact ⟨.error error, by simp, by rw [FrameAssembly.absorbInto, hinsert]⟩
  · have hfilled : entry.fragments.getD i none ≠ none := by
      rw [List.getD_eq_getElem?_getD, List.getElem?_eq_getElem (Nat.not_le.mp hrange)] at *
      intro hnone
      exact hslot (congrArg some hnone)
    have hinsert : entry.insert (F.header i) (F.fragment i) = .ok entry := by
      rw [PartialFrame.insert, if_neg hmeta, if_neg hlen]
      simp only [hindex, if_neg hrange, if_neg hfilled]
    refine ⟨.ok none, by simp, ?_⟩
    rw [FrameAssembly.absorbInto, hinsert]
    exact if_pos fun hcomplete => hmissing ((isComplete_iff h).mp hcomplete)

end Merge

/-! ## The invariant -/

section Invariant

variable (E : Encodings X) (code : X.Systematic)

/-- Every partial frame holds some, but not all, of the fragments of one encoding of its key. -/
def Encodings.Assembles (assembly : FrameAssembly) : Prop :=
  ∀ key entry, assembly.partials.lookup key = some entry →
    ∃ e ∈ E.encodings, e.frame.metadata.key = key ∧ ∃ seen,
      PartialFrame.Filled (e.transmission code).toFragmentation seen entry ∧
        ¬ (e.transmission code).Covered seen

variable {E code} {assembly : FrameAssembly} {e : Encoding X} {i : ℕ}

/-- Storing a partial frame of an encoding. -/
lemma Encodings.Assembles.insert (h : E.Assembles code assembly) (he : e ∈ E.encodings)
    {key : FrameKey} (hkey : e.frame.metadata.key = key) {seen : Finset ℕ} {entry : PartialFrame}
    (hfilled : PartialFrame.Filled (e.transmission code).toFragmentation seen entry)
    (hmissing : ¬ (e.transmission code).Covered seen) :
    E.Assembles code { assembly with partials := assembly.partials.insert key entry } := by
  intro key' entry' hlookup
  rw [HashMap.lookup_insert_eq] at hlookup
  split_ifs at hlookup with hsame
  · obtain rfl := Option.some.inj hlookup
    exact ⟨e, he, hkey.trans hsame.symm, seen, hfilled, hmissing⟩
  · exact h key' entry' hlookup

/-- **One block reaches the assembly.**  If the partial frame it is stored in is cut like the
encoding of the block, the invariant is kept, and a frame that is returned is the frame of that
encoding. -/
lemma Encodings.Assembles.absorbBlock (h : E.Assembles code assembly) (he : e ∈ E.encodings)
    (hi : i < (e.transmission code).count)
    (hcut : ∀ entry ∈ assembly.partials.lookup e.frame.metadata.key,
      entry.fragments[i]? = some none → entry.CutLike e) :
    E.Assembles code (assembly.absorbBlock ((e.transmission code).object i)).2 ∧
      ∀ frame, (assembly.absorbBlock ((e.transmission code).object i)).1 = .ok (some frame) →
        frame = e.frame.decoded := by
  set T := e.transmission code with hT
  have hframe : T.frame = e.frame := (e.isSent code).frame_eq
  have hkey : T.key = e.frame.metadata.key := by rw [Fragmentation.key, hframe]
  rw [absorbBlock_object hi]
  by_cases hclosed : T.key ∈ assembly.completed
  · rw [absorbFragment_closed hclosed]
    exact ⟨h, fun frame hres => by cases hres⟩
  rw [absorbFragment_open hclosed]
  -- a partial frame that is filled by fragments of the same encoding takes the fragment
  have htakes : ∀ seen entry, PartialFrame.Filled T.toFragmentation seen entry →
      E.Assembles code (assembly.absorbInto T.key entry (T.header i) (T.fragment i)).2 ∧
        ∀ frame, (assembly.absorbInto T.key entry (T.header i) (T.fragment i)).1
          = .ok (some frame) → frame = e.frame.decoded := by
    intro seen entry hfilled
    by_cases hcovered : T.Covered (Insert.insert i seen)
    · rw [absorbInto_returns hfilled hi hcovered]
      refine ⟨fun key' entry' hlookup => ?_, fun frame hres => ?_⟩
      · rw [HashMap.lookup_erase_eq] at hlookup
        split_ifs at hlookup
        exact h key' entry' hlookup
      · rw [← hframe]
        exact (Option.some.inj (Except.ok.inj hres)).symm
    · obtain ⟨entry', hfilled', habsorb⟩ :=
        absorbInto_waits hfilled hi hcovered
      rw [habsorb]
      exact ⟨h.insert he hkey.symm hfilled' hcovered, fun frame hres => by cases hres⟩
  cases hlookup : assembly.partials.lookup T.key with
  | none => exact htakes ∅ T.fresh (filled_fresh T.toFragmentation)
  | some entry =>
      rw [Option.getD_some]
      obtain ⟨e', he', hkey', seen, hfilled, hmissing⟩ := h T.key entry hlookup
      have hsame : (e'.transmission code).frame = T.frame := by
        rw [(e'.isSent code).frame_eq, hframe, E.frame_unique e' he' e he (hkey'.trans hkey)]
      by_cases hslot : entry.fragments[i]? = some none
      · have halike := hcut entry (hkey ▸ hlookup) hslot
        refine htakes seen entry (filled_of_cut hfilled hsame ?_ fun j fragment hj => ?_)
        · rw [halike.slots, e.length_blocks code]
        · rw [halike.lengths j fragment hj, e.length_fragment code]
      · obtain ⟨result, hnone, habsorb⟩ :=
          absorbInto_occupied hfilled hsame hi hmissing hslot
        rw [habsorb]
        exact ⟨h.insert he' hkey' hfilled hmissing, fun frame hres => absurd hres (hnone frame)⟩

end Invariant

/-! ## Runs -/

section Run

variable {E : Encodings X} {code : X.Sound} {decoder : MediaFecDecoder X} {datagram : Bytes}

/-- The invariant of the decoder. -/
structure Encodings.Invariant (E : Encodings X) (code : X.Sound) (decoder : MediaFecDecoder X) :
    Prop where
  fec : ∃ held, Holds code.toSystematic (E.blockSet code.toSystematic) held decoder.fec
  assembles : E.Assembles code.toSystematic decoder.toFrameAssembly

/-- **The step lemma**: a push that merges alike fragments keeps the invariant, and returns nothing
but a frame that was encoded. -/
lemma Encodings.Invariant.push (h : E.Invariant code decoder)
    (hdatagram : ∃ e ∈ E.encodings, datagram ∈ e.encoded.datagrams)
    (hok : decoder.MergesAlike E.encodings datagram) :
    E.Invariant code (decoder.pushDatagram datagram).2 ∧
      ∀ frame, (decoder.pushDatagram datagram).1 = .ok (some frame) →
        ∃ e ∈ E.encodings, frame = e.frame.decoded := by
  obtain ⟨e, he, hmem⟩ := hdatagram
  obtain ⟨i, hi, sequence, esi, hcarries⟩ := e.exists_carries code.toSystematic hmem
  obtain ⟨held, hholds⟩ := h.fec
  have hb : (e.transmission code.toSystematic).block i ∈ E.blockSet code.toSystematic :=
    ⟨e, he, i, hi, rfl⟩
  obtain ⟨hholds', hresult⟩ := hholds.push_sound hb hcarries
  have hpush : decoder.pushDatagram datagram
      = ((decoder.toFrameAssembly.absorb (decoder.fec.pushDatagram datagram).1).1,
          ⟨(decoder.toFrameAssembly.absorb (decoder.fec.pushDatagram datagram).1).2,
            (decoder.fec.pushDatagram datagram).2⟩) := rfl
  rw [hpush]
  rcases hresult with hnone | hsome
  · rw [hnone]
    exact ⟨⟨hholds', h.assembles⟩, fun frame hres => by cases hres⟩
  · have hdelivers : decoder.fec.Delivers (.push datagram)
        ((e.transmission code.toSystematic).block i).id := by
      obtain ⟨header, hopens, hannounces, -⟩ := hcarries.opens
      exact ⟨⟨header, _, hopens, hannounces.blockId⟩, _, hsome⟩
    have hcloses := DatagramFecDecoder.closes_of_delivers hdelivers
    have hi' : i < e.encoded.blocks.length := by
      rw [e.length_blocks code.toSystematic]
      exact hi
    have hid : e.encoded.blocks[i].blockId = ((e.transmission code.toSystematic).block i).id := by
      rw [e.getElem_blocks code.toSystematic hi', Transmission.id_block hi]
      rfl
    rw [hsome, Transmission.object_block hi]
    obtain ⟨hassembles, hreturns⟩ := h.assembles.absorbBlock he hi
      (hok e he i hi' (hid ▸ hcloses))
    exact ⟨⟨hholds', hassembles⟩, fun frame hres => ⟨e, he, hreturns frame hres⟩⟩

/-- **Every frame that is returned was encoded**, with this metadata and this payload, in every run
whose pushes merge alike fragments only. -/
theorem returned_exactly (code : X.Sound) (E : Encodings X) (datagrams : List Bytes)
    (hdatagrams : ∀ datagram ∈ datagrams, ∃ e ∈ E.encodings, datagram ∈ e.encoded.datagrams)
    (hok : EveryStep MediaFecDecoder.pushDatagram (MediaFecDecoder.new (X := X)) datagrams
      fun _ decoder datagram => decoder.MergesAlike E.encodings datagram) :
    ∀ frame ∈ returnedFrames
        (runOutputs MediaFecDecoder.pushDatagram (MediaFecDecoder.new (X := X)) datagrams),
      ∃ e ∈ E.encodings, frame = e.frame.decoded := by
  intro frame hframe
  obtain ⟨out, hout, hreturns⟩ := List.mem_filterMap.mp hframe
  obtain ⟨past, datagram, hpre, rfl⟩ := exists_step_of_mem_runOutputs _ hout
  have hinv : E.Invariant code (runState MediaFecDecoder.pushDatagram MediaFecDecoder.new past) := by
    refine run_invariant (fun _ decoder => E.Invariant code decoder)
      (fun _ decoder datagram => (∃ e ∈ E.encodings, datagram ∈ e.encoded.datagrams) ∧
        decoder.MergesAlike E.encodings datagram) ?_ ?_ ?_
    · exact ⟨⟨_, Holds.new _ _⟩, fun key entry hlookup => by cases hlookup⟩
    · exact fun _ decoder datagram h hok => (h.push hok.1 hok.2).1
    · intro past' datagram' hpre'
      have hpre'' := (hpre'.trans (List.prefix_append past [datagram])).trans hpre
      exact ⟨hdatagrams datagram' (hpre''.subset (by simp)), hok past' datagram' hpre''⟩
  refine (hinv.push (hdatagrams datagram (hpre.subset (by simp))) (hok past datagram hpre)).2 frame ?_
  split at hreturns
  · rename_i heq
    rw [heq, hreturns]
  · cases hreturns

end Run

/-! ## Two encodings of one frame -/

/-- A data frame cut into fragments that fill one symbol each. -/
def slicedTransmission (payload : Bytes) (size : ℕ) (baseId : UInt32)
    (hsize : 0 < size ∧ size ≤ 1000) (hlen : payload.length ≤ 65535) : Transmission where
  frame := sampleFrame payload
  size := size
  dtsDeltaMs := noDtsDeltaMs
  size_pos := hsize.1
  count_le := by
    have hle : payload.length ⌈/⌉ size ≤ 65535 :=
      (ceilDiv_le_iff_le_mul hsize.1).mpr (Nat.le_trans hlen (Nat.le_mul_of_pos_left _ hsize.1))
    exact Nat.max_le.mpr ⟨hle, by decide⟩
  length_le := Nat.le_trans hlen (by decide)
  encodable := sampleFrame_encodable payload
  baseId := baseId
  baseSequence := 0
  symbolSize := UInt16.ofNat (44 + size)
  repair := fun _ => 0
  one i hi := by
    have hsymbol : (UInt16.ofNat (44 + size)).toNat = 44 + size :=
      UInt16.toNat_ofNat_of_lt' (by simp only [UInt16.size]; omega)
    refine ⟨Fragmentation.object_ne_nil _ i, by omega, ?_⟩
    refine Nat.le_trans ((ceilDiv_le_iff_le_mul (by omega)).mpr ?_) (by decide : 1 ≤ maxBlockSymbols)
    rw [hsymbol, Nat.mul_one]
    exact Fragmentation.length_object_le _ i
  limit i hi := by
    have hsymbol : (UInt16.ofNat (44 + size)).toNat = 44 + size :=
      UInt16.toNat_ofNat_of_lt' (by simp only [UInt16.size]; omega)
    refine Nat.le_trans ((ceilDiv_le_iff_le_mul (by omega)).mpr ?_) (by decide : 1 ≤ esiLimit)
    rw [hsymbol, Nat.mul_one]
    exact Fragmentation.length_object_le _ i

/-- An encoder that sends it. -/
lemma sliced_accepts (payload : Bytes) (size : ℕ) (baseId : UInt32)
    (hsize : 0 < size ∧ size ≤ 1000) (hlen : payload.length ≤ 65535) :
    ∃ e : Encoding repetition, e.frame = sampleFrame payload ∧
      (slicedTransmission payload size baseId hsize hlen).IsSent repetitionIdeal.toSystematic
        e.encoder e.frame e.encoded := by
  have hsymbol : (UInt16.ofNat (44 + size)).toNat = 44 + size :=
    UInt16.toNat_ofNat_of_lt' (by simp only [UInt16.size]; omega)
  obtain ⟨encoded, encoder', pool', haccepts, hsent⟩ := MediaFecEncoder.fixedFor_accepts
    repetitionIdeal.toSystematic (slicedTransmission payload size baseId hsize hlen)
    1 0 (by change MediaPriority.data ≠ .audio; decide) (by decide)
    (Nat.lt_of_lt_of_eq (by omega) hsymbol.symm) ((Nat.one_mul _).trans hsymbol).symm rfl
  exact ⟨⟨_, encoder', _, encoded, none, pool', haccepts⟩, rfl, hsent⟩

/-- Two encodings of one frame. -/
def twoEncodings (e e' : Encoding X) (hframe : e.frame = e'.frame)
    (hids : ∀ block ∈ e.encoded.blocks, ∀ block' ∈ e'.encoded.blocks,
      block.blockId ≠ block'.blockId) : Encodings X where
  encodings := {e, e'}
  frame_unique := by
    rintro a (rfl | rfl) b (rfl | rfl) -
    exacts [rfl, hframe, hframe.symm, rfl]
  ids_distinct := by
    rintro a (rfl | rfl) b (rfl | rfl) block hblock block' hblock' heq
    exacts [rfl, absurd heq (hids _ hblock _ hblock'), absurd heq.symm (hids _ hblock' _ hblock),
      rfl]

/-- Encodings under ids that are far enough apart. -/
lemma ids_ne_of_sent {T T' : Transmission} {code : X.Systematic} {e e' : Encoding X}
    (h : T.IsSent code e.encoder e.frame e.encoded)
    (h' : T'.IsSent code e'.encoder e'.frame e'.encoded)
    (hne : ∀ i < T.count, ∀ j < T'.count, T.name i ≠ T'.name j) :
    ∀ block ∈ e.encoded.blocks, ∀ block' ∈ e'.encoded.blocks,
      block.blockId ≠ block'.blockId := by
  intro block hblock block' hblock'
  obtain ⟨i, hi, rfl⟩ := h.mem_blocks.mp hblock
  obtain ⟨j, hj, rfl⟩ := h'.mem_blocks.mp hblock'
  exact hne i hi j hj

/-- The first datagram of a block of an encoding. -/
lemma datagram_mem {T : Transmission} {code : X.Systematic} {e : Encoding X}
    (h : T.IsSent code e.encoder e.frame e.encoded) {i : ℕ} (hi : i < T.count) :
    T.datagram code i 0 ∈ e.encoded.datagrams := by
  rw [h.datagrams_eq]
  have hpos := (T.block i).sourceSymbols_pos
  rw [Transmission.sourceSymbols_block hi] at hpos
  exact List.mem_flatMap.mpr ⟨i, List.mem_range.mpr hi, List.mem_map.mpr
    ⟨0, List.mem_range.mpr (Nat.lt_of_lt_of_le hpos (T.sourceSymbols_le_emitted i)), rfl⟩⟩

/-- A partial frame that an encoding filled is cut like it. -/
lemma PartialFrame.Filled.cutLike {T : Transmission} {code : X.Systematic} {e : Encoding X}
    {seen : Finset ℕ} {entry : PartialFrame} (h : Filled T.toFragmentation seen entry)
    (hsent : T.IsSent code e.encoder e.frame e.encoded) : entry.CutLike e := by
  constructor
  · rw [h.fragments, length_slots, hsent.blocks_eq, List.length_map, List.length_range]
  · intro i fragment hstored
    have hfragment : fragment = T.fragment i := by
      obtain ⟨hi, hslot⟩ := List.getElem?_eq_some_iff.mp (h.fragments ▸ hstored)
      simp only [Fragmentation.slots, List.getElem_map, List.getElem_range] at hslot
      split_ifs at hslot
      exact (Option.some.inj hslot).symm
    rw [hfragment, Fragmentation.fragment, length_piece, hsent.size_eq, hsent.frame_eq]
    rfl

/-- The condition of the push of a datagram is about the fragment in its own block. -/
lemma Encodings.mergesAlike_of_sent {E : Encodings X} {T : Transmission} {code : X.Systematic}
    {e : Encoding X} (he : e ∈ E.encodings) (hsent : T.IsSent code e.encoder e.frame e.encoded)
    {decoder : MediaFecDecoder X} {i esi : ℕ} (hi : i < T.count) (hesi : esi < T.emitted i)
    (hcut : ∀ entry ∈ decoder.partials.lookup e.frame.metadata.key,
      entry.fragments[i]? = some none → entry.CutLike e) :
    decoder.MergesAlike E.encodings (T.datagram code i esi) := by
  rintro a ha j hj ⟨header, packet, hopens, hid, -⟩
  -- the datagram announces the block it belongs to
  obtain ⟨header', hopens', hannounces, -⟩ := (Transmission.carries code hi hesi).opens
  obtain ⟨rfl, -⟩ := hopens.unique hopens'
  have hsame : T.baseId + UInt32.ofNat i = a.encoded.blocks[j].blockId := by
    rw [← hid, hannounces.blockId, Transmission.id_block hi]
  obtain rfl : e = a := E.ids_distinct e he a ha _ (hsent.mem_blocks.mpr ⟨i, hi, rfl⟩) _
    (List.getElem_mem hj) hsame
  obtain rfl : i = j := by
    have hj' : j < T.count := by
      simpa [hsent.blocks_eq] using hj
    have hblock : e.encoded.blocks[j].blockId = T.baseId + UInt32.ofNat j := by
      simp [hsent.blocks_eq, Transmission.encodedBlock]
    exact Transmission.id_injOn hi hj' (hsame.trans hblock)
  exact hcut

/-- Eleven bytes in fragments of four bytes, under the ids from 0. -/
def inThree : Transmission :=
  slicedTransmission [1, 2, 3, 4, 5, 6, 7, 8, 9, 10, 11] 4 0 (by decide) (by decide)

/-- The same bytes in fragments of seven bytes, under the ids from 10. -/
def inTwo : Transmission :=
  slicedTransmission [1, 2, 3, 4, 5, 6, 7, 8, 9, 10, 11] 7 10 (by decide) (by decide)

/-- The datagrams of the three fragments, with those of the two fragments between and behind. -/
def mixedArrivals : List Bytes :=
  [inThree.datagram repetitionIdeal.toSystematic 0 0,
    inTwo.datagram repetitionIdeal.toSystematic 0 0,
    inThree.datagram repetitionIdeal.toSystematic 1 0,
    inThree.datagram repetitionIdeal.toSystematic 2 0,
    inTwo.datagram repetitionIdeal.toSystematic 1 0]

/-- The partial frame with some of the three fragments. -/
def inThreeHeld (seen : Finset ℕ) : PartialFrame where
  metadata := inThree.frame.metadata
  accessUnitLen := inThree.frame.payload.length
  fragments := inThree.slots seen
  received := UInt16.ofNat seen.card

/-- What is held before each push. -/
lemma lookup_mixed :
    ([0, 1, 2, 3, 4].map fun k => (runState MediaFecDecoder.pushDatagram
        (MediaFecDecoder.new (X := repetition)) (mixedArrivals.take k)).partials.lookup inThree.key)
      = [none, some (inThreeHeld {0}), some (inThreeHeld {0}), some (inThreeHeld {0, 1}),
        none] := by
  decide +kernel

/-- The fragments of the other encoding find their slot filled, or no partial frame. -/
lemma mergesAlike_mixed {E : Encodings repetition} {e e' : Encoding repetition}
    (he : e ∈ E.encodings) (he' : e' ∈ E.encodings)
    (hsent : inThree.IsSent repetitionIdeal.toSystematic e.encoder e.frame e.encoded)
    (hsent' : inTwo.IsSent repetitionIdeal.toSystematic e'.encoder e'.frame e'.encoded) :
    EveryStep MediaFecDecoder.pushDatagram (MediaFecDecoder.new (X := repetition)) mixedArrivals
      fun _ decoder datagram => decoder.MergesAlike E.encodings datagram := by
  have hkey : e.frame.metadata.key = inThree.key := by
    rw [← hsent.frame_eq]
    rfl
  have hkey' : e'.frame.metadata.key = inThree.key := by
    rw [← hsent'.frame_eq]
    rfl
  have hlookup := lookup_mixed
  simp only [List.map_cons, List.map_nil, List.cons.injEq, and_true] at hlookup
  obtain ⟨hfirst, hsecond, hthird, hfourth, hfifth⟩ := hlookup
  refine everyStep_cons.mpr ⟨?_, everyStep_cons.mpr ⟨?_, everyStep_cons.mpr ⟨?_,
    everyStep_cons.mpr ⟨?_, everyStep_cons.mpr ⟨?_, everyStep_nil⟩⟩⟩⟩⟩
  · refine Encodings.mergesAlike_of_sent he hsent (by decide) (by decide) ?_
    intro entry hentry
    rw [hkey] at hentry
    cases hfirst.symm.trans hentry
  · refine Encodings.mergesAlike_of_sent he' hsent' (by decide) (by decide) ?_
    intro entry hentry hempty
    rw [hkey'] at hentry
    obtain rfl := Option.some.inj (hsecond.symm.trans hentry)
    exact absurd hempty (by decide)
  · refine Encodings.mergesAlike_of_sent he hsent (by decide) (by decide) ?_
    intro entry hentry _
    rw [hkey] at hentry
    obtain rfl := Option.some.inj (hthird.symm.trans hentry)
    exact PartialFrame.Filled.cutLike ⟨rfl, rfl, rfl, rfl, by decide⟩ hsent
  · refine Encodings.mergesAlike_of_sent he hsent (by decide) (by decide) ?_
    intro entry hentry _
    rw [hkey] at hentry
    obtain rfl := Option.some.inj (hfourth.symm.trans hentry)
    exact PartialFrame.Filled.cutLike ⟨rfl, rfl, rfl, rfl, by decide⟩ hsent
  · refine Encodings.mergesAlike_of_sent he' hsent' (by decide) (by decide) ?_
    intro entry hentry
    rw [hkey'] at hentry
    cases hfifth.symm.trans hentry

/-- The frame is returned once, by the fourth push. -/
theorem returned_exactly_mixed :
    returnedFrames (runOutputs MediaFecDecoder.pushDatagram
        (MediaFecDecoder.new (X := repetition)) mixedArrivals)
      = [(sampleFrame [1, 2, 3, 4, 5, 6, 7, 8, 9, 10, 11]).decoded] := by
  obtain ⟨e, hframe, hsent⟩ :=
    sliced_accepts [1, 2, 3, 4, 5, 6, 7, 8, 9, 10, 11] 4 0 (by decide) (by decide)
  obtain ⟨e', hframe', hsent'⟩ :=
    sliced_accepts [1, 2, 3, 4, 5, 6, 7, 8, 9, 10, 11] 7 10 (by decide) (by decide)
  have hids := ids_ne_of_sent hsent hsent' (by decide)
  set E := twoEncodings e e' (hframe.trans hframe'.symm) hids with hE
  have he : e ∈ E.encodings := Or.inl rfl
  have he' : e' ∈ E.encodings := Or.inr rfl
  have hsource : ∀ datagram ∈ mixedArrivals, ∃ a ∈ E.encodings,
      datagram ∈ a.encoded.datagrams := by
    simp only [mixedArrivals, List.mem_cons, List.not_mem_nil, or_false]
    rintro datagram (rfl | rfl | rfl | rfl | rfl)
    exacts [⟨e, he, datagram_mem hsent (by decide)⟩, ⟨e', he', datagram_mem hsent' (by decide)⟩,
      ⟨e, he, datagram_mem hsent (by decide)⟩, ⟨e, he, datagram_mem hsent (by decide)⟩,
      ⟨e', he', datagram_mem hsent' (by decide)⟩]
  have hreturns : ∀ frame ∈ returnedFrames (runOutputs MediaFecDecoder.pushDatagram
      (MediaFecDecoder.new (X := repetition)) mixedArrivals),
      frame = (sampleFrame [1, 2, 3, 4, 5, 6, 7, 8, 9, 10, 11]).decoded := by
    intro frame hreturned
    obtain ⟨a, ha, heq⟩ := returned_exactly repetitionIdeal.toSound E mixedArrivals hsource
      (mergesAlike_mixed he he' hsent hsent') frame hreturned
    rcases ha with rfl | rfl
    · rw [heq, hframe]
    · rw [heq, hframe']
  have hone : (returnedFrames (runOutputs MediaFecDecoder.pushDatagram
      (MediaFecDecoder.new (X := repetition)) mixedArrivals)).length = 1 := by
    decide +kernel
  exact List.eq_replicate_iff.mpr ⟨hone, hreturns⟩

/-- **A payload nobody encoded.**  Seven bytes are encoded in fragments of three bytes and again in
fragments of two.  The first fragment of the one and the second and third of the other have seven
bytes together. -/
theorem merges_two_encodings :
    ¬ ∀ (X : Crates) (_ : X.Sound) (E : Encodings X) (datagrams : List Bytes),
      (∀ datagram ∈ datagrams, ∃ e ∈ E.encodings, datagram ∈ e.encoded.datagrams) →
      ∀ frame ∈ returnedFrames
          (runOutputs MediaFecDecoder.pushDatagram (MediaFecDecoder.new (X := X)) datagrams),
        ∃ e ∈ E.encodings, frame = e.frame.decoded := by
  intro hall
  let T := slicedTransmission [0, 1, 2, 3, 4, 5, 6] 3 0 (by decide) (by decide)
  let T' := slicedTransmission [0, 1, 2, 3, 4, 5, 6] 2 10 (by decide) (by decide)
  obtain ⟨e, hframe, hsent⟩ := sliced_accepts [0, 1, 2, 3, 4, 5, 6] 3 0 (by decide) (by decide)
  obtain ⟨e', hframe', hsent'⟩ := sliced_accepts [0, 1, 2, 3, 4, 5, 6] 2 10 (by decide) (by decide)
  have hcount : T.count = 3 := by decide
  have hcount' : T'.count = 4 := by decide
  have hids := ids_ne_of_sent hsent hsent' (by decide)
  have hexact := hall repetition repetitionIdeal.toSound
    (twoEncodings e e' (hframe.trans hframe'.symm) hids)
    [T.datagram repetitionIdeal.toSystematic 0 0, T'.datagram repetitionIdeal.toSystematic 1 0,
      T'.datagram repetitionIdeal.toSystematic 2 0] ?_
    ⟨(sampleFrame []).metadata, [0, 1, 2, 2, 3, 4, 5]⟩ ?_
  · obtain ⟨a, ha, heq⟩ := hexact
    have hdecoded : a.frame = sampleFrame [0, 1, 2, 3, 4, 5, 6] := by
      rcases ha with rfl | rfl
      exacts [hframe, hframe']
    rw [hdecoded] at heq
    exact absurd heq (by decide)
  · intro datagram hdatagram
    have hcases : datagram = T.datagram repetitionIdeal.toSystematic 0 0 ∨
        datagram = T'.datagram repetitionIdeal.toSystematic 1 0 ∨
        datagram = T'.datagram repetitionIdeal.toSystematic 2 0 := by simpa using hdatagram
    rcases hcases with rfl | rfl | rfl
    · exact ⟨e, Or.inl rfl, datagram_mem hsent (by decide)⟩
    · exact ⟨e', Or.inr rfl, datagram_mem hsent' (by decide)⟩
    · exact ⟨e', Or.inr rfl, datagram_mem hsent' (by decide)⟩
  · decide +kernel

end RaptorFec
