import RaptorFec.Datagram.Lossy
import RaptorFec.Media.Reassembly
import RaptorFec.Media.Window

/-!
# Many frames over a lossy path

Frames of several streams share one decoder.  What it returns of a frame is decided by the
datagrams of this frame alone, however they are lost, repeated, reordered and interleaved with
those of other frames.

The decoder is a datagram decoder with a frame assembly behind it.  Neither may forget a block or a
frame while its datagrams arrive: between two datagrams of a block there is none of a block that does
not retain it (`Uncut`), and no frame is passed by more than 128 sequence numbers between two of its
datagrams (`Unpassed`).

* `FrameAssembly.about`, `FrameAssembly.AgreesOn` — the frame a block belongs to, and what two
  assemblies know of a frame;
* `FrameAssembly.serves_frame` — to each frame the assembly is one of its own;
* `returnedFrames_lone` — an assembly that is given only fragments of one frame;
* `frames_recovered` — what the decoder returns of every frame.
-/

namespace RaptorFec

/-! ## Frames do not interfere -/

namespace FrameAssembly

/-- The frame that a result of the datagram decoder is about. -/
def about : Except DatagramFecError (Option Bytes) → Option FrameKey
  | .error _ => none
  | .ok none => none
  | .ok (some block) =>
      if block.length < mediaFrameHeaderLen then none
      else (MediaFragmentHeader.decode (block.take mediaFrameHeaderLen)).toOption.map
        fun header => header.metadata.key

/-- Both assemblies know the same of the frame. -/
structure AgreesOn (key : FrameKey) (left right : FrameAssembly) : Prop where
  partials : left.partials.lookup key = right.partials.lookup key
  completed : key ∈ left.completed ↔ key ∈ right.completed

variable {key : FrameKey} {self other : FrameAssembly} {header : MediaFragmentHeader}
  {fragment : Bytes}
  {result : Except DatagramFecError (Option Bytes)}

/-- What the assembly makes of a result is decided by the header of its fragment. -/
lemma absorb_cases (result : Except DatagramFecError (Option Bytes)) :
    (∃ header fragment, about result = some header.metadata.key ∧
      ∀ self : FrameAssembly, self.absorb result = self.absorbFragment header fragment) ∨
    ∃ out, (∀ frame, out ≠ .ok (some frame)) ∧
      ∀ self : FrameAssembly, self.absorb result = (out, self) := by
  rcases result with error | - | block
  · exact Or.inr ⟨.error (.fec error), by simp, fun _ => rfl⟩
  · exact Or.inr ⟨.ok none, by simp, fun _ => rfl⟩
  by_cases hshort : block.length < mediaFrameHeaderLen
  · exact Or.inr ⟨.error (.headerTooShort block.length), by simp, fun self => by
      rw [absorb, absorbBlock, if_pos hshort]⟩
  cases hdecode : MediaFragmentHeader.decode (block.take mediaFrameHeaderLen) with
  | error error =>
      exact Or.inr ⟨.error error, by simp, fun self => by
        rw [absorb, absorbBlock, if_neg hshort, hdecode]⟩
  | ok header =>
      by_cases hindex : header.fragmentCount = 0 ∨ header.fragmentCount ≤ header.fragmentIndex
      · refine Or.inr ⟨.error (.invalidFragmentIndex header.fragmentIndex header.fragmentCount),
          by simp, fun self => ?_⟩
        rw [absorb, absorbBlock, if_neg hshort, hdecode]
        exact if_pos hindex
      · refine Or.inl ⟨header, block.drop mediaFrameHeaderLen, ?_, fun self => ?_⟩
        · rw [about, if_neg hshort, hdecode]
          rfl
        · rw [absorb, absorbBlock, if_neg hshort, hdecode]
          exact if_neg hindex

/-- A fragment of the frame does the same to both. -/
lemma AgreesOn.absorbFragment (h : AgreesOn key self other) (hkey : header.metadata.key = key) :
    (self.absorbFragment header fragment).1 = (other.absorbFragment header fragment).1 ∧
      AgreesOn key (self.absorbFragment header fragment).2
        (other.absorbFragment header fragment).2 := by
  subst hkey
  have hcompleted := h.completed
  rw [FrameAssembly.absorbFragment, FrameAssembly.absorbFragment]
  by_cases hin : header.metadata.key ∈ other.completed
  · simp only [if_pos hin, if_pos (hcompleted.mpr hin)]
    exact ⟨trivial, h⟩
  simp only [if_neg hin, if_neg fun hself => hin (hcompleted.mp hself), h.partials, absorbInto]
  split
  · exact ⟨rfl, ⟨by rw [Finmap.lookup_insert, Finmap.lookup_insert], hcompleted⟩⟩
  · split_ifs
    · refine ⟨rfl, ⟨by rw [Finmap.lookup_erase, Finmap.lookup_erase], ?_⟩⟩
      rw [MediaFecDecoder.mem_pruneCompleted, MediaFecDecoder.mem_pruneCompleted,
        Finset.mem_insert, Finset.mem_insert, hcompleted]
    · exact ⟨rfl, ⟨by rw [Finmap.lookup_insert, Finmap.lookup_insert], hcompleted⟩⟩

/-- What a fragment of another frame leaves of a frame: all, unless the other one passes it. -/
lemma absorbFragment_other (self : FrameAssembly) (fragment : Bytes)
    (hne : key ≠ header.metadata.key) :
    (self.absorbFragment header fragment).2.partials.lookup key = self.partials.lookup key ∧
      (key ∈ (self.absorbFragment header fragment).2.completed → key ∈ self.completed) ∧
      (¬ key.Behind header.metadata.key → key ∈ self.completed →
        key ∈ (self.absorbFragment header fragment).2.completed) := by
  rw [absorbFragment]
  by_cases hin : header.metadata.key ∈ self.completed
  · simp only [if_pos hin]
    exact ⟨trivial, id, fun _ => id⟩
  simp only [if_neg hin, absorbInto]
  split
  · exact ⟨Finmap.lookup_insert_of_ne _ hne, id, fun _ => id⟩
  · split_ifs
    · refine ⟨Finmap.lookup_erase_ne hne, fun hmem => ?_, fun hnot hmem => ?_⟩
      · exact (Finset.mem_insert.mp (MediaFecDecoder.mem_pruneCompleted.mp hmem).1).resolve_left hne
      · exact MediaFecDecoder.mem_pruneCompleted.mpr ⟨Finset.mem_insert_of_mem hmem, hnot⟩
    · exact ⟨Finmap.lookup_insert_of_ne _ hne, id, fun _ => id⟩

/-- A datagram with the result of the datagram decoder, when this is about the frame. -/
def ownResult (key : FrameKey) (arrival : Bytes × Except DatagramFecError (Option Bytes)) :
    Option (Except DatagramFecError (Option Bytes)) :=
  if about arrival.2 = some key then some arrival.2 else none

lemma ownResult_self {arrival : Bytes × Except DatagramFecError (Option Bytes)}
    (h : about arrival.2 = some key) : ownResult key arrival = some arrival.2 := if_pos h

lemma ownResult_other {arrival : Bytes × Except DatagramFecError (Option Bytes)}
    (h : about arrival.2 ≠ some key) : ownResult key arrival = none := if_neg h

lemma isSome_ownResult {arrival : Bytes × Except DatagramFecError (Option Bytes)} :
    (ownResult key arrival).isSome ↔ about arrival.2 = some key := by
  rw [ownResult]
  split_ifs with h
  · exact iff_of_true rfl h
  · exact iff_of_false Bool.false_ne_true h

/-- **To each frame the assembly is one of its own**, as long as no other frame passes it. -/
lemma serves_frame (key : FrameKey) :
    Serves (fun self (arrival : Bytes × Except DatagramFecError (Option Bytes)) =>
        FrameAssembly.absorb self arrival.2) FrameAssembly.absorb (ownResult key) (· = ·)
      (AgreesOn key) (fun arrival => ∀ current, about arrival.2 = some current →
        ¬ key.Behind current) where
  mine self other arrival result h _ hown := by
    have habout := isSome_ownResult.mp (Option.isSome_iff_exists.mpr ⟨result, hown⟩)
    obtain rfl : arrival.2 = result :=
      Option.some.inj ((ownResult_self habout).symm.trans hown)
    rcases absorb_cases arrival.2 with ⟨header, fragment, hheader, habsorb⟩ | ⟨out, -, habsorb⟩
    · rw [habsorb self, habsorb other]
      exact h.absorbFragment (Option.some.inj (hheader.symm.trans habout))
    · rw [habsorb self, habsorb other]
      exact ⟨rfl, h⟩
  others self other arrival h hok hown := by
    have habout : about arrival.2 ≠ some key := fun habout => by
      cases (ownResult_self habout).symm.trans hown
    rcases absorb_cases arrival.2 with ⟨header, fragment, hheader, habsorb⟩ | ⟨out, -, habsorb⟩
    · have hne : key ≠ header.metadata.key := by
        rintro rfl
        exact habout hheader
      obtain ⟨hpartials, hfewer, hkept⟩ := absorbFragment_other self fragment hne
      rw [habsorb self]
      refine ⟨hpartials.trans h.partials, ?_⟩
      rw [← h.completed]
      exact ⟨hfewer, hkept (hok _ hheader)⟩
    · rw [habsorb self]
      exact h

/-- A frame nothing is known of stays so while the results are about others. -/
lemma fresh_absorb (h : AgreesOn key self new) (habout : about result ≠ some key) :
    AgreesOn key (self.absorb result).2 new := by
  rcases absorb_cases result with ⟨header, fragment, hheader, habsorb⟩ | ⟨out, -, habsorb⟩
  · have hne : key ≠ header.metadata.key := by
      rintro rfl
      exact habout hheader
    obtain ⟨hpartials, hfewer, -⟩ := absorbFragment_other self fragment hne
    rw [habsorb self]
    refine ⟨hpartials.trans h.partials, ?_⟩
    exact iff_of_false (fun hin => Finset.notMem_empty key (h.completed.mp (hfewer hin)))
      (Finset.notMem_empty key)
  · rw [habsorb self]
    exact h

end FrameAssembly

/-! ## An assembly of one frame -/

section Lone

variable {F : Fragmentation}

/-- A result of the datagram decoder that is a fragment of the frame. -/
def Fragmentation.result (F : Fragmentation) (i : ℕ) : Except DatagramFecError (Option Bytes) :=
  .ok (some (F.object i))

/-- The results that are fragments are about the frame. -/
lemma about_result (i : ℕ) : FrameAssembly.about (F.result i) = some F.key := by
  have hlen := F.length_object i
  have hlong : ¬ (F.object i).length < mediaFrameHeaderLen := by
    rw [hlen, mediaFrameHeaderLen]
    omega
  rw [Fragmentation.result, FrameAssembly.about, if_neg hlong, F.decode_object]
  rfl

lemma result_injOn {i j : ℕ} (hi : i < F.count) (hj : j < F.count) (h : F.result i = F.result j) :
    i = j := by
  have hobject : F.object i = F.object j := Option.some.inj (Except.ok.inj h)
  have hheader : F.header i = F.header j := by
    have hdecode := F.decode_object i
    rw [hobject, F.decode_object] at hdecode
    exact (Except.ok.inj hdecode).symm
  rw [← F.toNat_fragmentIndex hi, ← F.toNat_fragmentIndex hj, hheader]

/-- **An assembly that is given fragments of one frame** rejects none, and returns the frame once
when they are all the fragments, and not at all otherwise. -/
theorem returnedFrames_lone {is : List ℕ} (his : ∀ i ∈ is, i < F.count) :
    let outs := runOutputs FrameAssembly.absorb FrameAssembly.new (is.map F.result)
    (∀ out ∈ outs, ∃ result, out = .ok result) ∧
      (F.Covered is.toFinset → returnedFrames outs = [F.frame.decoded]) ∧
      (¬ F.Covered is.toFinset → returnedFrames outs = []) := by
  intro outs
  have hinputs : List.Forall₂ (fun result symbol => ∃ i < F.count, result = F.result i ∧
      symbol = ((), i)) (is.map F.result) (Collector.ofBlock () is) := by
    rw [Collector.ofBlock, List.forall₂_map_left_iff, List.forall₂_map_right_iff, List.forall₂_same]
    exact fun i hi => ⟨i, his i hi, rfl, rfl⟩
  have hsim : List.Forall₂ (IsReturn F.frame) outs
      (runOutputs (Collector.push F.Complete DropsNothing) Collector.empty
        (Collector.ofBlock () is)) := by
    refine (run_simulates (R := Gathers F) (fun assembly c result symbol hgathers h => ?_)
      (gathers_new F) hinputs).1
    obtain ⟨i, hi, rfl, rfl⟩ := h
    exact gathers_absorb hgathers hi
  obtain ⟨hok, hreturned⟩ := returnedFrames_of_isReturn hsim
  have hunion : (Collector.empty : Collector Unit ℕ).held () ∪ is.toFinset = is.toFinset :=
    Finset.empty_union _
  have hopen : () ∉ (Collector.empty : Collector Unit ℕ).closed := Set.notMem_empty _
  refine ⟨hok, fun hall => ?_, fun hnot => ?_⟩
  · have hempty : ¬ F.Complete () ((Collector.empty : Collector Unit ℕ).held ()) :=
      fun hempty => Finset.notMem_empty 0 (hempty 0 F.count_pos)
    have hfires := Collector.phase_fires (id : ¬ DropsNothing () ()) hopen hempty
      (by rw [hunion]; exact hall)
    rw [Collector.fired] at hfires
    rw [hreturned, hfires.1]
    rfl
  · have hmono : ∀ s t : Finset ℕ, s ⊆ t → F.Complete () s → F.Complete () t :=
      fun s t hst hs j hj => hst (hs j hj)
    have hwaits : Collector.fired F.Complete DropsNothing Collector.empty (Collector.ofBlock () is)
        = [] :=
      (Collector.phase_waits hmono hopen (by rw [hunion]; exact hnot)).1
    rw [Collector.fired] at hwaits
    rw [hreturned, hwaits]
    rfl

end Lone

/-! ## All frames -/

section Frames

variable {X : Crates} {E : Encodings X} {e : Encoding X} {arrivals : List Bytes}

/-- No frame that passes the frame by more than 128 arrives between two of its datagrams. -/
def Encodings.Unpassed (E : Encodings X) (e : Encoding X) (arrivals : List Bytes) : Prop :=
  ∀ first between last, [first, between, last].Sublist arrivals →
    first ∈ e.encoded.datagrams → last ∈ e.encoded.datagrams →
    ∀ e' ∈ E.encodings, between ∈ e'.encoded.datagrams →
      ¬ e.frame.metadata.key.Behind e'.frame.metadata.key

/-- Every key is encoded once. -/
def Encodings.Once (E : Encodings X) : Prop :=
  ∀ e ∈ E.encodings, ∀ e' ∈ E.encodings, e.frame.metadata.key = e'.frame.metadata.key → e = e'

/-- The key of a fragment is that of the frame. -/
lemma Encoding.key_eq (e : Encoding X) (code : X.Systematic) :
    (e.transmission code).key = e.frame.metadata.key := by
  rw [Fragmentation.key, (e.isSent code).frame_eq]

lemma Encoding.frame_transmission (e : Encoding X) (code : X.Systematic) :
    (e.transmission code).frame = e.frame := (e.isSent code).frame_eq

/-- What a run of the datagram decoder hands to the assembly for one datagram. -/
structure Encodings.IsArrival (E : Encodings X) (code : X.Systematic) (e : Encoding X)
    (arrival : Bytes × Except DatagramFecError (Option Bytes)) (i : ℕ) : Prop where
  mem : e ∈ E.encodings
  index : i < (e.transmission code).count
  datagram : arrival.1 ∈ e.encoded.datagrams
  result : arrival.2 = (e.transmission code).result i
  wire : (wireSymbol X arrival.1).map Prod.fst = some ((e.transmission code).name i)

/-- An arrival that returns a block is one of the encoding of the block. -/
lemma Encodings.isArrival_of_block {code : X.Systematic}
    {arrival : Bytes × Except DatagramFecError (Option Bytes)}
    (hmem : ∃ e ∈ E.encodings, arrival.1 ∈ e.encoded.datagrams) {block : SourceBlock}
    (hb : block ∈ E.blockSet code) (hresult : arrival.2 = .ok (some block.object))
    (hwire : (wireSymbol X arrival.1).map Prod.fst = some block.id) :
    ∃ e i, E.IsArrival code e arrival i := by
  obtain ⟨e, he, hdatagram⟩ := hmem
  obtain ⟨i, hi, sequence, esi, hcarries⟩ := e.exists_carries code hdatagram
  have hown : (e.transmission code).block i ∈ E.blockSet code := ⟨e, he, i, hi, rfl⟩
  have hid : ((e.transmission code).block i).id = block.id := by
    rw [wireSymbol_of_carries hcarries] at hwire
    exact Option.some.inj hwire
  obtain rfl := BlockSet.eq_of_id hown hb hid
  refine ⟨e, i, he, hi, hdatagram, ?_, ?_⟩
  · rw [hresult, Transmission.object_block hi]
    rfl
  · rw [hwire, Transmission.id_block hi]
    rfl

lemma Encodings.IsArrival.about {code : X.Systematic} {i : ℕ}
    {arrival : Bytes × Except DatagramFecError (Option Bytes)} (h : E.IsArrival code e arrival i) :
    FrameAssembly.about arrival.2 = some e.frame.metadata.key := by
  rw [h.result, about_result, e.key_eq]

/-- A result about the frame of an encoding is one of its blocks. -/
lemma Encodings.isArrival_of_about {code : X.Systematic} (honce : E.Once) (he : e ∈ E.encodings)
    {arrival : Bytes × Except DatagramFecError (Option Bytes)}
    (h : arrival.2 = .ok none ∨ ∃ e i, E.IsArrival code e arrival i)
    (habout : FrameAssembly.about arrival.2 = some e.frame.metadata.key) :
    ∃ i, E.IsArrival code e arrival i := by
  rcases h with hnone | ⟨e', i, h⟩
  · rw [hnone] at habout
    cases habout
  · rw [h.about] at habout
    obtain rfl := honce e' h.mem e he (Option.some.inj habout)
    exact ⟨i, h⟩

/-- A datagram of an encoding only brings blocks of this encoding. -/
lemma Encodings.eq_of_isArrival {code : X.Systematic} {e' : Encoding X} {i : ℕ}
    {arrival : Bytes × Except DatagramFecError (Option Bytes)} (he : e ∈ E.encodings)
    (hdatagram : arrival.1 ∈ e.encoded.datagrams) (h : E.IsArrival code e' arrival i) : e' = e := by
  obtain ⟨j, hj, sequence, esi, hcarries⟩ := e.exists_carries code hdatagram
  have hwire := h.wire
  rw [wireSymbol_of_carries hcarries] at hwire
  have hid : (e.transmission code).name j = (e'.transmission code).name i :=
    (Transmission.id_block hj).symm.trans (Option.some.inj hwire)
  exact (E.ids_distinct e he e' h.mem _ ((e.isSent code).mem_blocks.mpr ⟨j, hj, rfl⟩) _
    ((e'.isSent code).mem_blocks.mpr ⟨i, h.index, rfl⟩) hid).symm

lemma exists_mem_zip_zip {α β γ : Type*} {as : List α} {bs : List β} {cs : List γ} {push : α × γ}
    (hlength : bs.length = as.length) (h : push ∈ as.zip cs) :
    ∃ b, ((push.1, b), push.2) ∈ (as.zip bs).zip cs := by
  obtain ⟨i, hi, rfl⟩ := List.mem_iff_getElem.mp h
  rw [List.length_zip, Nat.lt_min] at hi
  refine ⟨bs[i], List.mem_iff_getElem.mpr ⟨i, ?_, ?_⟩⟩
  · rw [List.length_zip, List.length_zip]
    omega
  · simp

/-- Some of the results are those of some fragments. -/
lemma exists_map_result {F : Fragmentation} {results : List (Except DatagramFecError (Option Bytes))}
    (h : ∀ result ∈ results, ∃ i < F.count, result = F.result i) :
    ∃ is : List ℕ, (∀ i ∈ is, i < F.count) ∧ results = is.map F.result := by
  induction results with
  | nil => exact ⟨[], by simp, rfl⟩
  | cons result results ih =>
      rw [List.forall_mem_cons] at h
      obtain ⟨i, hi, rfl⟩ := h.1
      obtain ⟨is, his, rfl⟩ := ih h.2
      exact ⟨i :: is, List.forall_mem_cons.mpr ⟨hi, his⟩, rfl⟩

/-- A result that makes the assembly return a frame is about this frame. -/
lemma about_of_returns {self : FrameAssembly} {result : Except DatagramFecError (Option Bytes)}
    {frame : DecodedMediaFrame} (h : (self.absorb result).1 = .ok (some frame)) :
    FrameAssembly.about result = some frame.metadata.key := by
  rcases FrameAssembly.absorb_cases result with ⟨header, fragment, hheader, habsorb⟩ |
    ⟨out, hnone, habsorb⟩
  · rw [habsorb self, FrameAssembly.absorbFragment] at h
    split_ifs at h with hin
    · cases h
    · rw [FrameAssembly.absorbInto] at h
      split at h
      · cases h
      · rename_i entry hinsert
        split_ifs at h with hcomplete
        · obtain ⟨frame', hfinish, hframe⟩ := map_eq_ok_iff.mp h
          obtain rfl := Option.some.inj hframe
          rw [hheader, MediaFecDecoder.metadata_of_finish hfinish,
            MediaFecDecoder.metadata_of_insert hinsert]
        · cases h
  · rw [habsorb self] at h
    exact absurd h (hnone frame)

lemma returnedFrames_cons_some (frame : DecodedMediaFrame) (outs : List MediaPushResult) :
    returnedFrames (.ok (some frame) :: outs) = frame :: returnedFrames outs := rfl

lemma returnedFrames_cons_none {out : MediaPushResult} (h : ∀ frame, out ≠ .ok (some frame))
    (outs : List MediaPushResult) : returnedFrames (out :: outs) = returnedFrames outs := by
  rcases out with error | - | frame
  · rfl
  · rfl
  · exact absurd rfl (h frame)

/-- A frame is returned by results that are about it. -/
lemma returnedFrames_filter (key : FrameKey)
    (inputs : List (Bytes × Except DatagramFecError (Option Bytes))) (self : FrameAssembly) :
    (returnedFrames (runOutputs (fun self arrival => FrameAssembly.absorb self arrival.2) self
        inputs)).filter (fun frame => frame.metadata.key = key)
      = returnedFrames (ownOutputs (FrameAssembly.ownResult key) inputs
          (runOutputs (fun self arrival => FrameAssembly.absorb self arrival.2) self inputs)) := by
  induction inputs generalizing self with
  | nil => rfl
  | cons arrival inputs ih =>
      rw [runOutputs_cons]
      by_cases hreturns : ∃ frame, (self.absorb arrival.2).1 = .ok (some frame)
      · obtain ⟨frame, hframe⟩ := hreturns
        have habout := about_of_returns hframe
        rw [hframe, returnedFrames_cons_some]
        by_cases hkey : frame.metadata.key = key
        · rw [List.filter_cons_of_pos (by simpa using hkey), ih,
            ownOutputs_cons_mine (FrameAssembly.ownResult_self (habout.trans (congrArg some hkey))),
            returnedFrames_cons_some]
        · have hother := FrameAssembly.ownResult_other fun heq =>
            hkey (Option.some.inj (habout.symm.trans heq))
          rw [List.filter_cons_of_neg (by simpa using hkey), ih, ownOutputs_cons_other hother]
      · push Not at hreturns
        rw [returnedFrames_cons_none hreturns, ih]
        cases hown : FrameAssembly.ownResult key arrival with
        | none => rw [ownOutputs_cons_other hown]
        | some result =>
            rw [ownOutputs_cons_mine hown, returnedFrames_cons_none hreturns]

/-- Every block of the encoding has enough symbols among the datagrams. -/
def Encoding.Recoverable (e : Encoding X) (code : X.Ideal) (arrivals : List Bytes) : Prop :=
  ∀ block ∈ e.encoded.blocks, (survivingSymbols X arrivals block.blockId).Nonempty ∧
    code.Decodable block.payloadLen e.encoded.decision.config.symbolSize
      (survivingSymbols X arrivals block.blockId)

lemma Encoding.recoverable_iff (code : X.Ideal) : e.Recoverable code arrivals ↔
    ∀ i < (e.transmission code.toSystematic).count,
      (survivingSymbols X arrivals ((e.transmission code.toSystematic).name i)).Nonempty ∧
        code.Decodable ((e.transmission code.toSystematic).object i).length
          (e.transmission code.toSystematic).symbolSize
          (survivingSymbols X arrivals ((e.transmission code.toSystematic).name i)) := by
  have hsent := e.isSent code.toSystematic
  rw [Recoverable, hsent.symbolSize_eq]
  constructor
  · exact fun h i hi => h _ (hsent.mem_blocks.mpr ⟨i, hi, rfl⟩)
  · intro h block hblock
    obtain ⟨i, hi, rfl⟩ := hsent.mem_blocks.mp hblock
    exact h i hi

section Behind

variable {code : X.Ideal}

/-- The datagrams of the encodings carry symbols of their blocks. -/
lemma Encodings.isSymbol (code : X.Systematic)
    (harrivals : ∀ datagram ∈ arrivals, ∃ e ∈ E.encodings, datagram ∈ e.encoded.datagrams) :
    ∀ datagram ∈ arrivals, ∃ symbol, IsSymbol code (E.blockSet code) datagram symbol := by
  intro datagram hdatagram
  obtain ⟨e, he, hmem⟩ := harrivals datagram hdatagram
  obtain ⟨i, hi, sequence, esi, hcarries⟩ := e.exists_carries code hmem
  exact ⟨(_, esi), _, ⟨e, he, i, hi, rfl⟩, sequence, rfl, hcarries⟩

variable (code) in
/-- The results of the datagram decoder on datagrams of the encodings. -/
lemma Encodings.isArrival_of_run
    (harrivals : ∀ datagram ∈ arrivals, ∃ e ∈ E.encodings, datagram ∈ e.encoded.datagrams) :
    ∀ arrival ∈ arrivals.zip (runOutputs DatagramFecDecoder.pushDatagram
        (DatagramFecDecoder.new (X := X)) arrivals),
      arrival.2 = .ok none ∨ ∃ e i, E.IsArrival code.toSystematic e arrival i := by
  intro arrival hin
  have hsymbols := forall₂_filterMap (Encodings.isSymbol code.toSystematic harrivals)
  rcases result_of_arrival code (simulates_new code _) hsymbols arrival hin with
    hnone | ⟨block, hb, hresult, hwire⟩
  · exact Or.inl hnone
  · exact Or.inr (Encodings.isArrival_of_block
      (harrivals arrival.1 (List.of_mem_zip hin).1) hb hresult hwire)

/-- The blocks that the datagram decoder returns of an encoding. -/
lemma Encodings.returned_iff (he : e ∈ E.encodings)
    (harrivals : ∀ datagram ∈ arrivals, ∃ e ∈ E.encodings, datagram ∈ e.encoded.datagrams)
    (huncut : Uncut X arrivals) {i : ℕ} (hi : i < (e.transmission code.toSystematic).count) :
    ((e.transmission code.toSystematic).name i, (e.transmission code.toSystematic).object i)
        ∈ returnedBlocks X arrivals (runOutputs DatagramFecDecoder.pushDatagram
            (DatagramFecDecoder.new (X := X)) arrivals) ↔
      (survivingSymbols X arrivals ((e.transmission code.toSystematic).name i)).Nonempty ∧
        code.Decodable ((e.transmission code.toSystematic).object i).length
          (e.transmission code.toSystematic).symbolSize
          (survivingSymbols X arrivals ((e.transmission code.toSystematic).name i)) := by
  set T := e.transmission code.toSystematic
  have hb : T.block i ∈ E.blockSet code.toSystematic := ⟨e, he, i, hi, rfl⟩
  have hid : (T.block i).id = T.name i := Transmission.id_block hi
  rw [(returnedBlocks_arrivals code (Encodings.isSymbol code.toSystematic harrivals) huncut).2.2]
  constructor
  · rintro ⟨block, hblock, heq, hsurvive⟩
    obtain ⟨hname, -⟩ := Prod.mk.inj heq
    obtain rfl := BlockSet.eq_of_id hblock hb (hname.symm.trans hid.symm)
    rwa [hid, Transmission.object_block hi, Transmission.symbolSize_block hi] at hsurvive
  · intro hsurvive
    refine ⟨T.block i, hb, ?_, ?_⟩
    · rw [hid, Transmission.object_block hi]
    · rwa [hid, Transmission.object_block hi, Transmission.symbolSize_block hi]

/-- The results that belong to a frame are fragments of it: those of its blocks that the datagram
decoder returns. -/
lemma Encodings.own_results (honce : E.Once) (he : e ∈ E.encodings)
    {results : List (Except DatagramFecError (Option Bytes))}
    (hresults : ∀ arrival ∈ arrivals.zip results,
      arrival.2 = .ok none ∨ ∃ e i, E.IsArrival code.toSystematic e arrival i) :
    ∃ is : List ℕ, (∀ i ∈ is, i < (e.transmission code.toSystematic).count) ∧
      (arrivals.zip results).filterMap (FrameAssembly.ownResult e.frame.metadata.key)
        = is.map (e.transmission code.toSystematic).result ∧
      ∀ i < (e.transmission code.toSystematic).count, i ∈ is ↔
        ((e.transmission code.toSystematic).name i, (e.transmission code.toSystematic).object i)
          ∈ returnedBlocks X arrivals results := by
  set T := e.transmission code.toSystematic
  have hmine : ∀ arrival ∈ arrivals.zip results,
      FrameAssembly.about arrival.2 = some e.frame.metadata.key →
      ∃ i, E.IsArrival code.toSystematic e arrival i :=
    fun arrival hin => Encodings.isArrival_of_about honce he (hresults arrival hin)
  have hown : ∀ result ∈ (arrivals.zip results).filterMap
      (FrameAssembly.ownResult e.frame.metadata.key), ∃ i < T.count, result = T.result i := by
    intro result hresult
    obtain ⟨arrival, hin, hsome⟩ := List.mem_filterMap.mp hresult
    have habout := FrameAssembly.isSome_ownResult.mp (Option.isSome_iff_exists.mpr ⟨result, hsome⟩)
    obtain ⟨i, h⟩ := hmine arrival hin habout
    rw [FrameAssembly.ownResult_self habout, h.result] at hsome
    exact ⟨i, h.index, (Option.some.inj hsome).symm⟩
  obtain ⟨is, his, heq⟩ := exists_map_result hown
  refine ⟨is, his, heq, fun i hi => ?_⟩
  rw [mem_returnedBlocks]
  constructor
  · intro hmem
    have hresult : T.result i ∈ is.map T.result := List.mem_map_of_mem hmem
    rw [← heq] at hresult
    obtain ⟨arrival, hin, hsome⟩ := List.mem_filterMap.mp hresult
    have habout := FrameAssembly.isSome_ownResult.mp (Option.isSome_iff_exists.mpr ⟨_, hsome⟩)
    obtain ⟨j, h⟩ := hmine arrival hin habout
    rw [FrameAssembly.ownResult_self habout, h.result] at hsome
    obtain rfl := result_injOn h.index hi (Option.some.inj hsome)
    exact ⟨arrival, hin, h.result, h.wire⟩
  · rintro ⟨arrival, hin, hresult, -⟩
    have habout : FrameAssembly.about arrival.2 = some e.frame.metadata.key := by
      rw [hresult]
      exact (about_result i).trans (congrArg some (e.key_eq code.toSystematic))
    have hmem : arrival.2 ∈ is.map T.result := by
      rw [← heq]
      exact List.mem_filterMap.mpr ⟨arrival, hin, FrameAssembly.ownResult_self habout⟩
    obtain ⟨j, hj, hsame⟩ := List.mem_map.mp hmem
    obtain rfl := result_injOn (his j hj) hi (hsame.trans hresult)
    exact hj

end Behind

/-- To a frame that is not passed, the assembly behind the datagram decoder is one of its own. -/
lemma Encodings.served {code : X.Systematic} (honce : E.Once) (he : e ∈ E.encodings)
    {results : List (Except DatagramFecError (Option Bytes))}
    (hlength : results.length = arrivals.length)
    (hresults : ∀ arrival ∈ arrivals.zip results,
      arrival.2 = .ok none ∨ ∃ e i, E.IsArrival code e arrival i)
    (hunpassed : E.Unpassed e arrivals) :
    ownOutputs (FrameAssembly.ownResult e.frame.metadata.key) (arrivals.zip results)
        (runOutputs (fun self arrival => FrameAssembly.absorb self arrival.2) FrameAssembly.new
          (arrivals.zip results))
      = runOutputs FrameAssembly.absorb FrameAssembly.new ((arrivals.zip results).filterMap
          (FrameAssembly.ownResult e.frame.metadata.key)) := by
  set key := e.frame.metadata.key
  refine (FrameAssembly.serves_frame key).outputs_eq_between ?_
    (fun self => FrameAssembly.AgreesOn key self FrameAssembly.new) (fun _ h => h)
    (fun self arrival h hother => ?_) ⟨rfl, Iff.rfl⟩ ?_
  · intro arrival _ hsome current habout hbehind
    rw [FrameAssembly.isSome_ownResult.mp hsome] at habout
    exact hbehind.ne (Option.some.inj habout)
  · refine FrameAssembly.fresh_absorb h fun habout => ?_
    rw [FrameAssembly.ownResult_self habout] at hother
    cases hother
  · -- between two blocks of the frame there are only datagrams of frames that do not pass it
    intro first between last hfirst hlast hsub current habout
    obtain ⟨i, hi⟩ := Encodings.isArrival_of_about honce he
      (hresults first (hsub.subset (by simp))) (FrameAssembly.isSome_ownResult.mp hfirst)
    obtain ⟨j, hj⟩ := Encodings.isArrival_of_about honce he
      (hresults last (hsub.subset (by simp))) (FrameAssembly.isSome_ownResult.mp hlast)
    have hdatagrams := hsub.map Prod.fst
    rw [List.map_fst_zip (Nat.le_of_eq hlength.symm)] at hdatagrams
    rcases hresults between (hsub.subset (by simp)) with hnone | ⟨e', k, hk⟩
    · rw [hnone] at habout
      cases habout
    · rw [hk.about] at habout
      rw [← Option.some.inj habout]
      exact hunpassed _ _ _ hdatagrams hi.datagram hj.datagram e' hk.mem hk.datagram

/-- While the datagram decoder is silent, so is the assembly. -/
lemma silent_of_silent (inputs : List (Bytes × Except DatagramFecError (Option Bytes))) :
    ∀ answered ∈ inputs.zip (runOutputs (fun self arrival => FrameAssembly.absorb self arrival.2)
      FrameAssembly.new inputs), answered.1.2 = .ok none → answered.2 = .ok none := by
  refine forall_mem_zip _ (P := fun (arrival : Bytes × Except DatagramFecError (Option Bytes))
      (out : MediaPushResult) => arrival.2 = .ok none → out = .ok none)
    (fun _ => True) (fun self arrival _ => ⟨fun hnone => ?_, trivial⟩) trivial inputs
  rw [hnone]
  rfl

/-- What the decoder returns of a frame, and what it answers to the datagrams of the frame. -/
lemma Encodings.frame_of_run (code : X.Ideal) (honce : E.Once)
    (harrivals : ∀ datagram ∈ arrivals, ∃ e ∈ E.encodings, datagram ∈ e.encoded.datagrams)
    (huncut : Uncut X arrivals) (he : e ∈ E.encodings) (hunpassed : E.Unpassed e arrivals) :
    let outs := runOutputs MediaFecDecoder.pushDatagram (MediaFecDecoder.new (X := X)) arrivals
    let returned := (returnedFrames outs).filter fun frame =>
      frame.metadata.key = e.frame.metadata.key
    (e.Recoverable code arrivals → returned = [e.frame.decoded]) ∧
      (¬ e.Recoverable code arrivals → returned = []) ∧
      ∀ push ∈ arrivals.zip outs, push.1 ∈ e.encoded.datagrams → ∃ result, push.2 = .ok result := by
  intro outs returned
  set T := e.transmission code.toSystematic with hT
  set results := runOutputs DatagramFecDecoder.pushDatagram (DatagramFecDecoder.new (X := X))
    arrivals with hresults
  set key := e.frame.metadata.key with hkey
  have harrival := Encodings.isArrival_of_run code harrivals
  have hlength : results.length = arrivals.length := length_runOutputs _ _ _
  -- the run of the assembly, on the datagrams with the results of the datagram decoder
  have houts : outs = runOutputs (fun self arrival => FrameAssembly.absorb self arrival.2)
      FrameAssembly.new (arrivals.zip results) := by
    rw [← runOutputs_map FrameAssembly.absorb Prod.snd, List.map_snd_zip (Nat.le_of_eq hlength)]
    exact pushDatagram_run _ _
  obtain ⟨is, his, hown, hreturned⟩ := E.own_results honce he harrival
  have hserved := E.served honce he hlength harrival hunpassed
  rw [← houts, hown] at hserved
  obtain ⟨hok, hall, hnone⟩ := returnedFrames_lone his
  rw [← hserved] at hok hall hnone
  have hfilter : returned
      = returnedFrames (ownOutputs (FrameAssembly.ownResult key) (arrivals.zip results) outs) := by
    change (returnedFrames outs).filter _ = _
    rw [houts]
    exact returnedFrames_filter key _ _
  have hcovered : T.Covered is.toFinset ↔ e.Recoverable code arrivals := by
    rw [e.recoverable_iff code]
    refine forall₂_congr fun i hi => ?_
    rw [List.mem_toFinset, hreturned i hi, E.returned_iff he harrivals huncut hi]
  rw [hfilter, ← hcovered, ← Encoding.frame_transmission e code.toSystematic]
  refine ⟨hall, hnone, fun push hpush hdatagram => ?_⟩
  obtain ⟨result, hanswered⟩ := exists_mem_zip_zip hlength hpush
  have hin : (push.1, result) ∈ arrivals.zip results := (List.of_mem_zip hanswered).1
  rcases harrival _ hin with hsilent | ⟨e', i, h⟩
  · have hnothing := silent_of_silent (arrivals.zip results)
    rw [← houts] at hnothing
    exact ⟨none, hnothing _ hanswered hsilent⟩
  · obtain rfl := Encodings.eq_of_isArrival he hdatagram h
    refine hok push.2 (List.mem_filterMap.mpr ⟨_, hanswered, ?_⟩)
    rw [FrameAssembly.ownResult_self h.about]
    rfl

/-- **Every frame is recovered from its own datagrams.**  Frames of distinct keys are encoded under
distinct block ids, and their datagrams reach a fresh decoder in any order, lost, repeated and
interleaved, as long as between two datagrams of a block there arrives none of a block that does not
retain it (`Uncut`).  A frame that is not passed between two of its own datagrams is returned
exactly once if enough symbols of all its blocks arrive, and not at all otherwise; none of its
datagrams is rejected. -/
theorem frames_recovered (code : X.Ideal) (E : Encodings X) (honce : E.Once)
    (arrivals : List Bytes)
    (harrivals : ∀ datagram ∈ arrivals, ∃ e ∈ E.encodings, datagram ∈ e.encoded.datagrams)
    (huncut : Uncut X arrivals) (e : Encoding X) (he : e ∈ E.encodings)
    (hunpassed : E.Unpassed e arrivals) :
    let outs := runOutputs MediaFecDecoder.pushDatagram (MediaFecDecoder.new (X := X)) arrivals
    let returned := (returnedFrames outs).filter fun frame =>
      frame.metadata.key = e.frame.metadata.key
    (e.Recoverable code arrivals → returned = [e.frame.decoded]) ∧
      (¬ e.Recoverable code arrivals → returned = []) ∧
      ∀ push ∈ arrivals.zip outs, push.1 ∈ e.encoded.datagrams → ∃ result, push.2 = .ok result :=
  E.frame_of_run code honce harrivals huncut he hunpassed

end Frames

/-- One encoding. -/
def oneEncoding {X : Crates} (e : Encoding X) : Encodings X where
  encodings := {e}
  frame_unique := by
    rintro a rfl b rfl -
    rfl
  ids_distinct := by
    rintro a rfl b rfl - - - - -
    rfl

/-- Of blocks of one symbol, it is enough that this symbol arrives. -/
lemma recoverable_of_one {T : Transmission} {e : Encoding repetition} {arrivals : List Bytes}
    (hsent : T.IsSent repetitionIdeal.toSystematic e.encoder e.frame e.encoded)
    (hone : ∀ i < T.count, survivingSymbols repetition arrivals (T.encodedBlock i).blockId = {0} ∧
      symbolsFor (T.encodedBlock i).payloadLen T.symbolSize = 1) :
    e.Recoverable repetitionIdeal arrivals := by
  intro block hblock
  obtain ⟨i, hi, rfl⟩ := hsent.mem_blocks.mp hblock
  obtain ⟨hsurvive, hsymbols⟩ := hone i hi
  rw [hsent.symbolSize_eq, hsurvive]
  refine ⟨⟨0, Finset.mem_singleton_self 0⟩, fun k hk => ⟨0, Finset.mem_singleton_self 0, ?_⟩⟩
  rw [hsymbols] at hk ⊢
  rw [Nat.lt_one_iff.mp hk]

/-- Five bytes in two blocks. -/
def fiveBytes : Transmission :=
  slicedTransmission [1, 2, 3, 4, 5] 3 7 (by decide) (by decide)

/-- The blocks change places, and one arrives twice. -/
def swapped : List Bytes :=
  [1, 0, 1].map fun i => fiveBytes.datagram repetitionIdeal.toSystematic i 0

lemma uncut_swapped : Uncut repetition swapped := by
  have hids : blockIds repetition swapped = [8, 7, 8] := by decide +kernel
  exact uncut_of_retained hids (by decide)

section FiveBytes

variable {e : Encoding repetition}
  (hsent : fiveBytes.IsSent repetitionIdeal.toSystematic e.encoder e.frame e.encoded)

include hsent

lemma mem_of_mem_swapped : ∀ datagram ∈ swapped, datagram ∈ e.encoded.datagrams := by
  intro datagram hdatagram
  obtain ⟨i, hi, rfl⟩ := List.mem_map.mp hdatagram
  have hcount : fiveBytes.count = 2 := by decide
  have hsmall : ∀ j ∈ [1, 0, 1], j < 2 := by decide
  exact datagram_mem hsent (hcount ▸ hsmall i hi)

lemma recoverable_swapped : e.Recoverable repetitionIdeal swapped := by
  have hcount : fiveBytes.count = 2 := by decide
  have hone : ∀ i < 2,
      survivingSymbols repetition swapped (fiveBytes.encodedBlock i).blockId = {0} ∧
        symbolsFor (fiveBytes.encodedBlock i).payloadLen fiveBytes.symbolSize = 1 := by
    decide +kernel
  exact recoverable_of_one hsent fun i hi => hone i (hcount ▸ hi)

end FiveBytes

lemma once_oneEncoding {X : Crates} (e : Encoding X) : (oneEncoding e).Once := by
  rintro a rfl b rfl -
  rfl

lemma unpassed_oneEncoding {X : Crates} (e : Encoding X) (arrivals : List Bytes) :
    (oneEncoding e).Unpassed e arrivals := by
  rintro first between last - - - e' rfl - hbehind
  exact hbehind.ne rfl

theorem frames_recovered_two :
    (returnedFrames (runOutputs MediaFecDecoder.pushDatagram (MediaFecDecoder.new (X := repetition))
        swapped)).filter
        (fun frame => frame.metadata.key = (sampleFrame [1, 2, 3, 4, 5]).metadata.key)
      = [(sampleFrame [1, 2, 3, 4, 5]).decoded] := by
  obtain ⟨e, hframe, hsent⟩ := sliced_accepts [1, 2, 3, 4, 5] 3 7 (by decide) (by decide)
  rw [← hframe]
  exact (frames_recovered repetitionIdeal (oneEncoding e) (once_oneEncoding e) swapped
    (fun datagram hdatagram => ⟨e, rfl, mem_of_mem_swapped hsent datagram hdatagram⟩)
    uncut_swapped e rfl (unpassed_oneEncoding e swapped)).1 (recoverable_swapped hsent)

end RaptorFec
