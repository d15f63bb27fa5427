import RaptorFec.Media.Arrivals
import RaptorFec.Media.Backfill

/-!
# Frames from the wire and from the store

A receiver that misses datagrams of a frame asks the backfill store for them, and pushes what the
store answers into the decoder it pushes everything else into.

* `mem_reply` — what the answer to a request holds: the datagrams asked for of the frame that the
  history of insertions leaves available under the key;
* `Encoding.recoverable_of_source` — a frame whose source datagrams all arrive is recovered;
* `backfill_recovered` — what the decoder returns of a frame, with the answers to any requests
  among the arrivals, and the requests after which it returns the frame.
-/

namespace RaptorFec

/-! ## Answers -/

/-- The datagram with this index is asked for. -/
def MediaBackfillRequest.Asks : MediaBackfillRequest → ℕ → Prop
  | .frame _, _ => True
  | .datagrams _ datagramIndices, index => index ∈ datagramIndices

namespace MediaBackfillStore

/-- The datagrams in the answer to a request; none if there is no answer. -/
def reply (self : MediaBackfillStore) (request : MediaBackfillRequest) : List Bytes :=
  match self.fulfill request with
  | none => []
  | some response => response.datagrams.map fun datagram => datagram.bytes

/-- The store after a history of insertions. -/
def after (capacityFrames : ℕ) (history : List EncodedMediaFrame) : MediaBackfillStore :=
  history.foldl insertEncodedFrame (new capacityFrames)

variable {store : MediaBackfillStore} {request : MediaBackfillRequest} {frame : MediaBackfillFrame}
  {bytes : Bytes}

lemma reply_eq {indices : ℕ → List ℕ} (hrequest : RequestsIndices request indices)
    (hget : store.get request.key = some frame) :
    store.reply request = (indices frame.contents.length).filterMap fun i => frame.contents[i]? := by
  obtain ⟨ds, hds, hfulfill⟩ := hrequest store frame hget
  have hbytes : ds.map (fun datagram => datagram.bytes)
      = (indices frame.contents.length).filterMap fun i => frame.contents[i]? := by
    rw [hds, List.map_filterMap]
    refine List.filterMap_congr fun i _ => ?_
    rw [Option.map_map]
    exact Option.map_id'
  rw [reply, hfulfill, ← hbytes]
  split_ifs with hempty
  · rw [List.isEmpty_iff.mp hempty]
    rfl
  · rfl

lemma mem_reply_of_get (hget : store.get request.key = some frame) :
    bytes ∈ store.reply request ↔ ∃ i, request.Asks i ∧ frame.contents[i]? = some bytes := by
  cases request with
  | frame key =>
      rw [reply_eq (requestsIndices_frame key) hget, List.mem_filterMap]
      constructor
      · rintro ⟨i, -, hi⟩
        exact ⟨i, trivial, hi⟩
      · rintro ⟨i, -, hi⟩
        exact ⟨i, List.mem_range.mpr (List.getElem?_eq_some_iff.mp hi).1, hi⟩
  | datagrams key datagramIndices =>
      rw [reply_eq (requestsIndices_datagrams key datagramIndices) hget, List.mem_filterMap]
      rfl

/-- **What a request is answered with**, after any history of insertions. -/
theorem mem_reply (capacityFrames : ℕ) (history : List EncodedMediaFrame) :
    bytes ∈ (after capacityFrames history).reply request ↔
      ∃ encoded, Available history (max capacityFrames 1) request.key encoded ∧
        ∃ i, request.Asks i ∧ encoded.datagrams[i]? = some bytes := by
  have hget := get_foldl capacityFrames history request.key
  rw [← after] at hget
  cases hfound : (after capacityFrames history).get request.key with
  | none =>
      rw [reply, fulfill, hfound]
      refine iff_of_false List.not_mem_nil ?_
      rintro ⟨encoded, havailable, -⟩
      have hsome := (hget _).mpr ⟨encoded, havailable, rfl⟩
      rw [hfound] at hsome
      cases hsome
  | some frame =>
      rw [mem_reply_of_get hfound]
      constructor
      · intro hasked
        obtain ⟨encoded, havailable, rfl⟩ := (hget frame).mp hfound
        exact ⟨encoded, havailable, hasked⟩
      · rintro ⟨encoded, havailable, hasked⟩
        have hsame := (hget _).mpr ⟨encoded, havailable, rfl⟩
        obtain rfl := Option.some.inj (hfound.symm.trans hsame)
        exact hasked

end MediaBackfillStore

lemma mem_of_available {history : List EncodedMediaFrame} {capacity : ℕ} {key : MediaBackfillKey}
    {encoded : EncodedMediaFrame} (h : Available history capacity key encoded) :
    encoded ∈ history := by
  obtain ⟨before, after, rfl, -⟩ := h
  exact List.mem_append_right _ List.mem_cons_self

/-! ## Frames whose source datagrams arrive -/

section Frames

variable {X : Crates} {E : Encodings X} {e : Encoding X} {arrivals : List Bytes}

/-- The source symbols of a block are at its source indices. -/
lemma Transmission.IsSent.source {code : X.Systematic} {T : Transmission}
    {encoder : MediaFecEncoder} {frame : MediaFrame} {encoded : EncodedMediaFrame}
    (h : T.IsSent code encoder frame encoded) {i esi : ℕ} (hi : i < T.count)
    (hesi : esi < symbolsFor (T.object i).length T.symbolSize) :
    encoded.datagramRole (T.first i + esi) = some .source ∧
      encoded.datagrams[T.first i + esi]? = some (T.datagram code i esi) := by
  have hblock : T.encodedBlock i ∈ encoded.blocks := h.mem_blocks.mpr ⟨i, hi, rfl⟩
  have hfits := T.fits_encodedBlock hi
  have hemitted := Nat.lt_of_lt_of_le hesi (T.sourceSymbols_le_emitted i)
  have hrole : (T.encodedBlock i).datagramRole (T.first i + esi) = some .source := by
    rw [hfits.datagramRole_source, toNat_sourceSymbols hi]
    exact ⟨Nat.le_add_right _ _, Nat.add_lt_add_left hesi _⟩
  have hin : T.first i + esi ∈ (T.encodedBlock i).datagramIndices := by
    rw [← hfits.isSome_datagramRole, hrole]
    rfl
  have hlength := h.laidOut.lt_length hblock hin
  refine ⟨(h.laidOut.datagramRole_eq hblock hin).trans hrole, ?_⟩
  rw [List.getElem?_eq_getElem hlength, ← List.getD_eq_getElem _ [] hlength, h.datagrams_eq]
  exact congrArg some (getD_datagrams code hi hemitted)

/-- **A frame is recovered from its source datagrams.** -/
lemma Encoding.recoverable_of_source (code : X.Ideal)
    (hsource : ∀ i datagram, e.encoded.datagramRole i = some .source →
      e.encoded.datagrams[i]? = some datagram → datagram ∈ arrivals) :
    e.Recoverable code arrivals := by
  set T := e.transmission code.toSystematic
  have hsent : T.IsSent code.toSystematic e.encoder e.frame e.encoded := e.isSent _
  rw [e.recoverable_iff code]
  intro i hi
  have hsub : Finset.range (symbolsFor (T.object i).length T.symbolSize)
      ⊆ survivingSymbols X arrivals (T.name i) := by
    intro esi hesi
    have hesi := Finset.mem_range.mp hesi
    obtain ⟨hrole, hdatagram⟩ := hsent.source hi hesi
    have hemitted := Nat.lt_of_lt_of_le hesi (T.sourceSymbols_le_emitted i)
    have hwire := wireSymbol_of_carries (Transmission.carries code.toSystematic hi hemitted)
    refine mem_survivingSymbols_iff.mpr ⟨_, hsource _ _ hrole hdatagram, ?_⟩
    rw [hwire, Transmission.id_block hi]
    rfl
  have hpos : 0 < symbolsFor (T.object i).length T.symbolSize := by
    have hpos := (T.block i).sourceSymbols_pos
    rwa [Transmission.sourceSymbols_block hi] at hpos
  exact ⟨⟨0, hsub (Finset.mem_range.mpr hpos)⟩,
    code.decodable_mono _ _ _ _ hsub (code.decodable_source _ _)⟩

/-! ## Frames that are asked for -/

/-- Every source datagram of the encoding arrived, or was asked for while the store had the frame,
and what the store answered arrived. -/
def Encoding.Requested (e : Encoding X) (capacityFrames : ℕ) (history : List EncodedMediaFrame)
    (arrivals : List Bytes) : Prop :=
  ∀ i datagram, e.encoded.datagramRole i = some .source →
    e.encoded.datagrams[i]? = some datagram → datagram ∈ arrivals ∨
      ∃ past request, past <+: history ∧
        Available past (max capacityFrames 1) request.key e.encoded ∧ request.Asks i ∧
        ∀ answer ∈ (MediaBackfillStore.after capacityFrames past).reply request, answer ∈ arrivals

/-- **Frames from the wire and from the store.**  Frames of distinct keys are encoded under distinct
block ids and inserted into a store, some of them, in any order and any number of times.  A fresh
decoder gets some of their datagrams, from the wire or in answers to requests at any times, lost,
repeated and interleaved as long as between two datagrams of a block there arrives none of a block
that does not retain it (`Uncut`).  A frame that is not passed between two of its own datagrams is
returned exactly once if enough symbols of all its blocks arrive, and not at all otherwise; none of
its datagrams is rejected.  Asking for the missing source datagrams while the store has the frame is
enough, when the answers arrive. -/
theorem backfill_recovered (code : X.Ideal) (E : Encodings X) (honce : E.Once)
    (capacityFrames : ℕ) (history : List EncodedMediaFrame)
    (hhistory : ∀ encoded ∈ history, ∃ e ∈ E.encodings, e.encoded = encoded)
    (arrivals : List Bytes)
    (harrivals : ∀ datagram ∈ arrivals, (∃ e ∈ E.encodings, datagram ∈ e.encoded.datagrams) ∨
      ∃ past request, past <+: history ∧
        datagram ∈ (MediaBackfillStore.after capacityFrames past).reply request)
    (huncut : Uncut X arrivals) (e : Encoding X) (he : e ∈ E.encodings)
    (hunpassed : E.Unpassed e arrivals) :
    let outs := runOutputs MediaFecDecoder.pushDatagram (MediaFecDecoder.new (X := X)) arrivals
    let returned := (returnedFrames outs).filter fun frame =>
      frame.metadata.key = e.frame.metadata.key
    (e.Recoverable code arrivals → returned = [e.frame.decoded]) ∧
      (¬ e.Recoverable code arrivals → returned = []) ∧
      (∀ push ∈ arrivals.zip outs, push.1 ∈ e.encoded.datagrams →
        ∃ result, push.2 = .ok result) ∧
      (e.Requested capacityFrames history arrivals → returned = [e.frame.decoded]) := by
  intro outs returned
  -- the store answers with datagrams that were sent
  have hsent : ∀ datagram ∈ arrivals, ∃ e ∈ E.encodings, datagram ∈ e.encoded.datagrams := by
    intro datagram hdatagram
    rcases harrivals datagram hdatagram with hwire | ⟨past, request, hpast, hreply⟩
    · exact hwire
    · obtain ⟨encoded, havailable, i, -, hi⟩ :=
        (MediaBackfillStore.mem_reply capacityFrames past).mp hreply
      obtain ⟨e, he, rfl⟩ := hhistory encoded (hpast.subset (mem_of_available havailable))
      exact ⟨e, he, List.mem_of_getElem? hi⟩
  obtain ⟨hall, hnone, hok⟩ := E.frame_of_run code honce hsent huncut he hunpassed
  refine ⟨hall, hnone, hok, fun hrequested => hall ?_⟩
  refine e.recoverable_of_source code fun i datagram hrole hdatagram => ?_
  rcases hrequested i datagram hrole hdatagram with harrived |
    ⟨past, request, -, havailable, hasks, hanswered⟩
  · exact harrived
  · exact hanswered datagram ((MediaBackfillStore.mem_reply capacityFrames past).mpr
      ⟨e.encoded, havailable, i, hasks, hdatagram⟩)

end Frames

/-- The second block arrives, and the first one in the answer to a request. -/
theorem backfill_recovered_two :
    ∃ encoded : EncodedMediaFrame,
      let arrivals := fiveBytes.datagram repetitionIdeal.toSystematic 1 0
        :: (MediaBackfillStore.after 1 [encoded]).reply
            (.datagrams (MediaBackfillKey.ofMetadata encoded.metadata) [0])
      (returnedFrames (runOutputs MediaFecDecoder.pushDatagram
          (MediaFecDecoder.new (X := repetition)) arrivals)).filter
          (fun frame => frame.metadata.key = (sampleFrame [1, 2, 3, 4, 5]).metadata.key)
        = [(sampleFrame [1, 2, 3, 4, 5]).decoded] := by
  obtain ⟨e, hframe, hsent⟩ := sliced_accepts [1, 2, 3, 4, 5] 3 7 (by decide) (by decide)
  have hsent : fiveBytes.IsSent repetitionIdeal.toSystematic e.encoder e.frame e.encoded := hsent
  set request := MediaBackfillRequest.datagrams (MediaBackfillKey.ofMetadata e.encoded.metadata) [0]
  have hstore : Available [e.encoded] (max 1 1) request.key e.encoded :=
    ⟨[], [], rfl, rfl, by simp, by simp⟩
  have hcontents : e.encoded.datagrams = [fiveBytes.datagram repetitionIdeal.toSystematic 0 0,
      fiveBytes.datagram repetitionIdeal.toSystematic 1 0] := by
    rw [hsent.datagrams_eq]
    decide +kernel
  have hreply : (MediaBackfillStore.after 1 [e.encoded]).reply request
      = [fiveBytes.datagram repetitionIdeal.toSystematic 0 0] := by
    have hget := (MediaBackfillStore.get_foldl 1 [e.encoded] request.key _).mpr ⟨_, hstore, rfl⟩
    rw [MediaBackfillStore.after,
      MediaBackfillStore.reply_eq (MediaBackfillStore.requestsIndices_datagrams _ [0]) hget,
      MediaBackfillFrame.ofEncoded, hcontents]
    rfl
  refine ⟨e.encoded, ?_⟩
  rw [← hframe]
  refine (backfill_recovered repetitionIdeal (oneEncoding e) (once_oneEncoding e) 1 [e.encoded]
    (fun encoded hencoded => ⟨e, rfl, (List.mem_singleton.mp hencoded).symm⟩) _
    (fun datagram hdatagram => ?_) ?_ e rfl (unpassed_oneEncoding e _)).2.2.2 ?_
  · rcases List.mem_cons.mp hdatagram with rfl | hanswer
    · exact Or.inl ⟨e, rfl, hcontents ▸ by simp⟩
    · exact Or.inr ⟨_, request, List.prefix_refl _, hanswer⟩
  · have hids : blockIds repetition [fiveBytes.datagram repetitionIdeal.toSystematic 1 0,
        fiveBytes.datagram repetitionIdeal.toSystematic 0 0] = [8, 7] := by
      decide +kernel
    rw [hreply]
    exact uncut_of_retained hids (by decide)
  · intro i datagram _ hdatagram
    rw [hcontents] at hdatagram
    rcases i with - | - | i
    · exact Or.inr ⟨_, request, List.prefix_refl _, hstore, List.mem_singleton_self 0,
        fun answer hanswer => List.mem_cons_of_mem _ hanswer⟩
    · exact Or.inl (Option.some.inj hdatagram ▸ List.mem_cons_self)
    · cases hdatagram

end RaptorFec
