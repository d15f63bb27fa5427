import RaptorFec.Library.Recency
import RaptorFec.Media.Layout

/-!
# The backfill store

`MediaBackfillStore` keeps the datagrams of the frames sent last, so that a receiver can ask for
them again.  An inserted frame replaces the one with its key, and when there are too many the
oldest one goes.

* `MediaBackfillStore` — the queue of frames, with its invariants: distinct keys, and no more frames
  than the capacity;
* `insertFrame_eq_keepLatest` — one insertion is `keepLatest`;
* `Available` — what a history of insertions leaves available under a key;
* `insertEncodedFrames_latest` — the store holds, returns and delivers exactly that.
-/

namespace RaptorFec

structure MediaBackfillKey where
  streamId : UInt64
  sequence : UInt64
  deriving DecidableEq, Repr

/-- `From<MediaFrameMetadata>`. -/
def MediaBackfillKey.ofMetadata (metadata : MediaFrameMetadata) : MediaBackfillKey :=
  ⟨metadata.streamId, metadata.sequence⟩

structure MediaBackfillDatagram where
  datagramIndex : ℕ
  bytes : Bytes
  deriving DecidableEq, Repr

inductive MediaBackfillRequest where
  | frame (key : MediaBackfillKey)
  | datagrams (key : MediaBackfillKey) (datagramIndices : List ℕ)
  deriving DecidableEq, Repr

/-- `MediaBackfillRequest::key`. -/
def MediaBackfillRequest.key : MediaBackfillRequest → MediaBackfillKey
  | .frame key => key
  | .datagrams key _ => key

structure MediaBackfillResponse where
  key : MediaBackfillKey
  datagrams : List MediaBackfillDatagram
  deriving DecidableEq, Repr

/-- A stored frame; `contents` is the private field `datagrams`. -/
structure MediaBackfillFrame where
  key : MediaBackfillKey
  metadata : MediaFrameMetadata
  stats : MediaFecFrameStats
  contents : List Bytes
  deriving DecidableEq, Repr

namespace MediaBackfillFrame

variable (self : MediaBackfillFrame)

/-- `datagram`. -/
def datagram (index : ℕ) : Option Bytes := self.contents[index]?

/-- `datagrams`. -/
def datagrams : List MediaBackfillDatagram :=
  self.contents.zipIdx.map fun entry => ⟨entry.2, entry.1⟩

/-- The stored form of an encoded frame. -/
def ofEncoded (frame : EncodedMediaFrame) : MediaBackfillFrame :=
  { key := MediaBackfillKey.ofMetadata frame.metadata
    metadata := frame.metadata
    stats := frame.stats
    contents := frame.datagrams }

end MediaBackfillFrame

structure MediaBackfillStore where
  capacityFrames : ℕ
  frames : List MediaBackfillFrame
  capacity_pos : 0 < capacityFrames
  distinct : (frames.map fun frame => frame.key).Nodup
  bounded : frames.length ≤ capacityFrames

/-- The loop of `insert_encoded_frame`: pop the front while there are too many frames. -/
def popFrames (capacityFrames : ℕ) : List MediaBackfillFrame → List MediaBackfillFrame
  | [] => []
  | frame :: frames =>
      if capacityFrames < (frame :: frames).length then popFrames capacityFrames frames
      else frame :: frames

/-- The frames after an insertion: the one with the key of the new one is removed, the new one is
pushed to the back, and the oldest ones are popped. -/
def insertFrame (capacityFrames : ℕ) (frames : List MediaBackfillFrame)
    (frame : MediaBackfillFrame) : List MediaBackfillFrame :=
  let others := match frames.findIdx? fun candidate => candidate.key = frame.key with
    | some index => frames.eraseIdx index
    | none => frames
  popFrames capacityFrames (others ++ [frame])

lemma popFrames_eq_trim (capacityFrames : ℕ) (frames : List MediaBackfillFrame) :
    popFrames capacityFrames frames = trim capacityFrames frames := by
  induction frames with
  | nil => simp [popFrames, trim]
  | cons frame frames ih =>
      rw [popFrames]
      split_ifs with hlong
      · rw [ih, trim_cons_of_lt hlong]
      · rw [trim_of_le (Nat.not_lt.mp hlong)]

/-- Inserting keeps the latest frames. -/
lemma insertFrame_eq_keepLatest (capacityFrames : ℕ) (frames : List MediaBackfillFrame)
    (frame : MediaBackfillFrame) : insertFrame capacityFrames frames frame
      = keepLatest (fun frame => frame.key) capacityFrames frames frame := by
  have herase : frames.eraseP (fun candidate => decide (candidate.key = frame.key)) = _ :=
    List.eraseP_eq_eraseIdx
  rw [insertFrame, popFrames_eq_trim, keepLatest, herase]
  cases frames.findIdx? fun candidate => decide (candidate.key = frame.key) with
  | none => rfl
  | some index => rfl

namespace MediaBackfillStore

/-- `MediaBackfillStore::new`. -/
def new (capacityFrames : ℕ) : MediaBackfillStore where
  capacityFrames := max capacityFrames 1
  frames := []
  capacity_pos := Nat.lt_of_lt_of_le Nat.zero_lt_one (Nat.le_max_right _ _)
  distinct := List.nodup_nil
  bounded := Nat.zero_le _

variable (self : MediaBackfillStore)

/-- `insert_encoded_frame`. -/
def insertEncodedFrame (frame : EncodedMediaFrame) : MediaBackfillStore where
  capacityFrames := self.capacityFrames
  frames := insertFrame self.capacityFrames self.frames (MediaBackfillFrame.ofEncoded frame)
  capacity_pos := self.capacity_pos
  distinct := by
    rw [insertFrame_eq_keepLatest]
    exact nodup_keepLatest self.distinct
  bounded := by
    rw [insertFrame_eq_keepLatest]
    exact length_keepLatest_le

/-- `get`. -/
def get (key : MediaBackfillKey) : Option MediaBackfillFrame :=
  self.frames.find? fun frame => frame.key = key

/-- `fulfill`. -/
def fulfill (request : MediaBackfillRequest) : Option MediaBackfillResponse :=
  match self.get request.key with
  | none => none
  | some frame =>
      let datagrams := match request with
        | .frame _ => frame.datagrams
        | .datagrams _ datagramIndices => datagramIndices.filterMap fun datagramIndex =>
            (frame.datagram datagramIndex).map fun bytes => ⟨datagramIndex, bytes⟩
      if datagrams.isEmpty then none else some ⟨frame.key, datagrams⟩

/-- A lookup finds the one frame with the key. -/
lemma get_eq_some_iff {store : MediaBackfillStore} {key : MediaBackfillKey}
    {frame : MediaBackfillFrame} :
    store.get key = some frame ↔ frame ∈ store.frames ∧ frame.key = key := by
  constructor
  · intro h
    exact ⟨List.mem_of_find?_eq_some h, by simpa using List.find?_some h⟩
  · rintro ⟨hmem, hkey⟩
    have hsome : (store.get key).isSome := by
      rw [get, List.find?_isSome]
      exact ⟨frame, hmem, by simpa using hkey⟩
    obtain ⟨found, hfound⟩ := Option.isSome_iff_exists.mp hsome
    have hin : found ∈ store.frames := List.mem_of_find?_eq_some hfound
    have hsame : found.key = key := by simpa using List.find?_some hfound
    rw [hfound, List.inj_on_of_nodup_map store.distinct hin hmem (hsame.trans hkey.symm)]

end MediaBackfillStore

/-! ## Responses -/

section Responses

variable {contents : List Bytes}

/-- The requested datagrams of a frame: those in range, in the order of the request. -/
lemma eq_filterMap_iff (indices : List ℕ) (ds : List MediaBackfillDatagram) :
    ds = indices.filterMap (fun i => contents[i]?.map fun bytes => ⟨i, bytes⟩) ↔
      ds.map (·.datagramIndex) = indices.filter (· < contents.length) ∧
        ∀ d ∈ ds, contents[d.datagramIndex]? = some d.bytes := by
  induction indices generalizing ds with
  | nil =>
      constructor
      · rintro rfl
        simp
      · rintro ⟨hnil, -⟩
        simpa using hnil
  | cons i indices ih =>
      by_cases hi : i < contents.length
      · have hbytes : contents[i]? = some contents[i] := List.getElem?_eq_getElem hi
        rw [List.filter_cons_of_pos (by simpa using hi),
          List.filterMap_cons_some (b := ⟨i, contents[i]⟩) (by simp [hbytes])]
        cases ds with
        | nil => simp
        | cons d ds =>
            rw [List.cons.injEq, ih ds, List.map_cons, List.cons.injEq, List.forall_mem_cons]
            constructor
            · rintro ⟨rfl, hindices, hall⟩
              exact ⟨⟨rfl, hindices⟩, hbytes, hall⟩
            · rintro ⟨⟨hindex, hindices⟩, hd, hall⟩
              rcases d with ⟨index, bytes⟩
              change index = i at hindex
              subst hindex
              obtain rfl := Option.some.inj (hbytes.symm.trans hd)
              exact ⟨rfl, hindices, hall⟩
      · rw [List.filter_cons_of_neg (by simpa using hi),
          List.filterMap_cons_none (by simpa using hi)]
        exact ih ds

/-- All datagrams of a frame are those with the indices below their number. -/
lemma map_zipIdx_eq_filterMap : (contents.zipIdx.map fun entry => ⟨entry.2, entry.1⟩)
    = (List.range contents.length).filterMap fun i =>
        contents[i]?.map fun bytes => (⟨i, bytes⟩ : MediaBackfillDatagram) := by
  rw [eq_filterMap_iff]
  constructor
  · rw [List.map_map, List.filter_eq_self.mpr (by simp), List.range_eq_range']
    exact List.zipIdx_map_snd 0 contents
  · intro d hd
    obtain ⟨⟨bytes, i⟩, hin, rfl⟩ := List.mem_map.mp hd
    exact List.mem_zipIdx_iff_getElem?.mp hin

/-- An answer is never empty. -/
lemma respond_eq_some_iff {key : MediaBackfillKey} {indices : List ℕ}
    {response : MediaBackfillResponse} {ds : List MediaBackfillDatagram}
    (hds : ds = indices.filterMap fun i => contents[i]?.map fun bytes => ⟨i, bytes⟩) :
    (if ds.isEmpty then none else some ⟨key, ds⟩) = some response ↔
      response.key = key ∧ response.datagrams ≠ [] ∧
      response.datagrams.map (·.datagramIndex) = indices.filter (· < contents.length) ∧
      ∀ d ∈ response.datagrams, contents[d.datagramIndex]? = some d.bytes := by
  rcases response with ⟨key', ds'⟩
  rw [← eq_filterMap_iff, ← hds]
  split_ifs with hempty
  · rw [List.isEmpty_iff] at hempty
    simp only [hempty, false_iff, not_and]
    intro _ hne heq
    exact hne heq
  · rw [Option.some.injEq, MediaBackfillResponse.mk.injEq]
    constructor
    · rintro ⟨rfl, rfl⟩
      exact ⟨rfl, fun hnil => hempty (List.isEmpty_iff.mpr hnil), rfl⟩
    · rintro ⟨rfl, -, rfl⟩
      exact ⟨rfl, rfl⟩

end Responses

/-! ## Histories of insertions -/

/-- The frame is the last one of the history with the key, and fewer than `capacity` distinct
other keys come after it. -/
def Available (history : List EncodedMediaFrame) (capacity : ℕ) (key : MediaBackfillKey)
    (encoded : EncodedMediaFrame) : Prop :=
  ∃ before after, history = before ++ encoded :: after ∧
    MediaBackfillKey.ofMetadata encoded.metadata = key ∧
    (∀ later ∈ after, MediaBackfillKey.ofMetadata later.metadata ≠ key) ∧
    (after.map fun later => MediaBackfillKey.ofMetadata later.metadata).toFinset.card < capacity

/-- The store has what the history leaves available, and answers with it. -/
structure MediaBackfillStore.KeepsLatest (store : MediaBackfillStore)
    (history : List EncodedMediaFrame) : Prop where
  /-- The keys, each once: the last ones of the distinct keys in the order of their last
  insertion. -/
  keys : store.frames.map (fun frame => frame.key) = trim store.capacityFrames
    (history.map fun encoded => MediaBackfillKey.ofMetadata encoded.metadata).dedup
  get_iff : ∀ key frame, store.get key = some frame ↔
    ∃ encoded, Available history store.capacityFrames key encoded ∧ frame.key = key ∧
      frame.metadata = encoded.metadata ∧ frame.stats = encoded.stats ∧
      frame.contents = encoded.datagrams
  /-- A frame request is answered with all datagrams, in order. -/
  frame_iff : ∀ key response, store.fulfill (.frame key) = some response ↔
    ∃ encoded, Available history store.capacityFrames key encoded ∧ response.key = key ∧
      response.datagrams ≠ [] ∧
      response.datagrams.map (·.datagramIndex) = List.range encoded.datagrams.length ∧
      ∀ d ∈ response.datagrams, encoded.datagrams[d.datagramIndex]? = some d.bytes
  frame_none_iff : ∀ key, store.fulfill (.frame key) = none ↔
    ∀ encoded, Available history store.capacityFrames key encoded → encoded.datagrams = []
  /-- A datagram request is answered with the requested ones in range, in the order of the
  request. -/
  datagrams_iff : ∀ key indices response,
    store.fulfill (.datagrams key indices) = some response ↔
      ∃ encoded, Available history store.capacityFrames key encoded ∧ response.key = key ∧
        response.datagrams ≠ [] ∧
        response.datagrams.map (·.datagramIndex)
          = indices.filter (· < encoded.datagrams.length) ∧
        ∀ d ∈ response.datagrams, encoded.datagrams[d.datagramIndex]? = some d.bytes
  datagrams_none_iff : ∀ key indices, store.fulfill (.datagrams key indices) = none ↔
    ∀ encoded, Available history store.capacityFrames key encoded →
      ∀ i ∈ indices, encoded.datagrams.length ≤ i

namespace MediaBackfillStore

/-- The queue after a history of insertions. -/
lemma frames_foldl (capacityFrames : ℕ) (history : List EncodedMediaFrame) :
    let store := history.foldl insertEncodedFrame (new capacityFrames)
    store.capacityFrames = max capacityFrames 1 ∧
      store.frames = trim (max capacityFrames 1)
        (latest (fun frame => frame.key) (history.map MediaBackfillFrame.ofEncoded)) := by
  have hloop : ∀ store : MediaBackfillStore,
      (history.foldl insertEncodedFrame store).capacityFrames = store.capacityFrames ∧
      (history.foldl insertEncodedFrame store).frames
        = (history.map MediaBackfillFrame.ofEncoded).foldl
            (keepLatest (fun frame => frame.key) store.capacityFrames) store.frames := by
    induction history with
    | nil => exact fun store => ⟨rfl, rfl⟩
    | cons encoded history ih =>
        intro store
        obtain ⟨hcapacity, hframes⟩ := ih (store.insertEncodedFrame encoded)
        refine ⟨hcapacity, hframes.trans ?_⟩
        rw [List.map_cons, List.foldl_cons, ← insertFrame_eq_keepLatest]
        rfl
  obtain ⟨hcapacity, hframes⟩ := hloop (new capacityFrames)
  refine ⟨hcapacity, hframes.trans ?_⟩
  exact foldl_keepLatest _ _ _

/-- A lookup after a history of insertions. -/
lemma get_foldl (capacityFrames : ℕ) (history : List EncodedMediaFrame) (key : MediaBackfillKey)
    (frame : MediaBackfillFrame) :
    (history.foldl insertEncodedFrame (new capacityFrames)).get key = some frame ↔
      ∃ encoded, Available history (max capacityFrames 1) key encoded ∧
        frame = MediaBackfillFrame.ofEncoded encoded := by
  have hframes := (frames_foldl capacityFrames history).2
  rw [get_eq_some_iff, hframes, mem_trim_latest]
  constructor
  · rintro ⟨⟨before, after, hsplit, hafter, hfew⟩, hkey⟩
    obtain ⟨before', rest, rfl, rfl, hrest⟩ := List.map_eq_append_iff.mp hsplit
    obtain ⟨encoded, after', rfl, rfl, rfl⟩ := List.map_eq_cons_iff.mp hrest
    rw [List.map_map] at hafter hfew
    refine ⟨encoded, ⟨before', after', rfl, hkey, ?_, hfew⟩, rfl⟩
    intro later hlater heq
    exact hafter (List.mem_map.mpr ⟨later, hlater, heq.trans hkey.symm⟩)
  · rintro ⟨encoded, ⟨before, after, rfl, hkey, hafter, hfew⟩, rfl⟩
    refine ⟨⟨before.map MediaBackfillFrame.ofEncoded, after.map MediaBackfillFrame.ofEncoded,
      ?_, ?_, ?_⟩, hkey⟩
    · rw [List.map_append, List.map_cons]
    · rw [List.map_map]
      intro hmem
      obtain ⟨later, hlater, heq⟩ := List.mem_map.mp hmem
      exact hafter later hlater (heq.trans hkey)
    · rw [List.map_map]
      exact hfew

/-- The request stands for the indices `indices n` of a frame of `n` datagrams. -/
def RequestsIndices (request : MediaBackfillRequest) (indices : ℕ → List ℕ) : Prop :=
  ∀ store frame, get store request.key = some frame → ∃ ds,
    ds = (indices frame.contents.length).filterMap
        (fun i => frame.contents[i]?.map fun bytes => ⟨i, bytes⟩) ∧
    fulfill store request = if ds.isEmpty then none else some ⟨frame.key, ds⟩

lemma requestsIndices_frame (key : MediaBackfillKey) :
    RequestsIndices (.frame key) List.range := by
  intro store frame hfound
  refine ⟨_, map_zipIdx_eq_filterMap, ?_⟩
  rw [fulfill, hfound]
  rfl

lemma requestsIndices_datagrams (key : MediaBackfillKey) (indices : List ℕ) :
    RequestsIndices (.datagrams key indices) fun _ => indices := by
  intro store frame hfound
  refine ⟨_, rfl, ?_⟩
  rw [fulfill, hfound]
  rfl

/-- No answer is given when no available frame has a datagram that is asked for. -/
lemma fulfill_foldl_none (capacityFrames : ℕ) (history : List EncodedMediaFrame)
    {request : MediaBackfillRequest} {indices : ℕ → List ℕ}
    (hrequest : RequestsIndices request indices) :
    (history.foldl insertEncodedFrame (new capacityFrames)).fulfill request = none ↔
      ∀ encoded, Available history (max capacityFrames 1) request.key encoded →
        ∀ i ∈ indices encoded.datagrams.length, encoded.datagrams.length ≤ i := by
  have hget := get_foldl capacityFrames history request.key
  generalize history.foldl insertEncodedFrame (new capacityFrames) = store at hget ⊢
  have hempty : ∀ encoded,
      Available history (max capacityFrames 1) request.key encoded →
      (store.fulfill request = none ↔
        ∀ i ∈ indices encoded.datagrams.length, encoded.datagrams.length ≤ i) := by
    intro encoded havailable
    obtain ⟨ds, hds, hfulfill⟩ := hrequest store _ ((hget _).mpr ⟨encoded, havailable, rfl⟩)
    have hindices := ((eq_filterMap_iff _ _).mp hds).1
    have hnone : ds = [] ↔ ∀ i ∈ indices encoded.datagrams.length,
        encoded.datagrams.length ≤ i := by
      rw [← List.map_eq_nil_iff (f := fun d : MediaBackfillDatagram => d.datagramIndex), hindices,
        List.filter_eq_nil_iff]
      refine forall₂_congr fun i _ => ?_
      rw [decide_eq_true_eq, Nat.not_lt]
      rfl
    rw [hfulfill, ← hnone]
    cases ds <;> simp
  cases hfound : store.get request.key with
  | none =>
      rw [fulfill, hfound]
      simp only [true_iff]
      intro encoded havailable
      have hsome := (hget _).mpr ⟨encoded, havailable, rfl⟩
      rw [hfound] at hsome
      cases hsome
  | some frame =>
      obtain ⟨encoded, havailable, rfl⟩ := (hget frame).mp hfound
      constructor
      · intro hnone encoded' havailable'
        exact (hempty encoded' havailable').mp hnone
      · intro hall
        exact (hempty encoded havailable).mpr (hall encoded havailable)

/-- An answer has the datagrams that are asked for and that the available frame has. -/
lemma fulfill_foldl (capacityFrames : ℕ) (history : List EncodedMediaFrame)
    {request : MediaBackfillRequest} {indices : ℕ → List ℕ}
    (hrequest : RequestsIndices request indices) (response : MediaBackfillResponse) :
    (history.foldl insertEncodedFrame (new capacityFrames)).fulfill request = some response ↔
      ∃ encoded, Available history (max capacityFrames 1) request.key encoded ∧
        response.key = request.key ∧ response.datagrams ≠ [] ∧
        response.datagrams.map (·.datagramIndex)
          = (indices encoded.datagrams.length).filter (· < encoded.datagrams.length) ∧
        ∀ d ∈ response.datagrams, encoded.datagrams[d.datagramIndex]? = some d.bytes := by
  have hget := get_foldl capacityFrames history request.key
  generalize history.foldl insertEncodedFrame (new capacityFrames) = store at hget ⊢
  cases hfound : store.get request.key with
  | none =>
      rw [fulfill, hfound]
      simp only [reduceCtorEq, false_iff, not_exists, not_and]
      intro encoded havailable
      have hsome := (hget _).mpr ⟨encoded, havailable, rfl⟩
      rw [hfound] at hsome
      cases hsome
  | some frame =>
      obtain ⟨ds, hds, hfulfill⟩ := hrequest store frame hfound
      obtain ⟨encoded, havailable, rfl⟩ := (hget frame).mp hfound
      have hkey : (MediaBackfillFrame.ofEncoded encoded).key = request.key := by
        obtain ⟨-, -, -, hkey, -⟩ := havailable
        exact hkey
      rw [hfulfill, respond_eq_some_iff hds, hkey]
      constructor
      · intro hanswer
        exact ⟨encoded, havailable, hanswer⟩
      · rintro ⟨encoded', havailable', hanswer⟩
        have hsame := (hget _).mpr ⟨encoded', havailable', rfl⟩
        rw [hfound, Option.some.injEq] at hsame
        have hcontents : encoded.datagrams = encoded'.datagrams :=
          congrArg MediaBackfillFrame.contents hsame
        rw [← hcontents] at hanswer
        exact hanswer

/-- **What the store holds after any history of insertions**: the latest frames, one for each of
the keys inserted last, and it answers requests with their datagrams. -/
theorem insertEncodedFrames_latest (capacityFrames : ℕ) (history : List EncodedMediaFrame) :
    let store := history.foldl insertEncodedFrame (new capacityFrames)
    store.capacityFrames = max capacityFrames 1 ∧ store.KeepsLatest history := by
  intro store
  obtain ⟨hcapacity, hframes⟩ := frames_foldl capacityFrames history
  refine ⟨hcapacity, ?_, ?_, ?_, ?_, ?_, ?_⟩
  · have hmap : (latest (fun frame => frame.key)
        (history.map MediaBackfillFrame.ofEncoded)).map (fun frame => frame.key)
        = (history.map fun encoded => MediaBackfillKey.ofMetadata encoded.metadata).dedup := by
      rw [map_latest, List.map_map]
      rfl
    rw [hframes, hcapacity, ← hmap, trim, trim, List.map_drop, List.length_map]
  · intro key frame
    rw [get_foldl, hcapacity]
    refine exists_congr fun encoded => and_congr_right fun havailable => ?_
    obtain ⟨-, -, -, hkey, -⟩ := havailable
    rcases frame with ⟨key', metadata, stats, contents⟩
    rw [MediaBackfillFrame.ofEncoded, MediaBackfillFrame.mk.injEq, hkey]
  · intro key response
    have hrange : ∀ n, (List.range n).filter (· < n) = List.range n :=
      fun n => List.filter_eq_self.mpr (by simp)
    rw [fulfill_foldl capacityFrames history (requestsIndices_frame key), hcapacity]
    simp only [hrange]
    rfl
  · intro key
    rw [fulfill_foldl_none capacityFrames history (requestsIndices_frame key), hcapacity]
    refine forall_congr' fun encoded => forall_congr' fun _ => ?_
    rw [← List.length_eq_zero_iff]
    constructor
    · intro hall
      by_contra hpos
      have hlt : 0 < encoded.datagrams.length := Nat.pos_of_ne_zero hpos
      have hle := hall 0 (List.mem_range.mpr hlt)
      omega
    · intro hzero i hi
      omega
  · intro key indices response
    rw [fulfill_foldl capacityFrames history (requestsIndices_datagrams key indices), hcapacity]
    rfl
  · intro key indices
    rw [fulfill_foldl_none capacityFrames history (requestsIndices_datagrams key indices),
      hcapacity]
    rfl

end MediaBackfillStore

end RaptorFec
