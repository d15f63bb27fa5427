import RaptorFec.Crates.Repetition
import RaptorFec.Media.Decoder

/-!
# Recovery of a single frame

A frame is sent, some of its datagrams are dropped, and the rest is pushed into a new decoder.

* `returned_of_fired` — whatever the order, the frame is returned once if the collector behind the
  datagram decoder fires every block of the frame, and not at all otherwise;
* `encodeFrame_recovers_emitted` — in the order of emission that happens exactly when each block
  keeps a decodable set of symbols.
-/

namespace RaptorFec

variable {X : Crates}

/-! ## What a run returns -/

/-- The frames that the pushes of a run return. -/
def returnedFrames (outs : List MediaPushResult) : List DecodedMediaFrame :=
  outs.filterMap fun out => match out with
    | .ok frame => frame
    | .error _ => none

/-- The push returns the frame when the second collector fires, and nothing otherwise. -/
def IsReturn (frame : MediaFrame) (out : MediaPushResult) (fired : Option Unit) : Prop :=
  out = .ok (fired.map fun _ => frame.decoded)

lemma returnedFrames_of_isReturn {frame : MediaFrame} {outs : List MediaPushResult}
    {fired : List (Option Unit)} (h : List.Forall₂ (IsReturn frame) outs fired) :
    (∀ out ∈ outs, ∃ result, out = .ok result) ∧
      returnedFrames outs = fired.reduceOption.map fun _ => frame.decoded := by
  induction h with
  | nil => exact ⟨fun out hout => absurd hout (by simp), rfl⟩
  | cons hreturn _ ih =>
      refine ⟨fun out hout => ?_, ?_⟩
      · rcases List.mem_cons.mp hout with rfl | hout
        · exact ⟨_, hreturn⟩
        · exact ih.1 out hout
      · rename_i out o outs os _
        have hcons : returnedFrames (out :: outs)
            = (o.map fun _ => frame.decoded).toList ++ returnedFrames outs := by
          rw [hreturn]
          cases o <;> rfl
        rw [hcons, ih.2]
        cases o with
        | none => rfl
        | some u => rfl

/-! ## The assembly of one frame -/

/-- All fragments arrived, as the end of a block of a collector. -/
def Fragmentation.Complete (F : Fragmentation) (_ : Unit) (seen : Finset ℕ) : Prop := F.Covered seen

/-- Nothing is dropped. -/
def DropsNothing (_ _ : Unit) : Prop := False

/-- The assembly holds the fragments of one frame that a collector holds. -/
structure Gathers (F : Fragmentation) (assembly : FrameAssembly) (c : Collector Unit ℕ) : Prop where
  closed : () ∈ c.closed ↔ F.key ∈ assembly.completed
  filled : PartialFrame.Filled F (c.held ()) ((assembly.partials.lookup F.key).getD F.fresh)

lemma gathers_new (F : Fragmentation) : Gathers F FrameAssembly.new Collector.empty where
  closed := ⟨fun h => absurd h (Set.notMem_empty _), fun h => absurd h (Finset.notMem_empty _)⟩
  filled := filled_fresh F

/-- **One fragment is one symbol of a collector** that fires when all fragments are there. -/
lemma gathers_absorb {F : Fragmentation} {assembly : FrameAssembly} {c : Collector Unit ℕ} {i : ℕ}
    (h : Gathers F assembly c) (hi : i < F.count) :
    IsReturn F.frame (assembly.absorbBlock (F.object i)).1
        (c.push F.Complete DropsNothing ((), i)).1 ∧
      Gathers F (assembly.absorbBlock (F.object i)).2
        (c.push F.Complete DropsNothing ((), i)).2 := by
  rw [absorbBlock_object hi]
  by_cases hclosed : () ∈ c.closed
  · rw [Collector.push_closed hclosed, absorbFragment_closed (h.closed.mp hclosed)]
    exact ⟨rfl, h⟩
  rw [absorbFragment_open fun hc => hclosed (h.closed.mpr hc)]
  by_cases hcovered : F.Covered (insert i (c.held ()))
  · rw [Collector.push_fires hclosed hcovered, absorbInto_returns h.filled hi hcovered]
    refine ⟨rfl, ⟨fun _ => mem_pruneCompleted_self _ _, fun _ => ⟨Or.inl rfl, id⟩⟩, ?_⟩
    rw [Collector.held_close_self, Finmap.lookup_erase]
    exact filled_fresh F
  · obtain ⟨entry, hfilled, habsorb⟩ := absorbInto_waits h.filled hi hcovered
    rw [Collector.push_waits hclosed hcovered, habsorb]
    refine ⟨rfl, h.closed, ?_⟩
    rw [Finmap.lookup_insert]
    exact (congrArg (PartialFrame.Filled F · entry)
      (Function.update_self () (insert i (c.held ())) c.held)).mpr hfilled

/-! ## From the blocks to the frame -/

namespace Transmission

variable (T : Transmission)

/-- The source blocks of a transmission. -/
def blockSet : BlockSet where
  blocks := {b | ∃ i < T.count, b = T.block i}
  inj := by
    rintro b ⟨i, hi, rfl⟩ b' ⟨j, hj, rfl⟩ hid
    rw [id_block hi, id_block hj] at hid
    rw [id_injOn hi hj hid]

/-- The id of the block of a fragment. -/
def name (i : ℕ) : UInt32 := T.baseId + UInt32.ofNat i

variable {T} {i : ℕ}

lemma block_mem (hi : i < T.count) : T.block i ∈ T.blockSet := ⟨i, hi, rfl⟩

lemma ahead_name (hi : i < T.count) : ahead T.baseId (T.name i) = i :=
  ahead_add_ofNat (Nat.lt_trans hi (Nat.lt_trans T.count_lt (by decide)))

/-- The fragment in the block the datagram decoder fired. -/
def position (T : Transmission) (id : UInt32) : Unit × ℕ := ((), ahead T.baseId id)

/-- One result of the datagram decoder is one symbol of the collector of fragments. -/
lemma absorb_result {assembly : FrameAssembly} {c : Collector Unit ℕ}
    {result : Except DatagramFecError (Option Bytes)} {fired : Option UInt32}
    (h : Gathers T.toFragmentation assembly c) (hresult : IsResult T.blockSet result fired) :
    IsReturn T.frame (assembly.absorb result).1
        (optionStep (Collector.push T.Complete DropsNothing) c (fired.map T.position)).1 ∧
      Gathers T.toFragmentation (assembly.absorb result).2
        (optionStep (Collector.push T.Complete DropsNothing) c (fired.map T.position)).2 := by
  cases fired with
  | none =>
      obtain rfl : result = .ok none := hresult
      exact ⟨rfl, h⟩
  | some id =>
      obtain ⟨block, ⟨i, hi, rfl⟩, rfl, rfl⟩ := hresult
      have hposition : T.position (T.block i).id = ((), i) := by
        rw [id_block hi]
        exact congrArg (Prod.mk ()) (ahead_name hi)
      rw [Option.map_some, hposition, object_block hi]
      exact gathers_absorb h hi

/-- **What a run returns.**  On honest datagrams of a transmission no push fails; the frame is
returned once if every block is fired, and not at all otherwise. -/
theorem returned_of_fired (code : X.Ideal) {datagrams : List Bytes} {symbols : List (UInt32 × ℕ)}
    (h : List.Forall₂ (IsSymbol code.toSystematic T.blockSet) datagrams symbols) :
    let outs := runOutputs MediaFecDecoder.pushDatagram (MediaFecDecoder.new (X := X)) datagrams
    let fired := Collector.fired (DoneIn code T.blockSet) DropsId Collector.empty symbols
    (∀ out ∈ outs, ∃ result, out = .ok result) ∧
      ((∀ i < T.count, T.name i ∈ fired) → returnedFrames outs = [T.frame.decoded]) ∧
      (¬ (∀ i < T.count, T.name i ∈ fired) → returnedFrames outs = []) := by
  intro outs fired
  have hfec := (simulates_run code T.blockSet (simulates_new code T.blockSet) h).1
  set results := runOutputs DatagramFecDecoder.pushDatagram (DatagramFecDecoder.new (X := X))
    datagrams with hresults
  set closings := runOutputs (Collector.push (DoneIn code T.blockSet) DropsId) Collector.empty
    symbols with hclosings
  have hinputs : List.Forall₂ (fun result fired => ∃ id, IsResult T.blockSet result id ∧
      fired = id.map T.position) results (closings.map (Option.map T.position)) := by
    rw [List.forall₂_map_right_iff]
    exact hfec.imp fun result id hid => ⟨id, hid, rfl⟩
  have hsim := (run_simulates (R := Gathers T.toFragmentation) (O := IsReturn T.frame)
    (fun assembly c result fired hgathers ⟨id, hid, hfired⟩ => hfired ▸ absorb_result hgathers hid)
    (gathers_new T.toFragmentation) hinputs).1
  have hrun : outs = runOutputs FrameAssembly.absorb FrameAssembly.new results :=
    pushDatagram_run _ _
  rw [← hrun] at hsim
  obtain ⟨hok, hreturned⟩ := returnedFrames_of_isReturn hsim
  have hgathered : (runOutputs (optionStep (Collector.push T.Complete DropsNothing))
      Collector.empty (closings.map (Option.map T.position))).reduceOption
      = Collector.fired T.Complete DropsNothing Collector.empty
          (Collector.ofBlock () (fired.map (ahead T.baseId))) := by
    rw [reduceOption_optionStep, List.reduceOption_map, Collector.ofBlock, List.map_map]
    rfl
  rw [hgathered] at hreturned
  have hcovered : T.Covered (fired.map (ahead T.baseId)).toFinset
      ↔ ∀ i < T.count, T.name i ∈ fired := by
    refine forall₂_congr fun i hi => ?_
    rw [List.mem_toFinset, List.mem_map]
    constructor
    · rintro ⟨id, hid, rfl⟩
      rwa [name, add_ofNat_ahead]
    · exact fun hmem => ⟨T.name i, hmem, ahead_name hi⟩
  have hunion : (Collector.empty : Collector Unit ℕ).held ()
      ∪ (fired.map (ahead T.baseId)).toFinset = (fired.map (ahead T.baseId)).toFinset :=
    Finset.empty_union _
  have hopen : () ∉ (Collector.empty : Collector Unit ℕ).closed := Set.notMem_empty _
  refine ⟨hok, fun hall => ?_, fun hnot => ?_⟩
  · have hempty : ¬ T.Complete () ((Collector.empty : Collector Unit ℕ).held ()) :=
      fun hempty => Finset.notMem_empty 0 (hempty 0 T.count_pos)
    have hfires := Collector.phase_fires (id : ¬ DropsNothing () ()) hopen hempty
      (by rw [hunion]; exact hcovered.mpr hall)
    rw [hreturned, hfires.1]
    rfl
  · have hmono : ∀ s t : Finset ℕ, s ⊆ t → T.Complete () s → T.Complete () t :=
      fun s t hst hs j hj => hst (hs j hj)
    rw [hreturned, (Collector.phase_waits hmono hopen
      (by rw [hunion]; exact fun hc => hnot (hcovered.mp hc))).1]
    rfl

/-! ## Symbols in sending order -/

/-- Symbols of the blocks, by block id. -/
def byName (T : Transmission) (es : ℕ → List ℕ) (id : UInt32) : List ℕ := es (ahead T.baseId id)

lemma byName_name (hi : i < T.count) (es : ℕ → List ℕ) : T.byName es (T.name i) = es i := by
  rw [byName, ahead_name hi]

/-- Datagrams of the blocks in order carry the symbols of a pass. -/
lemma isSymbol_pass (code : X.Systematic) {es : ℕ → List ℕ}
    (hes : ∀ i < T.count, ∀ e ∈ es i, e < T.emitted i) :
    List.Forall₂ (IsSymbol code T.blockSet)
      ((List.range T.count).flatMap fun i => (es i).map (T.datagram code i))
      (Collector.pass (Collector.schedule T.count T.name) (T.byName es)) := by
  have hpart : ∀ is : List ℕ, (∀ i ∈ is, i < T.count) →
      List.Forall₂ (IsSymbol code T.blockSet)
        (is.flatMap fun i => (es i).map (T.datagram code i))
        (Collector.pass (is.map T.name) (T.byName es)) := by
    intro is his
    induction is with
    | nil => exact .nil
    | cons i is ih =>
        have hi := his i List.mem_cons_self
        rw [List.flatMap_cons, List.map_cons, Collector.pass_cons, byName_name hi,
          Collector.ofBlock]
        refine List.rel_append ?_ (ih fun j hj => his j (List.mem_cons_of_mem _ hj))
        rw [List.forall₂_map_left_iff, List.forall₂_map_right_iff, List.forall₂_same]
        exact fun e he => ⟨T.block i, block_mem hi, _, id_block hi, T.carries code hi (hes i hi e he)⟩
  exact hpart (List.range T.count) fun i hi => List.mem_range.mp hi

/-- The symbols of a block that a pass over all blocks brings. -/
lemma survivingSymbols_pass (code : X.Systematic) {datagrams : List Bytes} {es : ℕ → List ℕ}
    (h : List.Forall₂ (IsSymbol code T.blockSet) datagrams
      (Collector.pass (Collector.schedule T.count T.name) (T.byName es))) (hi : i < T.count) :
    survivingSymbols X datagrams (T.name i) = (es i).toFinset := by
  ext e
  rw [mem_survivingSymbols h, Collector.mem_pass, byName_name hi, List.mem_toFinset]
  exact ⟨And.right, fun he => ⟨Collector.mem_schedule.mpr ⟨i, hi, rfl⟩, he⟩⟩

/-- The datagrams delivered in emitted order carry the symbols of one pass. -/
lemma isSymbol_emitted (code : X.Systematic) {encoder : MediaFecEncoder} {frame : MediaFrame}
    {encoded : EncodedMediaFrame} (hsent : T.IsSent code encoder frame encoded) (keep : ℕ → Bool) :
    List.Forall₂ (IsSymbol code T.blockSet)
      (deliver encoded.datagrams encoded.emittedDatagramIndices keep)
      (Collector.pass (Collector.schedule T.count T.name) (T.byName fun i =>
        T.kept keep i (List.range (T.emitted i)))) := by
  rw [hsent.deliver_emitted keep]
  exact isSymbol_pass code fun i _ e he => List.mem_range.mp (List.mem_of_mem_filter he)

/-- Symbols are done for a block when they are decodable. -/
lemma doneIn_name (code : X.Ideal) (hi : i < T.count) (s : Finset ℕ) :
    DoneIn code T.blockSet (T.name i) s
      ↔ code.Decodable (T.object i).length T.symbolSize s := by
  rw [← object_block hi, ← symbolSize_block hi, ← doneIn_iff (block_mem hi), id_block hi]
  rfl

/-- The blocks of a transmission, for a new decoder. -/
lemma newSchedule (code : X.Ideal) (hthreshold : code.Threshold) (T : Transmission) :
    Collector.NewSchedule (DoneIn code T.blockSet) (Collector.empty : Collector UInt32 ℕ) T.count
      T.name where
  inj a ha b hb h := id_injOn ha hb h
  empty a ha hdone := by
    have hcard := hthreshold _ _ _ ((doneIn_name code ha ∅).mp hdone)
    have hpos := (T.block a).sourceSymbols_pos
    rw [sourceSymbols_block ha] at hpos
    rw [Finset.card_empty] at hcard
    omega
  fresh a _ := ⟨rfl, Set.notMem_empty _⟩

end Transmission

/-! ## Two source symbols and a repair symbol -/

section Sample

/-- A data frame. -/
def sampleFrame (payload : Bytes) : MediaFrame := ⟨⟨1, 1, 0, none, 0, .data, ⟨0⟩⟩, payload⟩

lemma sampleFrame_encodable (payload : Bytes) :
    (sampleFrame payload).metadata.Encodable noDtsDeltaMs :=
  ⟨by change (0 : UInt16) ≤ 255; decide, by change (0 : UInt32) ≤ 65535; decide, rfl⟩

/-- It is cut into two bytes a block. -/
def sampleFragmentation (payload : Bytes) (hlen : payload.length ≤ 131070) : Fragmentation where
  frame := sampleFrame payload
  size := 2
  dtsDeltaMs := noDtsDeltaMs
  size_pos := by decide
  count_le := by
    have hle : payload.length ⌈/⌉ 2 ≤ 65535 := (ceilDiv_le_iff_le_mul (by decide)).mpr (by omega)
    exact Nat.max_le.mpr ⟨hle, by decide⟩
  length_le := Nat.le_trans hlen (by decide)
  encodable := sampleFrame_encodable payload

variable {payload : Bytes} {hlen : payload.length ≤ 131070}

variable (payload hlen) in
lemma symbolsFor_sample (i : ℕ) :
    symbolsFor ((sampleFragmentation payload hlen).object i).length 23 = 2 := by
  have hle : ((sampleFragmentation payload hlen).object i).length ≤ 46 :=
    (sampleFragmentation payload hlen).length_object_le i
  have hlen := (sampleFragmentation payload hlen).length_object i
  rw [symbolsFor, Nat.ceilDiv_eq_add_pred_div, show (23 : UInt16).toNat = 23 from rfl]
  omega

/-- Each block has two source symbols and a repair symbol. -/
def sampleTransmission (payload : Bytes) (hlen : payload.length ≤ 131070) : Transmission where
  toFragmentation := sampleFragmentation payload hlen
  baseId := 0
  baseSequence := 0
  symbolSize := 23
  repair := fun _ => 1
  one i hi := ⟨Fragmentation.object_ne_nil _ i, by decide, by rw [symbolsFor_sample]; decide⟩
  limit i hi := by rw [symbolsFor_sample]; decide

lemma emitted_sample (i : ℕ) : (sampleTransmission payload hlen).emitted i = 3 := by
  have hcount := symbolsFor_sample payload hlen i
  change symbolsFor ((sampleFragmentation payload hlen).object i).length 23 + 1 = 3
  rw [hcount]

/-- The repetition code recovers a block from its second source symbol and its repair symbol. -/
lemma decodable_sample {i : ℕ} {s : Finset ℕ} (hone : 1 ∈ s) (htwo : 2 ∈ s) :
    repetitionIdeal.Decodable ((sampleTransmission payload hlen).object i).length
      (sampleTransmission payload hlen).symbolSize s := by
  have hcount := symbolsFor_sample payload hlen i
  change ∀ r < symbolsFor ((sampleFragmentation payload hlen).object i).length 23,
    ∃ e ∈ s, e % symbolsFor ((sampleFragmentation payload hlen).object i).length 23 = r
  rw [hcount]
  intro r hr
  rcases (by omega : r = 0 ∨ r = 1) with rfl | rfl
  · exact ⟨2, htwo, rfl⟩
  · exact ⟨1, hone, rfl⟩

variable (payload hlen) in
lemma sample_accepts :
    ∃ encoded encoder' pool', (MediaFecEncoder.fixedFor (sampleTransmission payload hlen) 2
        1).encodeFrameWithOptionalPool repetition (sampleFrame payload) none
          = some (.ok encoded, encoder', pool') ∧
      (sampleTransmission payload hlen).IsSent repetitionIdeal.toSystematic
        (MediaFecEncoder.fixedFor (sampleTransmission payload hlen) 2 1) (sampleFrame payload)
        encoded :=
  MediaFecEncoder.fixedFor_accepts repetitionIdeal.toSystematic (sampleTransmission payload hlen)
    2 1 (by change MediaPriority.data ≠ .audio; decide) (by decide) (by change 0 < 23; decide) rfl rfl

end Sample

/-! ## Emitted order -/

section Recovery

variable {encoder encoder' : MediaFecEncoder} {frame : MediaFrame} {encoded : EncodedMediaFrame}
  {pool pool' : Option DatagramBufferPool}

/-- **Recovery in emitted order.**  No push fails.  If every block keeps a decodable set of
symbols, exactly one push returns a frame, and it is the frame that was sent; if some block keeps
fewer symbols than it has source symbols, no push returns a frame. -/
theorem encodeFrame_recovers_emitted (code : X.Ideal) (hthreshold : code.Threshold)
    (h : encoder.encodeFrameWithOptionalPool X frame pool
      = some (.ok encoded, encoder', pool')) (keep : ℕ → Bool) :
    let survivors := deliver encoded.datagrams encoded.emittedDatagramIndices keep
    let outs := runOutputs MediaFecDecoder.pushDatagram (MediaFecDecoder.new (X := X)) survivors
    (∀ out ∈ outs, ∃ result, out = .ok result) ∧
      ((∀ block ∈ encoded.blocks, code.Decodable block.payloadLen
          encoded.decision.config.symbolSize (survivingSymbols X survivors block.blockId)) →
        returnedFrames outs = [frame.decoded]) ∧
      ((∃ block ∈ encoded.blocks,
          (survivingSymbols X survivors block.blockId).card < block.sourceSymbols.toNat) →
        returnedFrames outs = []) := by
  obtain ⟨T, hsent⟩ := MediaFecEncoder.encodeFrameWithOptionalPool_sent code.toSystematic h
  intro survivors outs
  have hsymbols := T.isSymbol_emitted code.toSystematic hsent keep
  obtain ⟨hok, hall, hnone⟩ := T.returned_of_fired code hsymbols
  have hfired : ∀ i < T.count,
      T.name i ∈ Collector.fired (DoneIn code T.blockSet) DropsId Collector.empty
          (Collector.pass (Collector.schedule T.count T.name) (T.byName fun i =>
            T.kept keep i (List.range (T.emitted i))))
        ↔ code.Decodable (T.object i).length T.symbolSize
            (survivingSymbols X survivors (T.name i)) := by
    intro i hi
    rw [Collector.fired_source (regular_doneIn code T.blockSet) (T.newSchedule code hthreshold) hi,
      T.byName_name hi, T.doneIn_name code hi, T.survivingSymbols_pass _ hsymbols hi]
  rw [hsent.frame_eq] at hall
  refine ⟨hok, fun hdecodable => hall fun i hi => (hfired i hi).mpr ?_, ?_⟩
  · rw [← hsent.symbolSize_eq]
    exact hdecodable (T.encodedBlock i) (hsent.mem_blocks.mpr ⟨i, hi, rfl⟩)
  · rintro ⟨block, hblock, hfew⟩
    obtain ⟨i, hi, rfl⟩ := hsent.mem_blocks.mp hblock
    refine hnone fun hfires => ?_
    have hcard := hthreshold _ _ _ ((hfired i hi).mp (hfires i hi))
    rw [T.toNat_sourceSymbols hi] at hfew
    exact absurd hfew (Nat.not_lt.mpr hcard)

end Recovery

/-- Two blocks, the first of which loses its first datagram. -/
theorem encodeFrame_recovers_emitted_three :
    ∃ encoded encoder' pool',
      (MediaFecEncoder.fixedFor (sampleTransmission [1, 2, 3] (by decide)) 2
        1).encodeFrameWithOptionalPool repetition (sampleFrame [1, 2, 3]) none
          = some (.ok encoded, encoder', pool') ∧
      returnedFrames (runOutputs MediaFecDecoder.pushDatagram
        (MediaFecDecoder.new (X := repetition)) (deliver encoded.datagrams
          encoded.emittedDatagramIndices fun index => decide (index ≠ 0)))
        = [(sampleFrame [1, 2, 3]).decoded] := by
  obtain ⟨encoded, encoder', pool', haccepts, hsent⟩ :=
    sample_accepts [1, 2, 3] (by decide)
  refine ⟨encoded, encoder', pool', haccepts, ?_⟩
  refine (encodeFrame_recovers_emitted repetitionIdeal repetitionIdeal_threshold haccepts
    fun index => decide (index ≠ 0)).2.1 fun block hblock => ?_
  obtain ⟨i, hi, rfl⟩ := hsent.mem_blocks.mp hblock
  have hkept := Transmission.survivingSymbols_pass repetitionIdeal.toSystematic
    (Transmission.isSymbol_emitted repetitionIdeal.toSystematic hsent
      fun index => decide (index ≠ 0)) hi
  rw [hsent.symbolSize_eq]
  refine decodable_sample (hkept ▸ ?_) (hkept ▸ ?_) <;>
    simp [Transmission.kept, emitted_sample]

/-! ## Source-first order -/

/-- No source datagram of the block is dropped. -/
def EncodedMediaBlock.KeepsSources (block : EncodedMediaBlock) (keep : ℕ → Bool) : Prop :=
  ∀ index ∈ block.sourceDatagramIndices, keep index = true

/-- The symbols of the repair datagrams of a block that are not dropped. -/
def EncodedMediaFrame.repairSymbolsKept (X : Crates) (encoded : EncodedMediaFrame)
    (keep : ℕ → Bool) (block : EncodedMediaBlock) : Finset ℕ :=
  survivingSymbols X (deliver encoded.datagrams block.repairDatagramIndices keep) block.blockId

/-- The repair datagrams of a block that are not dropped recover it by themselves. -/
def EncodedMediaFrame.RepairsSuffice (code : X.Ideal) (encoded : EncodedMediaFrame)
    (keep : ℕ → Bool) (block : EncodedMediaBlock) : Prop :=
  code.Decodable block.payloadLen encoded.decision.config.symbolSize
    (encoded.repairSymbolsKept X keep block)

/-- **The condition of source-first recovery**, for the block in position `a`.  It keeps its
sources, its repairs suffice, or nothing makes the decoder forget the sources that it holds:
neither a later block that keeps its sources, nor an earlier block that completes in the repair
pass, because it lost a source datagram or because it was forgotten itself and its repairs
suffice. -/
def EncodedMediaFrame.SurvivesSourceFirst (code : X.Ideal) (encoded : EncodedMediaFrame)
    (keep : ℕ → Bool) (a : ℕ) (ha : a < encoded.blocks.length) : Prop :=
  encoded.blocks[a].KeepsSources keep ∨ encoded.RepairsSuffice code keep encoded.blocks[a] ∨
    (∀ b, ∀ hb : b < encoded.blocks.length, a < b → encoded.blocks[b].KeepsSources keep →
      Retained encoded.blocks[b].blockId encoded.blocks[a].blockId) ∧
    ∀ b, ∀ hb : b < a, (¬ encoded.blocks[b].KeepsSources keep ∨
      encoded.RepairsSuffice code keep encoded.blocks[b] ∧
        ∃ d, ∃ hd : d < encoded.blocks.length, b < d ∧ encoded.blocks[d].KeepsSources keep ∧
          ¬ Retained encoded.blocks[d].blockId encoded.blocks[b].blockId) →
      Retained encoded.blocks[b].blockId encoded.blocks[a].blockId

namespace Transmission

variable {T : Transmission} {code : X.Ideal} {keep : ℕ → Bool} {encoder : MediaFecEncoder}
  {frame : MediaFrame} {encoded : EncodedMediaFrame}

/-- The source symbols of a block that are left. -/
def keptSource (T : Transmission) (keep : ℕ → Bool) (i : ℕ) : List ℕ :=
  T.kept keep i (List.range (symbolsFor (T.object i).length T.symbolSize))

/-- The repair symbols of a block that are left. -/
def keptRepair (T : Transmission) (keep : ℕ → Bool) (i : ℕ) : List ℕ :=
  T.kept keep i (List.range' (symbolsFor (T.object i).length T.symbolSize) (T.repair i).toNat)

lemma keptSource_lt {i e : ℕ} (he : e ∈ T.keptSource keep i) : e < T.emitted i :=
  Nat.lt_of_lt_of_le (List.mem_range.mp (List.mem_of_mem_filter he)) (T.sourceSymbols_le_emitted i)

lemma keptRepair_lt {i e : ℕ} (he : e ∈ T.keptRepair keep i) : e < T.emitted i :=
  (List.mem_range'_1.mp (List.mem_of_mem_filter he)).2

/-- The source symbols that are left are decodable exactly when none is dropped. -/
lemma decodable_keptSource_iff (hthreshold : code.Threshold) {i : ℕ} (hi : i < T.count) :
    code.Decodable (T.object i).length T.symbolSize (T.keptSource keep i).toFinset
      ↔ (T.encodedBlock i).KeepsSources keep := by
  have hkeeps : (T.encodedBlock i).KeepsSources keep
      ↔ ∀ e < symbolsFor (T.object i).length T.symbolSize, keep (T.first i + e) = true := by
    rw [EncodedMediaBlock.KeepsSources, sourceDatagramIndices_eq hi]
    simp
  have hfilter : (T.keptSource keep i).toFinset
      = (Finset.range (symbolsFor (T.object i).length T.symbolSize)).filter
          fun e => keep (T.first i + e) = true := by
    ext e
    simp [keptSource, kept]
  rw [hkeeps, hfilter]
  constructor
  · intro hdec e he
    have hcard := hthreshold _ _ _ hdec
    have hall := Finset.eq_of_subset_of_card_le (Finset.filter_subset _ _)
      (by rw [Finset.card_range]; exact hcard)
    have hmem := Finset.mem_range.mpr he
    rw [← hall] at hmem
    exact (Finset.mem_filter.mp hmem).2
  · intro hall
    rw [Finset.filter_true_of_mem fun e he => hall e (Finset.mem_range.mp he)]
    exact code.decodable_source _ _

/-- The repair symbols of a block that are delivered. -/
lemma repairSymbolsKept_eq (hsent : T.IsSent code.toSystematic encoder frame encoded) {i : ℕ}
    (hi : i < T.count) :
    encoded.repairSymbolsKept X keep (T.encodedBlock i) = (T.keptRepair keep i).toFinset := by
  have hdatagrams : encoded.datagrams = T.datagrams code.toSystematic := hsent.datagrams_eq
  have hsymbols : List.Forall₂ (IsSymbol code.toSystematic T.blockSet)
      ((T.keptRepair keep i).map (T.datagram code.toSystematic i))
      ((T.keptRepair keep i).map fun e => (T.name i, e)) := by
    rw [List.forall₂_map_left_iff, List.forall₂_map_right_iff, List.forall₂_same]
    exact fun e he => ⟨T.block i, block_mem hi, _, id_block hi,
      T.carries code.toSystematic hi (keptRepair_lt he)⟩
  ext e
  rw [EncodedMediaFrame.repairSymbolsKept, repairDatagramIndices_eq hi, hdatagrams,
    deliver_block code.toSystematic hi fun e he => (List.mem_range'_1.mp he).2]
  refine (mem_survivingSymbols hsymbols).trans ?_
  rw [List.mem_map, List.mem_toFinset]
  exact ⟨fun ⟨e', he', heq⟩ => (Prod.mk.inj heq).2 ▸ he', fun he => ⟨e, he, rfl⟩⟩

/-- Dropping does not chain along a transmission: its ids wrap at most once. -/
lemma not_drops_twice {a b d : ℕ} (hab : a < b) (hbd : b < d) (hd : d < T.count)
    (h : DropsId (T.name a) (T.name b)) : ¬ DropsId (T.name b) (T.name d) := by
  have hcount := T.count_lt
  have hbase := T.baseId.toNat_lt
  have hname : ∀ i < T.count, (T.name i).toNat = (T.baseId.toNat + i) % 2 ^ 32 := by
    intro i hi
    rw [name, UInt32.toNat_add, UInt32.toNat_ofNat_of_lt' (by simp only [UInt32.size]; omega)]
  rw [DropsId, retained_iff, hname a (by omega), hname b (by omega)] at h
  rw [DropsId, retained_iff, hname b (by omega), hname d hd]
  omega

/-- Both passes of the source-first order. -/
lemma isSymbol_sourceFirst (hsent : T.IsSent code.toSystematic encoder frame encoded)
    (keep : ℕ → Bool) :
    List.Forall₂ (IsSymbol code.toSystematic T.blockSet)
      (deliver encoded.datagrams encoded.sourceFirstDatagramIndices keep)
      (Collector.pass (Collector.schedule T.count T.name) (T.byName (T.keptSource keep))
        ++ Collector.pass (Collector.schedule T.count T.name) (T.byName (T.keptRepair keep))) := by
  rw [hsent.deliver_sourceFirst keep]
  exact List.rel_append (isSymbol_pass code.toSystematic fun i _ e he => keptSource_lt he)
    (isSymbol_pass code.toSystematic fun i _ e he => keptRepair_lt he)

/-- The symbols of a block that both passes bring together. -/
lemma survivingSymbols_sourceFirst (hsent : T.IsSent code.toSystematic encoder frame encoded)
    {i : ℕ} (hi : i < T.count) :
    survivingSymbols X (deliver encoded.datagrams encoded.sourceFirstDatagramIndices keep)
        (T.name i)
      = (T.keptSource keep i).toFinset ∪ (T.keptRepair keep i).toFinset := by
  have hmem : T.name i ∈ Collector.schedule T.count T.name :=
    Collector.mem_schedule.mpr ⟨i, hi, rfl⟩
  ext e
  rw [mem_survivingSymbols (isSymbol_sourceFirst hsent keep), List.mem_append, Collector.mem_pass,
    Collector.mem_pass, byName_name hi, byName_name hi, Finset.mem_union, List.mem_toFinset,
    List.mem_toFinset]
  exact or_congr (and_iff_right hmem) (and_iff_right hmem)

/-- Each block keeps a decodable set of symbols. -/
lemma decodable_sourceFirst_iff (hsent : T.IsSent code.toSystematic encoder frame encoded) :
    (∀ block ∈ encoded.blocks, code.Decodable block.payloadLen encoded.decision.config.symbolSize
      (survivingSymbols X (deliver encoded.datagrams encoded.sourceFirstDatagramIndices keep)
        block.blockId))
      ↔ ∀ i < T.count, code.Decodable (T.object i).length T.symbolSize
          ((T.keptSource keep i).toFinset ∪ (T.keptRepair keep i).toFinset) := by
  rw [hsent.blocks_eq, List.forall_mem_map]
  simp only [List.mem_range, hsent.symbolSize_eq]
  refine forall₂_congr fun i hi => ?_
  rw [← survivingSymbols_sourceFirst hsent hi]
  rfl

/-- The condition of the two passes, read off the encoded frame. -/
lemma recovers_iff (hthreshold : code.Threshold)
    (hsent : T.IsSent code.toSystematic encoder frame encoded) {a : ℕ}
    (ha : a < encoded.blocks.length) :
    Collector.Recovers (DoneIn code T.blockSet) DropsId T.count T.name
        (T.byName (T.keptSource keep)) (T.byName (T.keptRepair keep)) a
      ↔ encoded.SurvivesSourceFirst code keep a ha := by
  have hlen : encoded.blocks.length = T.count := by
    rw [hsent.blocks_eq, List.length_map, List.length_range]
  have hget : ∀ i (hi : i < encoded.blocks.length), encoded.blocks[i] = T.encodedBlock i := by
    intro i hi
    simp [hsent.blocks_eq]
  have hsource : ∀ i (hi : i < encoded.blocks.length),
      DoneIn code T.blockSet (T.name i) (T.byName (T.keptSource keep) (T.name i)).toFinset
        ↔ encoded.blocks[i].KeepsSources keep := by
    intro i hi
    rw [hget i hi, byName_name (hlen ▸ hi), doneIn_name code (hlen ▸ hi),
      decodable_keptSource_iff hthreshold (hlen ▸ hi)]
  have hrepair : ∀ i (hi : i < encoded.blocks.length),
      DoneIn code T.blockSet (T.name i) (T.byName (T.keptRepair keep) (T.name i)).toFinset
        ↔ encoded.RepairsSuffice code keep encoded.blocks[i] := by
    intro i hi
    rw [hget i hi, byName_name (hlen ▸ hi), doneIn_name code (hlen ▸ hi),
      EncodedMediaFrame.RepairsSuffice, repairSymbolsKept_eq hsent (hlen ▸ hi),
      hsent.symbolSize_eq]
    rfl
  have hdrops : ∀ i j (hi : i < encoded.blocks.length) (hj : j < encoded.blocks.length),
      DropsId (T.name i) (T.name j)
        ↔ ¬ Retained encoded.blocks[i].blockId encoded.blocks[j].blockId := by
    intro i j hi hj
    rw [hget i hi, hget j hj]
    rfl
  refine or_congr (hsource a ha) (or_congr (hrepair a ha) (and_congr ⟨?_, ?_⟩ ⟨?_, ?_⟩))
  · intro h b hb hab hkeeps
    by_contra hnot
    exact h b hab (hlen ▸ hb) ((hsource b hb).mpr hkeeps) ((hdrops b a hb ha).mpr hnot)
  · intro h b hab hbn hdone hdrop
    have hb : b < encoded.blocks.length := hlen ▸ hbn
    exact (hdrops b a hb ha).mp hdrop (h b hb hab ((hsource b hb).mp hdone))
  · intro h b hba hearlier
    have hb : b < encoded.blocks.length := Nat.lt_trans hba ha
    by_contra hnot
    refine h b hba ?_ ((hdrops b a hb ha).mpr hnot)
    rcases hearlier with hlost | ⟨hsuffice, d, hd, hbd, hkeeps, hforgets⟩
    · exact Or.inl fun hdone => hlost ((hsource b hb).mp hdone)
    · exact Or.inr ⟨(hrepair b hb).mpr hsuffice, d, hbd, hlen ▸ hd, (hsource d hd).mpr hkeeps,
        (hdrops d b hd hb).mpr hforgets⟩
  · intro h b hba hearlier hdrop
    have hb : b < encoded.blocks.length := Nat.lt_trans hba ha
    refine (hdrops b a hb ha).mp hdrop (h b hba ?_)
    rcases hearlier with hlost | ⟨hsuffice, d, hbd, hdn, hdone, hforgets⟩
    · exact Or.inl fun hkeeps => hlost ((hsource b hb).mpr hkeeps)
    · have hd : d < encoded.blocks.length := hlen ▸ hdn
      exact Or.inr ⟨(hrepair b hb).mp hsuffice, d, hd, hbd, (hsource d hd).mp hdone,
        (hdrops d b hd hb).mp hforgets⟩

/-- When both passes together bring a decodable set of symbols of each block, the frame is
returned exactly when every block recovers. -/
theorem returned_sourceFirst_iff (hthreshold : code.Threshold)
    (hsent : T.IsSent code.toSystematic encoder frame encoded)
    (hdecodable : ∀ i < T.count, code.Decodable (T.object i).length T.symbolSize
      ((T.keptSource keep i).toFinset ∪ (T.keptRepair keep i).toFinset)) :
    returnedFrames (runOutputs MediaFecDecoder.pushDatagram (MediaFecDecoder.new (X := X))
        (deliver encoded.datagrams encoded.sourceFirstDatagramIndices keep)) = [frame.decoded]
      ↔ ∀ a < T.count, Collector.Recovers (DoneIn code T.blockSet) DropsId T.count T.name
          (T.byName (T.keptSource keep)) (T.byName (T.keptRepair keep)) a := by
  have hpasses := Collector.two_passes_iff (T.byName (T.keptSource keep))
    (T.byName (T.keptRepair keep)) (regular_doneIn code T.blockSet) (T.newSchedule code hthreshold)
    (fun a ha => by
      rw [byName_name ha, byName_name ha, doneIn_name code ha]
      exact hdecodable a ha)
    (fun a b d hab hbd hd h => not_drops_twice hab hbd hd h)
  obtain ⟨-, hall, hnone⟩ := T.returned_of_fired code (isSymbol_sourceFirst hsent keep)
  rw [hsent.frame_eq] at hall
  rw [← hpasses]
  constructor
  · intro hreturned
    by_contra hnot
    rw [hnone hnot] at hreturned
    cases hreturned
  · exact hall

end Transmission

section SourceFirst

variable {encoder encoder' : MediaFecEncoder} {frame : MediaFrame} {encoded : EncodedMediaFrame}
  {pool pool' : Option DatagramBufferPool}

/-- **Recovery in source-first order.**  When each block keeps a decodable set of symbols, exactly
one push returns a frame, the one that was sent, if and only if every block survives the
order. -/
theorem encodeFrame_recovers_sourceFirst_iff (code : X.Ideal) (hthreshold : code.Threshold)
    (h : encoder.encodeFrameWithOptionalPool X frame pool
      = some (.ok encoded, encoder', pool')) (keep : ℕ → Bool)
    (hdecodable : ∀ block ∈ encoded.blocks, code.Decodable block.payloadLen
      encoded.decision.config.symbolSize (survivingSymbols X
        (deliver encoded.datagrams encoded.sourceFirstDatagramIndices keep) block.blockId)) :
    returnedFrames (runOutputs MediaFecDecoder.pushDatagram (MediaFecDecoder.new (X := X))
        (deliver encoded.datagrams encoded.sourceFirstDatagramIndices keep)) = [frame.decoded]
      ↔ ∀ a, ∀ ha : a < encoded.blocks.length, encoded.SurvivesSourceFirst code keep a ha := by
  obtain ⟨T, hsent⟩ := MediaFecEncoder.encodeFrameWithOptionalPool_sent code.toSystematic h
  have hlen : encoded.blocks.length = T.count := by
    rw [hsent.blocks_eq, List.length_map, List.length_range]
  rw [Transmission.returned_sourceFirst_iff hthreshold hsent
    ((Transmission.decodable_sourceFirst_iff hsent).mp hdecodable)]
  constructor
  · intro hrec a ha
    exact (Transmission.recovers_iff hthreshold hsent ha).mp (hrec a (hlen ▸ ha))
  · intro hsurvive a ha
    have ha' : a < encoded.blocks.length := hlen ▸ ha
    exact (Transmission.recovers_iff hthreshold hsent ha').mpr (hsurvive a ha')

end SourceFirst

/-- Without its first source datagram, the first block still gets a decodable set. -/
lemma decodable_kept_sample {payload : Bytes} {hlen : payload.length ≤ 131070} (i : ℕ) :
    repetitionIdeal.Decodable ((sampleTransmission payload hlen).object i).length
      (sampleTransmission payload hlen).symbolSize
      (((sampleTransmission payload hlen).keptSource (fun index => decide (index ≠ 0)) i).toFinset
        ∪ ((sampleTransmission payload hlen).keptRepair
          (fun index => decide (index ≠ 0)) i).toFinset) := by
  have hcount := symbolsFor_sample payload hlen i
  have hsource : 1 ∈ (sampleTransmission payload hlen).keptSource
      (fun index => decide (index ≠ 0)) i := by
    refine List.mem_filter.mpr ⟨List.mem_range.mpr (Nat.lt_of_lt_of_eq Nat.one_lt_two hcount.symm),
      decide_eq_true (Nat.succ_ne_zero _)⟩
  have hrepair : 2 ∈ (sampleTransmission payload hlen).keptRepair
      (fun index => decide (index ≠ 0)) i := by
    refine List.mem_filter.mpr ⟨List.mem_range'_1.mpr ⟨Nat.le_of_eq hcount, ?_⟩,
      decide_eq_true (Nat.succ_ne_zero _)⟩
    exact Nat.lt_of_lt_of_eq (by decide : 2 < 3) (congrArg (· + 1) hcount.symm)
  exact decodable_sample (Finset.mem_union_left _ (List.mem_toFinset.mpr hsource))
    (Finset.mem_union_right _ (List.mem_toFinset.mpr hrepair))

/-- Two blocks, the first of which loses its first datagram. -/
theorem encodeFrame_recovers_sourceFirst_iff_two :
    ∃ encoded encoder' pool',
      (MediaFecEncoder.fixedFor (sampleTransmission [1, 2, 3] (by decide)) 2
        1).encodeFrameWithOptionalPool repetition (sampleFrame [1, 2, 3]) none
          = some (.ok encoded, encoder', pool') ∧
      (returnedFrames (runOutputs MediaFecDecoder.pushDatagram
          (MediaFecDecoder.new (X := repetition)) (deliver encoded.datagrams
            encoded.sourceFirstDatagramIndices fun index => decide (index ≠ 0)))
          = [(sampleFrame [1, 2, 3]).decoded]
        ↔ ∀ a, ∀ ha : a < encoded.blocks.length,
          encoded.SurvivesSourceFirst repetitionIdeal (fun index => decide (index ≠ 0)) a ha) := by
  obtain ⟨encoded, encoder', pool', haccepts, hsent⟩ :=
    sample_accepts [1, 2, 3] (by decide)
  exact ⟨encoded, encoder', pool', haccepts,
    encodeFrame_recovers_sourceFirst_iff repetitionIdeal repetitionIdeal_threshold haccepts _
      ((Transmission.decodable_sourceFirst_iff hsent).mpr fun i _ => decodable_kept_sample i)⟩

/-- **A long frame is lost.**  Of a frame of 66 blocks the first source datagram is dropped.  The
last block completes in the source pass and prunes the first one, whose repair symbol then comes
too late. -/
theorem sourceFirst_prunes_first_block :
    ¬ ∀ (X : Crates) (code : X.Ideal), code.Threshold →
      ∀ (encoder encoder' : MediaFecEncoder) (frame : MediaFrame) (encoded : EncodedMediaFrame)
        (pool pool' : Option DatagramBufferPool),
      encoder.encodeFrameWithOptionalPool X frame pool = some (.ok encoded, encoder', pool') →
      ∀ keep : ℕ → Bool,
      (∀ block ∈ encoded.blocks, code.Decodable block.payloadLen
        encoded.decision.config.symbolSize (survivingSymbols X
          (deliver encoded.datagrams encoded.sourceFirstDatagramIndices keep) block.blockId)) →
      returnedFrames (runOutputs MediaFecDecoder.pushDatagram (MediaFecDecoder.new (X := X))
        (deliver encoded.datagrams encoded.sourceFirstDatagramIndices keep)) = [frame.decoded] := by
  intro hall
  have hlen : (List.replicate 131 (7 : UInt8)).length ≤ 131070 := by
    rw [List.length_replicate]
    decide
  set T := sampleTransmission (List.replicate 131 7) hlen with hT
  set keep : ℕ → Bool := fun index => decide (index ≠ 0) with hkeep
  have hcount : T.count = 66 := by
    have hpayload : T.frame.payload.length = 131 := List.length_replicate
    change max (T.frame.payload.length ⌈/⌉ 2) 1 = 66
    rw [hpayload]
    rfl
  have hfirst : 0 < T.count := by rw [hcount]; decide
  have hlast : 65 < T.count := by rw [hcount]; decide
  obtain ⟨encoded, encoder', pool', haccepts, hsent⟩ :=
    sample_accepts (List.replicate 131 7) hlen
  have hdecodable : ∀ i < T.count, repetitionIdeal.Decodable (T.object i).length T.symbolSize
      ((T.keptSource keep i).toFinset ∪ (T.keptRepair keep i).toFinset) :=
    fun i _ => decodable_kept_sample i
  have hreturned := hall repetition repetitionIdeal repetitionIdeal_threshold _ _ _ _ _ _ haccepts
    keep ((Transmission.decodable_sourceFirst_iff hsent).mpr hdecodable)
  have hrecovers := (Transmission.returned_sourceFirst_iff repetitionIdeal_threshold hsent
    hdecodable).mp hreturned 0 hfirst
  have hsource : ∀ i < T.count, DoneIn repetitionIdeal T.blockSet (T.name i)
      (T.byName (T.keptSource keep) (T.name i)).toFinset
      ↔ (T.encodedBlock i).KeepsSources keep := by
    intro i hi
    rw [T.byName_name hi, T.doneIn_name repetitionIdeal hi,
      Transmission.decodable_keptSource_iff repetitionIdeal_threshold hi]
  have hindices : ∀ i < T.count, (T.encodedBlock i).sourceDatagramIndices
      = (List.range 2).map (T.first i + ·) := by
    intro i hi
    rw [Transmission.sourceDatagramIndices_eq hi]
    exact congrArg (fun n => (List.range n).map (T.first i + ·))
      (symbolsFor_sample _ hlen i)
  rcases hrecovers with hfull | halone | ⟨hlater, -⟩
  · -- its first source datagram is dropped
    have hkept := (hsource 0 hfirst).mp hfull 0
      (by rw [hindices 0 hfirst]; exact List.mem_map.mpr ⟨0, by simp, rfl⟩)
    exact absurd hkept (by decide)
  · -- its repair symbol repeats one source symbol
    rw [T.byName_name hfirst, T.doneIn_name repetitionIdeal hfirst] at halone
    have hcount := symbolsFor_sample _ hlen 0
    obtain ⟨e, he, hodd⟩ := halone 1 (Nat.lt_of_lt_of_eq Nat.one_lt_two hcount.symm)
    have hrange := List.mem_of_mem_filter (List.mem_toFinset.mp he)
    have hbounds : 2 ≤ e ∧ e < 2 + 1 := by
      have hmem := List.mem_range'_1.mp hrange
      rw [show symbolsFor (T.object 0).length T.symbolSize = 2 from hcount] at hmem
      exact hmem
    rw [show symbolsFor (T.object 0).length T.symbolSize = 2 from hcount] at hodd
    omega
  · -- the last block completes before its repair symbol arrives
    refine hlater 65 (by decide) hlast ((hsource 65 hlast).mpr fun index hindex => ?_) ?_
    · rw [hindices 65 hlast, T.first_succ 64] at hindex
      obtain ⟨e, -, rfl⟩ := List.mem_map.mp hindex
      have hemitted : T.emitted 64 = 3 := emitted_sample 64
      exact decide_eq_true (by omega)
    · rw [DropsId, retained_iff]
      exact (by decide : ¬ (65 : ℕ) ≤ 0 + 64)

end RaptorFec
