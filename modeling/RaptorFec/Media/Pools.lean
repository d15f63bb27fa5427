import RaptorFec.Datagram.Pools
import RaptorFec.Media.Atomic

/-!
# The reusing encoders against the plain ones

`encode_frame_reusing` hands its pool on to one block after the other.  As for a single block, the
pool decides nothing but which memory the datagrams have.

**Same results.**  `sameCall_encodeFrameWithOptionalPool`: the loop over the fragments does not look
at the pool.

**Same buffers.**  `encodeFrameWithOptionalPool_storeAll`: the buffers that are taken over all blocks
are those that `storeAll` takes for the datagrams of the frame.

`Reuses` is what both say of a call, and `reusing_reuses` that it holds of every reusing encoder.
-/

namespace RaptorFec

namespace MediaFecEncoder

section Same

variable (X : Crates) (encoder : MediaFecEncoder) (frame : MediaFrame) (decision : FecDecision)
  (size count : ℕ) (pool pool' : Option DatagramBufferPool)

/-- A pass of the loop sends its block with the same result. -/
lemma sameCall_encodeFragment (i first : ℕ) :
    SameCall (encoder.encodeFragment X frame decision size count i first pool)
      (encoder.encodeFragment X frame decision size count i first pool') := by
  rw [encodeFragment, encodeFragment]
  simp only
  split
  · rfl
  · generalize hcall : DatagramFecEncoder.encodeBlockWithRepairSymbols X _ _ _ pool = call
    generalize hcall' : DatagramFecEncoder.encodeBlockWithRepairSymbols X _ _ _ pool' = call'
    have hsame : SameCall call call' := by
      rw [← hcall, ← hcall']
      exact DatagramFecEncoder.sameCall_encodeBlockWithRepairSymbols X _ _ _ pool pool'
    rcases hsame.cases with ⟨rfl, rfl⟩ | ⟨result, fec, left, left', rfl, rfl⟩
    · rfl
    · cases result <;> rfl

lemma sameCall_encodeFragments (indices : List ℕ) (first : ℕ) :
    SameCall (encodeFragments X frame decision size count encoder indices first pool)
      (encodeFragments X frame decision size count encoder indices first pool') := by
  induction indices generalizing encoder first pool pool' with
  | nil => rfl
  | cons i indices ih =>
      rw [encodeFragments, encodeFragments]
      rcases (encoder.sameCall_encodeFragment X frame decision size count pool pool' i first).cases
        with ⟨hstep, hstep'⟩ | ⟨result, next, left, left', hstep, hstep'⟩
      · rw [hstep, hstep']
        rfl
      · rw [hstep, hstep']
        cases result with
        | error error => rfl
        | ok parts => exact (ih next left left' _).map_fst _

lemma sameCall_encodeFrameWithOptionalPool :
    SameCall (encoder.encodeFrameWithOptionalPool X frame pool)
      (encoder.encodeFrameWithOptionalPool X frame pool') := by
  rw [encodeFrameWithOptionalPool, encodeFrameWithOptionalPool]
  simp only
  split_ifs
  · rfl
  · rfl
  · rfl
  · exact (encoder.sameCall_encodeFragments X frame _ _ _ pool pool' _ 0).map_fst _

end Same

section Stored

variable {X : Crates} {encoder encoder' : MediaFecEncoder} {frame : MediaFrame}
  {decision : FecDecision} {size count first : ℕ} {pool pool' : Option DatagramBufferPool}

lemma encodeFragment_storeAll {i : ℕ} {parts : EncodedMediaBlock × List Bytes}
    (h : encoder.encodeFragment X frame decision size count i first pool
      = some (.ok parts, encoder', pool')) : pool' = (storeAll parts.2 pool).2 := by
  rw [encodeFragment] at h
  simp only at h
  split at h
  · cases h
  · generalize hcall : DatagramFecEncoder.encodeBlockWithRepairSymbols X _ _ _ pool = call at h
    rcases call with - | ⟨error | datagrams, fec, left⟩
    · cases h
    · cases h
    · cases h
      exact DatagramFecEncoder.encodeBlockWithRepairSymbols_storeAll hcall

lemma encodeFragments_storeAll {indices : List ℕ} {parts : List EncodedMediaBlock × List Bytes}
    (h : encodeFragments X frame decision size count encoder indices first pool
      = some (.ok parts, encoder', pool')) : pool' = (storeAll parts.2 pool).2 := by
  induction indices generalizing encoder first pool parts with
  | nil =>
      cases h
      rfl
  | cons i indices ih =>
      rcases encodeFragments_cons h with ⟨error, herror, -⟩ |
        ⟨block, datagrams, next, pool₁, rest, hstep, hloop, hresult⟩
      · cases herror
      · obtain ⟨tail, rfl, rfl⟩ := map_eq_ok_iff.mp hresult.symm
        have hfront : pool₁ = (storeAll datagrams pool).2 := encodeFragment_storeAll hstep
        rw [storeAll_append_snd, ← hfront]
        exact ih hloop

lemma encodeFrameWithOptionalPool_storeAll {encoded : EncodedMediaFrame}
    (h : encoder.encodeFrameWithOptionalPool X frame pool = some (.ok encoded, encoder', pool')) :
    pool' = (storeAll encoded.datagrams pool).2 := by
  rcases encodeFrameWithOptionalPool_eq_some h with ⟨error, herror, -⟩ |
    ⟨decision, size, count, loop, -, -, -, hloop, hresult⟩
  · cases herror
  · obtain ⟨parts, rfl, rfl⟩ := map_eq_ok_iff.mp hresult.symm
    exact encodeFragments_storeAll hloop

end Stored

end MediaFecEncoder

/-! ## What a reusing call does -/

/-- A call with a pool against the plain call. -/
structure Reuses {ε α σ : Type} (datagrams : α → List Bytes) (pool : DatagramBufferPool)
    (plain : Option (Except ε α × σ))
    (reusing : Option (Except ε α × σ × Option DatagramBufferPool)) : Prop where
  /-- The result and the encoder are those of the plain call. -/
  same : reusing.map withoutPool = plain
  /-- The buffers that were taken hold the datagrams that are returned, one each. -/
  held : ∀ output encoder left, reusing = some (.ok output, encoder, left) →
    ∃ vecs rest, storeAll (datagrams output) (some pool) = (vecs, left) ∧ left = some rest ∧
      HeldBy pool (datagrams output) vecs rest
  /-- A call that fails has taken none. -/
  kept : ∀ error encoder left, reusing = some (.error error, encoder, left) → left = some pool

/-- What the lemmas about the calls of an encoder come to. -/
lemma Reuses.of_call {ε α σ : Type} {datagrams : α → List Bytes} {pool : DatagramBufferPool}
    {call : Option DatagramBufferPool → Option (Except ε α × σ × Option DatagramBufferPool)}
    (hsame : SameCall (call (some pool)) (call none))
    (hstored : ∀ output encoder left, call (some pool) = some (.ok output, encoder, left) →
      left = (storeAll (datagrams output) (some pool)).2)
    (hkept : ∀ error encoder left, call (some pool) = some (.error error, encoder, left) →
      left = some pool) :
    Reuses datagrams pool ((call none).map withoutPool) (call (some pool)) where
  same := hsame
  held := by
    intro output encoder left h
    have hleft := hstored output encoder left h
    obtain ⟨rest, hrest, hheld⟩ := heldBy_storeAll (datagrams output) pool
    exact ⟨_, rest, Prod.ext rfl hleft.symm, hleft.trans hrest, hheld⟩
  kept := hkept

/-- Every reusing encoder reuses the buffers of the pool, and `take` is a best fit. -/
structure ReusesBuffers (X : Crates) (pool : DatagramBufferPool) : Prop where
  encodeBlock : ∀ (encoder : DatagramFecEncoder) (data : Bytes),
    Reuses id pool ((encoder.encodeBlock X data none).map withoutPool)
      (encoder.encodeBlock X data (some pool))
  encodeBlockWithRepairSymbols : ∀ (encoder : DatagramFecEncoder) (data : Bytes)
    (repairSymbols : UInt32),
    Reuses id pool
      ((encoder.encodeBlockWithRepairSymbols X data repairSymbols none).map withoutPool)
      (encoder.encodeBlockWithRepairSymbols X data repairSymbols (some pool))
  encodePayload : ∀ (encoder : DatagramFecEncoder) (data : Bytes),
    Reuses id pool ((encoder.encodePayload X data none).map withoutPool)
      (encoder.encodePayload X data (some pool))
  encodeFrame : ∀ (encoder : MediaFecEncoder) (frame : MediaFrame),
    Reuses EncodedMediaFrame.datagrams pool (encoder.encodeFrame X frame)
      ((encoder.encodeFrameReusing X frame pool).map fun result =>
        (result.1, result.2.1, some result.2.2))
  /-- The loop over the packets of a block writes each datagram into the buffer taken for it. -/
  written : ∀ (blockId transferLength : UInt32) (sourceSymbols symbolSize : UInt16)
    (packets : List EncodingPacket) (sequence : UInt32),
    DatagramFecEncoder.encodePacketsInto X blockId transferLength sourceSymbols symbolSize packets
        sequence (some pool)
      = ((DatagramFecEncoder.encodePackets X blockId transferLength sourceSymbols symbolSize packets
            sequence (some pool)).1.map fun datagrams => (storeAll datagrams (some pool)).1,
          (DatagramFecEncoder.encodePackets X blockId transferLength sourceSymbols symbolSize packets
            sequence (some pool)).2)
  take : ∀ minCapacity : ℕ,
    pool.take minCapacity
        = ((pool.takeVec minCapacity).1.bytes, (pool.takeVec minCapacity).2) ∧
      pool.BestFit minCapacity (pool.takeVec minCapacity)

section Encoders

variable {X : Crates} {code : X.Systematic} {encodedPackets : Bytes →
  ObjectTransmissionInformation → UInt32 → Option (List EncodingPacket)}
  {pool : DatagramBufferPool}

lemma reuses_encodeBlockWithRepairSymbols (hencodes : code.Encodes encodedPackets)
    (encoder : DatagramFecEncoder) (data : Bytes) (repairSymbols : UInt32) :
    Reuses id pool
      ((encoder.encodeBlockWithRepairSymbols (X.withEncodedPackets encodedPackets) data
        repairSymbols none).map withoutPool)
      (encoder.encodeBlockWithRepairSymbols (X.withEncodedPackets encodedPackets) data
        repairSymbols (some pool)) :=
  Reuses.of_call (encoder.sameCall_encodeBlockWithRepairSymbols _ data repairSymbols _ _)
    (fun _ _ _ h => DatagramFecEncoder.encodeBlockWithRepairSymbols_storeAll h)
    fun _ _ _ h => encodeBlockWithRepairSymbols_kept hencodes h

lemma reuses_encodePayload (hencodes : code.Encodes encodedPackets)
    (encoder : DatagramFecEncoder) (data : Bytes) :
    Reuses id pool
      ((encoder.encodePayload (X.withEncodedPackets encodedPackets) data none).map withoutPool)
      (encoder.encodePayload (X.withEncodedPackets encodedPackets) data (some pool)) :=
  Reuses.of_call (encoder.sameCall_encodePayload _ data _ _)
    (fun _ _ _ h => DatagramFecEncoder.encodePayload_storeAll h)
    fun _ _ _ h => encodePayload_kept hencodes h

/-- With a pool, a call leaves a pool. -/
lemma MediaFecEncoder.encodeFrameReusing_eq (hencodes : code.Encodes encodedPackets)
    (encoder : MediaFecEncoder) (frame : MediaFrame) :
    ((encoder.encodeFrameReusing (X.withEncodedPackets encodedPackets) frame pool).map
        fun result => (result.1, result.2.1, some result.2.2))
      = encoder.encodeFrameWithOptionalPool (X.withEncodedPackets encodedPackets) frame
        (some pool) := by
  rw [encodeFrameReusing, Option.map_map]
  cases hcall : encoder.encodeFrameWithOptionalPool (X.withEncodedPackets encodedPackets) frame
      (some pool) with
  | none => rfl
  | some first =>
      obtain ⟨result, next, left⟩ := first
      have hleft : ∃ rest, left = some rest := by
        cases result with
        | error error =>
            obtain ⟨-, -, hpool⟩ := encodeFrameWithOptionalPool_unchanged hencodes hcall
            exact ⟨pool, hpool⟩
        | ok encoded =>
            obtain ⟨rest, hrest, -⟩ := heldBy_storeAll encoded.datagrams pool
            exact ⟨rest, (encodeFrameWithOptionalPool_storeAll hcall).trans hrest⟩
      obtain ⟨rest, rfl⟩ := hleft
      rfl

lemma reuses_encodeFrame (hencodes : code.Encodes encodedPackets) (encoder : MediaFecEncoder)
    (frame : MediaFrame) :
    Reuses EncodedMediaFrame.datagrams pool
      (encoder.encodeFrame (X.withEncodedPackets encodedPackets) frame)
      ((encoder.encodeFrameReusing (X.withEncodedPackets encodedPackets) frame pool).map
        fun result => (result.1, result.2.1, some result.2.2)) := by
  have hplain : encoder.encodeFrame (X.withEncodedPackets encodedPackets) frame
      = (encoder.encodeFrameWithOptionalPool (X.withEncodedPackets encodedPackets) frame
          none).map withoutPool := rfl
  rw [MediaFecEncoder.encodeFrameReusing_eq hencodes, hplain]
  refine Reuses.of_call (encoder.sameCall_encodeFrameWithOptionalPool _ frame _ _) ?_ ?_
  · intro output next left h
    exact MediaFecEncoder.encodeFrameWithOptionalPool_storeAll h
  · intro error next left h
    exact (MediaFecEncoder.encodeFrameWithOptionalPool_unchanged hencodes h).2.2

/-- **The reusing encoders** return what the plain ones return and leave the encoder as they do,
whatever the pool holds; the buffers they take hold the datagrams they return. -/
theorem reusing_reuses (hencodes : code.Encodes encodedPackets) (hpool : pool.Allocated) :
    ReusesBuffers (X.withEncodedPackets encodedPackets) pool where
  encodeBlock encoder data :=
    reuses_encodeBlockWithRepairSymbols hencodes encoder data encoder.config.repairSymbols
  encodeBlockWithRepairSymbols := reuses_encodeBlockWithRepairSymbols hencodes
  encodePayload := reuses_encodePayload hencodes
  encodeFrame := reuses_encodeFrame hencodes
  written blockId transferLength sourceSymbols symbolSize packets sequence :=
    encodePacketsInto_eq _ blockId transferLength sourceSymbols symbolSize packets sequence
      (some pool)
  take minCapacity := ⟨pool.take_eq minCapacity, pool.takeVec_bestFit minCapacity hpool⟩

/-- A pool of two buffers with old contents. -/
theorem reusing_reuses_two :
    ReusesBuffers (repetition.withEncodedPackets Repetition.unboundedPackets)
        ⟨[⟨[9, 9], 64⟩, ⟨[8], 40⟩]⟩ ∧
      (⟨[⟨[9, 9], 64⟩, ⟨[8], 40⟩]⟩ : DatagramBufferPool).takeVec 38
        = (⟨[], 40, some ⟨[8], 40⟩⟩, ⟨[⟨[9, 9], 64⟩]⟩) := by
  constructor
  · refine reusing_reuses Repetition.encodes_unboundedPackets ?_
    intro buffer hbuffer
    simp only [List.mem_cons, List.not_mem_nil, or_false] at hbuffer
    rcases hbuffer with rfl | rfl <;> decide
  · decide

end Encoders

end RaptorFec
