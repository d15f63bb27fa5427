import RaptorFec.Datagram.Payload
import RaptorFec.Media.Encoder

/-!
# A frame that is refused costs nothing

The loop over the fragments of a frame changes the encoder in every pass, and every pass may fail.

**One fragment.**  `FragmentFits` are the fragments that can be sent.  `encodeFragment_cases` says
that a pass fails exactly on the others, and then leaves the counters and the pool alone.

**All fragments.**  No fragment is longer than the first one (`FragmentFits.of_first`), so the loop
fails in its first pass or not at all: `encodeFrame_atomic`.
-/

namespace RaptorFec

/-- The fragment can be sent: the metadata fit the header, and the object fits one block. -/
structure FragmentFits (frame : MediaFrame) (config : DatagramFecConfig) (size i : ℕ) : Prop where
  encodable : ∃ dtsDeltaMs, frame.metadata.Encodable dtsDeltaMs
  symbols_le : symbolsFor (mediaFrameHeaderLen + (piece frame.payload size i).length)
    (max config.symbolSize 1) ≤ maxBlockSymbols

variable {frame : MediaFrame} {config : DatagramFecConfig} {size i : ℕ}

/-- No fragment is longer than the first one. -/
lemma FragmentFits.of_first (h : FragmentFits frame config size 0) (i : ℕ) :
    FragmentFits frame config size i where
  encodable := h.encodable
  symbols_le := by
    refine Nat.le_trans (symbolsFor_mono (max_one_pos _) ?_) h.symbols_le
    rw [length_piece, length_piece]
    omega

/-! ## One block -/

section Block

variable {X : Crates} {code : X.Systematic} {encodedPackets : Bytes →
  ObjectTransmissionInformation → UInt32 → Option (List EncodingPacket)}
  {fec fec' : DatagramFecEncoder} {object : Bytes} {repairSymbols : UInt32}
  {pool pool' : Option DatagramBufferPool} {result : Except DatagramFecError (List Bytes)}

/-- An object that is short enough for the configuration is sent when it fits one block, and is
refused without a change when it does not. -/
lemma encodeBlock_cases (hencodes : code.Encodes encodedPackets) (hobject : object ≠ [])
    (hlength : object.length ≤ fec.config.maxPayloadLen)
    (h : fec.encodeBlockWithRepairSymbols (X.withEncodedPackets encodedPackets) object repairSymbols
      pool = some (result, fec', pool')) :
    (OneBlock object (max fec.config.symbolSize 1) ∧ ∃ datagrams, result = .ok datagrams) ∨
      ¬ OneBlock object (max fec.config.symbolSize 1) ∧
        ∃ error, result = .error error ∧ fec' = fec ∧ pool' = pool := by
  rw [DatagramFecEncoder.encodeBlockWithRepairSymbols] at h
  split_ifs at h with hlong hlarge
  · right
    obtain ⟨rfl, hrest⟩ := Prod.mk.inj (Option.some.inj h)
    obtain ⟨rfl, rfl⟩ := Prod.mk.inj hrest
    refine ⟨fun one => ?_, _, rfl, rfl, rfl⟩
    exact Nat.not_le.mpr hlong (SourceBlock.length_le ⟨0, object, _, one⟩)
  · exact absurd hlength (Nat.not_le.mpr hlarge)
  · by_cases one : OneBlock object (max fec.config.symbolSize 1)
    · left
      obtain ⟨-, _, hresult⟩ := encodeOneBlockWithOptionalPool_within hencodes one h
      exact ⟨one, _, (Prod.mk.inj hresult).1⟩
    · right
      obtain ⟨error, hresult⟩ := encodeOneBlockWithOptionalPool_beyond hencodes hobject
        (Nat.le_of_not_lt hlong) one h
      obtain ⟨rfl, hrest⟩ := Prod.mk.inj hresult
      obtain ⟨rfl, rfl⟩ := Prod.mk.inj hrest
      exact ⟨one, error, rfl, rfl, rfl⟩

end Block

/-! ## One fragment -/

namespace MediaFecEncoder

variable {X : Crates} {code : X.Systematic} {encodedPackets : Bytes →
  ObjectTransmissionInformation → UInt32 → Option (List EncodingPacket)}
  {encoder encoder' : MediaFecEncoder} {decision : FecDecision} {count first : ℕ}
  {pool pool' : Option DatagramBufferPool}

/-- The configuration of a decision bounds the blocks of the encoder that is set to it. -/
lemma maxPayloadLen_set (fec : DatagramFecEncoder) (config : DatagramFecConfig) :
    ((fec.setSourceSymbols config.sourceSymbols).setSymbolSize
      config.symbolSize).config.maxPayloadLen = config.maxPayloadLen := by
  simp only [DatagramFecEncoder.setSourceSymbols, DatagramFecEncoder.setSymbolSize,
    DatagramFecConfig.maxPayloadLen, UInt16.toNat_max]
  simp

/-- **One pass of the loop** sends a fragment that fits, and fails without a change on any other. -/
theorem encodeFragment_cases (hencodes : code.Encodes encodedPackets) (hsize : 0 < size)
    (hmax : mediaFrameHeaderLen + size ≤ decision.config.maxPayloadLen)
    {result : Except MediaFecError (EncodedMediaBlock × List Bytes)}
    (h : encoder.encodeFragment (X.withEncodedPackets encodedPackets) frame decision size count i
      first pool = some (result, encoder', pool')) :
    (FragmentFits frame decision.config size i ∧ ∃ parts, result = .ok parts) ∨
      ¬ FragmentFits frame decision.config size i ∧ ∃ error, result = .error error ∧
        encoder'.fec.blockId = encoder.fec.blockId ∧
        encoder'.fec.packetSequence = encoder.fec.packetSequence ∧ pool' = pool := by
  by_cases hencodable : ∃ dtsDeltaMs, frame.metadata.Encodable dtsDeltaMs
  · obtain ⟨dtsDeltaMs, hdts⟩ := hencodable
    rw [encodeFragment_of_encodable hsize hdts, sendObject] at h
    set object := fragmentObject frame size count dtsDeltaMs i
    have hlength : object.length = mediaFrameHeaderLen + (piece frame.payload size i).length :=
      length_fragmentObject ..
    have hne : object ≠ [] := by
      refine List.ne_nil_of_length_pos ?_
      rw [hlength, mediaFrameHeaderLen]
      omega
    set fec := (encoder.fec.setSourceSymbols decision.config.sourceSymbols).setSymbolSize
      decision.config.symbolSize with hfec
    have hlarge : object.length ≤ fec.config.maxPayloadLen := by
      rw [hfec, maxPayloadLen_set, hlength, length_piece]
      omega
    have hsymbol : max fec.config.symbolSize 1 = max decision.config.symbolSize 1 :=
      max_one_eq (max_one_pos _)
    have hone : OneBlock object (max fec.config.symbolSize 1)
        ↔ FragmentFits frame decision.config size i := by
      rw [hsymbol]
      constructor
      · intro one
        exact ⟨⟨dtsDeltaMs, hdts⟩, hlength ▸ one.symbols_le⟩
      · intro hfits
        exact ⟨hne, max_one_pos _, hlength ▸ hfits.symbols_le⟩
    obtain ⟨⟨sent, fec', pool''⟩, hblock, heq⟩ := Option.map_eq_some_iff.mp h
    obtain ⟨rfl, hrest⟩ := Prod.mk.inj heq
    obtain ⟨rfl, rfl⟩ := Prod.mk.inj hrest
    rcases encodeBlock_cases hencodes hne hlarge hblock with ⟨one, datagrams, rfl⟩ |
      ⟨hbeyond, error, rfl, rfl, rfl⟩
    · exact Or.inl ⟨hone.mp one, _, rfl⟩
    · exact Or.inr ⟨fun hfits => hbeyond (hone.mpr hfits), _, rfl, rfl, rfl, rfl⟩
  · obtain ⟨error, herror⟩ := encodeFragment_of_not_encodable hencodable size count i first
    rw [herror] at h
    obtain ⟨rfl, hrest⟩ := Prod.mk.inj (Option.some.inj h)
    obtain ⟨rfl, rfl⟩ := Prod.mk.inj hrest
    exact Or.inr ⟨fun hfits => hencodable hfits.encodable, error, rfl, rfl, rfl, rfl⟩

/-! ## All fragments -/

/-- When all fragments fit, the loop over them does not fail. -/
lemma encodeFragments_ok (hencodes : code.Encodes encodedPackets) (hsize : 0 < size)
    (hmax : mediaFrameHeaderLen + size ≤ decision.config.maxPayloadLen) {indices : List ℕ}
    (hfits : ∀ i ∈ indices, FragmentFits frame decision.config size i)
    {result : Except MediaFecError (List EncodedMediaBlock × List Bytes)}
    (h : encodeFragments (X.withEncodedPackets encodedPackets) frame decision size count encoder
      indices first pool = some (result, encoder', pool')) : ∃ parts, result = .ok parts := by
  induction indices generalizing encoder first pool result with
  | nil =>
      obtain ⟨rfl, -⟩ := Prod.mk.inj (Option.some.inj h)
      exact ⟨_, rfl⟩
  | cons i indices ih =>
      obtain ⟨hi, hrest⟩ := List.forall_mem_cons.mp hfits
      rcases encodeFragments_cons h with ⟨error, rfl, hstep⟩ |
        ⟨_, _, next, pool₁, rest, hstep, hloop, rfl⟩
      · rcases encodeFragment_cases hencodes hsize hmax hstep with ⟨-, parts, hparts⟩ | ⟨hnot, -⟩
        · cases hparts
        · exact absurd hi hnot
      · obtain ⟨parts, rfl⟩ := ih hrest hloop
        exact ⟨_, rfl⟩

/-- The loop over all fragments fails in its first pass or not at all. -/
lemma encodeFragments_error (hencodes : code.Encodes encodedPackets) (hsize : 0 < size)
    (hmax : mediaFrameHeaderLen + size ≤ decision.config.maxPayloadLen) {error : MediaFecError}
    (h : encodeFragments (X.withEncodedPackets encodedPackets) frame decision size count encoder
      (List.range count) first pool = some (.error error, encoder', pool')) :
    encoder.encodeFragment (X.withEncodedPackets encodedPackets) frame decision size count 0 first
      pool = some (.error error, encoder', pool') := by
  cases count with
  | zero => cases (Prod.mk.inj (Option.some.inj h)).1
  | succ n =>
      rw [List.range_succ_eq_map] at h
      rcases encodeFragments_cons h with ⟨error', herror, hstep⟩ |
        ⟨_, _, next, pool₁, rest, hstep, hloop, hresult⟩
      · obtain rfl := Except.error.inj herror
        exact hstep
      · rcases encodeFragment_cases hencodes hsize hmax hstep with ⟨hfirst, -⟩ |
          ⟨-, error', herror, -⟩
        · obtain ⟨parts, rfl⟩ :=
            encodeFragments_ok hencodes hsize hmax (fun i _ => hfirst.of_first i) hloop
          cases hresult
        · cases herror

/-- A frame that is refused was refused before the loop, or in its first pass. -/
lemma encodeFrameWithOptionalPool_error (hencodes : code.Encodes encodedPackets)
    {error : MediaFecError}
    (h : encoder.encodeFrameWithOptionalPool (X.withEncodedPackets encodedPackets) frame pool
      = some (.error error, encoder', pool')) :
    (encoder' = encoder ∧ pool' = pool) ∨
      ∃ decision size count, encoder.Cuts frame decision size count ∧
        encoder.encodeFragment (X.withEncodedPackets encodedPackets) frame decision size count 0 0
          pool = some (.error error, encoder', pool') := by
  rcases encodeFrameWithOptionalPool_eq_some h with ⟨error', -, rfl, rfl⟩ |
    ⟨decision, size, count, loop, hcuts, -, -, hloop, hresult⟩
  · exact Or.inl ⟨rfl, rfl⟩
  · cases loop with
    | ok parts => cases hresult
    | error error' =>
        obtain rfl := Except.error.inj hresult
        exact Or.inr ⟨decision, size, count, hcuts,
          encodeFragments_error hencodes hcuts.size_pos hcuts.header_add_size_le hloop⟩

/-- The counters and the pool behind a frame that is refused. -/
lemma encodeFrameWithOptionalPool_unchanged (hencodes : code.Encodes encodedPackets)
    {error : MediaFecError}
    (h : encoder.encodeFrameWithOptionalPool (X.withEncodedPackets encodedPackets) frame pool
      = some (.error error, encoder', pool')) :
    encoder'.fec.blockId = encoder.fec.blockId ∧
      encoder'.fec.packetSequence = encoder.fec.packetSequence ∧ pool' = pool := by
  rcases encodeFrameWithOptionalPool_error hencodes h with ⟨rfl, rfl⟩ |
    ⟨decision, size, count, hcuts, hfirst⟩
  · exact ⟨rfl, rfl, rfl⟩
  · rcases encodeFragment_cases hencodes hcuts.size_pos hcuts.header_add_size_le hfirst with
      ⟨-, parts, hparts⟩ | ⟨-, error', -, hid, hsequence, hpool⟩
    · cases hparts
    · exact ⟨hid, hsequence, hpool⟩

/-- **A frame that is refused costs nothing**: the counters and the pool are what they were, and the
loop over the fragments does not fail once it has encoded the first one. -/
theorem encodeFrame_atomic (hencodes : code.Encodes encodedPackets) (encoder : MediaFecEncoder)
    (frame : MediaFrame) :
    (∀ error encoder',
      encoder.encodeFrame (X.withEncodedPackets encodedPackets) frame
        = some (.error error, encoder') →
      encoder'.fec.blockId = encoder.fec.blockId ∧
        encoder'.fec.packetSequence = encoder.fec.packetSequence) ∧
    (∀ pool error encoder' pool',
      encoder.encodeFrameReusing (X.withEncodedPackets encodedPackets) frame pool
        = some (.error error, encoder', pool') →
      encoder'.fec.blockId = encoder.fec.blockId ∧
        encoder'.fec.packetSequence = encoder.fec.packetSequence ∧ pool' = pool) ∧
    ∀ decision size count pool first encoder₁ pool₁, encoder.Cuts frame decision size count →
      encoder.encodeFragment (X.withEncodedPackets encodedPackets) frame decision size count 0 0
          pool = some (.ok first, encoder₁, pool₁) →
      ∀ error encoder' pool',
        encodeFragments (X.withEncodedPackets encodedPackets) frame decision size count encoder
          (List.range count) 0 pool ≠ some (.error error, encoder', pool') := by
  refine ⟨?_, ?_, ?_⟩
  · intro error encoder' h
    obtain ⟨⟨result, last, pool'⟩, hcall, heq⟩ := Option.map_eq_some_iff.mp h
    obtain ⟨rfl, rfl⟩ := Prod.mk.inj heq
    obtain ⟨hid, hsequence, -⟩ := encodeFrameWithOptionalPool_unchanged hencodes hcall
    exact ⟨hid, hsequence⟩
  · intro pool error encoder' pool' h
    obtain ⟨⟨result, last, pool₁⟩, hcall, heq⟩ := Option.map_eq_some_iff.mp h
    obtain ⟨rfl, hlast⟩ := Prod.mk.inj heq
    obtain ⟨rfl, rfl⟩ := Prod.mk.inj hlast
    obtain ⟨hid, hsequence, hpool⟩ := encodeFrameWithOptionalPool_unchanged hencodes hcall
    exact ⟨hid, hsequence, by rw [hpool, Option.getD_some]⟩
  · intro decision size count pool first encoder₁ pool₁ hcuts hfirst error encoder' pool' h
    rw [encodeFragments_error hencodes hcuts.size_pos hcuts.header_add_size_le h] at hfirst
    cases hfirst

/-- Twenty bytes for four fragments, with a flag that the header has no room for. -/
def flagged : MediaFrame :=
  ⟨⟨0, 0, 0, none, 0, .data, ⟨256⟩⟩, List.replicate 20 7⟩

/-- Two buffers, of which the first suffices for a fragment. -/
def twoBuffers : DatagramBufferPool := ⟨[⟨[], 200⟩, ⟨[1], 64⟩]⟩

theorem encodeFrame_atomic_flags :
    ∃ encoder' pool', (⟨⟨7, 9, .default⟩, .fixed 50 1 0, 0⟩ : MediaFecEncoder).encodeFrameReusing
        (repetition.withEncodedPackets Repetition.unboundedPackets) flagged twoBuffers
        = some (.error (.flagsTooLarge 256), encoder', pool') ∧
      encoder'.fec.blockId = 7 ∧ encoder'.fec.packetSequence = 9 ∧ pool' = twoBuffers := by
  have hcall : (⟨⟨7, 9, .default⟩, .fixed 50 1 0, 0⟩ : MediaFecEncoder).encodeFrameReusing
      (repetition.withEncodedPackets Repetition.unboundedPackets) flagged twoBuffers
      = some (.error (.flagsTooLarge 256), ⟨⟨7, 9, .default⟩, .fixed 50 1 0, 0⟩, twoBuffers) := by
    have hmax : (AdaptiveFecController.decide (.fixed 50 1 0)
        (flagged.payload.length + mediaFrameHeaderLen) .data).config.maxPayloadLen = 50 := by
      rw [AdaptiveFecController.decide_fixed 0 (by decide) (by decide) _ (by decide)]
      rfl
    -- the flags are refused before the block is built, whatever the decision
    have hpass : ∀ decision size count,
        (⟨⟨7, 9, .default⟩, .fixed 50 1 0, 0⟩ : MediaFecEncoder).encodeFragment
          (repetition.withEncodedPackets Repetition.unboundedPackets) flagged decision size count
          0 0 (some twoBuffers)
          = some (.error (.flagsTooLarge 256), ⟨⟨7, 9, .default⟩, .fixed 50 1 0, 0⟩,
            some twoBuffers) :=
      fun _ _ _ => rfl
    have hcount : max (flagged.payload.length ⌈/⌉ (50 - mediaFrameHeaderLen)) 1 = 4 := by
      decide
    have hrange : List.range 4 = [0, 1, 2, 3] := rfl
    have hpriority : flagged.metadata.priority = .data := rfl
    rw [encodeFrameReusing, encodeFrameWithOptionalPool]
    simp only [hpriority, hmax, hcount, hrange, encodeFragments, hpass]
    rfl
  obtain ⟨hid, hsequence, hpool⟩ :=
    (encodeFrame_atomic Repetition.encodes_unboundedPackets _ _).2.1 _ _ _ _ hcall
  exact ⟨_, _, hcall, hid, hsequence, hpool⟩

end MediaFecEncoder

end RaptorFec
