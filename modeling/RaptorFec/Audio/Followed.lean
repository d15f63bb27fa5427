import RaptorFec.Audio.Honest

/-!
# One block among others

The audio decoder serves many blocks.  It gives up the block that has been in flight for longest when
there are too many, and whenever it closes or gives up a block the datagram decoder forgets the blocks
far before that one.  A block keeps its symbols through all of this while it is retained by the blocks
that are closed, and while the blocks that come behind it are few.

* `Follows` — the block is open: the datagram decoder holds its symbols, which do not determine it;
* `Follows.push_other` — a datagram of another block leaves the block alone;
* `Follows.push_own` — one of its own adds its symbol, or has everything delivered that was missing.
-/

namespace RaptorFec

variable {X : Crates}

namespace MultichannelAudioFecDecoder

/-- The block is open, with its symbols, and what is in flight behind it is in `s`, a set that is
within the limit. -/
structure Follows (code : X.Ideal) (A : AudioBlockSet) (s : Finset UInt32) (block : AudioBlock)
    (symbols : Finset ℕ) (decoder : MultichannelAudioFecDecoder X) : Prop where
  queues : Queued decoder
  few : s.card ≤ decoder.maxInFlightBlocks
  notClosed : block.id ∉ decoder.completed
  queued : block.id ∈ decoder.inFlight → BehindIn s block.id decoder.inFlightOrder
  near : ∀ id ∈ decoder.inFlight, Retained id block.id
  holds : ∃ c, Simulates code A.blockSet decoder.fec c ∧ block.id ∉ c.closed ∧
    c.held block.id = symbols
  undecodable : symbols.Nonempty →
    ¬ code.Decodable block.object.length block.symbolSize symbols

section Follows

variable {code : X.Ideal} {A : AudioBlockSet} {s : Finset UInt32} {block other : AudioBlock}
  {symbols : Finset ℕ} {self : MultichannelAudioFecDecoder X} {sequence : UInt32} {esi : ℕ}
  {datagram : Bytes}

lemma follows_new (code : X.Ideal) (A : AudioBlockSet) {s : Finset UInt32}
    (hfew : s.card ≤ defaultInFlightAudioBlocks) (block : AudioBlock) :
    Follows code A s block ∅ (new : MultichannelAudioFecDecoder X) where
  queues := (bounded_configured []).toQueued
  few := hfew
  notClosed := Finset.notMem_empty _
  queued h := absurd h (Finset.notMem_empty _)
  near _ h := absurd h (Finset.notMem_empty _)
  holds := ⟨_, simulates_new code _, Set.notMem_empty _, rfl⟩
  undecodable h := absurd h Finset.not_nonempty_empty

/-- The delivered source indices are of no concern. -/
lemma Follows.setDelivered (h : Follows code A s block symbols self) (id : UInt32)
    (delivered : Finset UInt16) : Follows code A s block symbols (self.setDelivered id delivered) :=
  ⟨h.queues.setDelivered id delivered, h.few, h.notClosed, h.queued, h.near, h.holds, h.undecodable⟩

/-- The datagram decoder may know more of other blocks. -/
lemma Follows.withFec (h : Follows code A s block symbols self) {fec : DatagramFecDecoder X}
    {symbols' : Finset ℕ} {c : Collector UInt32 ℕ} (hsim : Simulates code A.blockSet fec c)
    (hopen : block.id ∉ c.closed) (hheld : c.held block.id = symbols')
    (hundecodable : symbols'.Nonempty →
      ¬ code.Decodable block.object.length block.symbolSize symbols') :
    Follows code A s block symbols' { self with fec := fec } :=
  ⟨h.queues.withFec fec, h.few, h.notClosed, h.queued, h.near, ⟨c, hsim, hopen, hheld⟩, hundecodable⟩

/-- **A block is put in flight**, the followed one or another.  When that is one too many the oldest
one is given up, which is not the followed one. -/
lemma Follows.observeInFlight (h : Follows code A s block symbols self) {id : UInt32}
    (hnot : id ∉ self.completed) (hnear : Retained id block.id)
    (hlate : id = block.id ∨ block.id ∈ self.inFlight → id ∈ s ∧ block.id ∈ s) :
    Follows code A s block symbols (self.observeInFlight id) ∧
      (block.id ∈ (self.observeInFlight id).inFlight → id = block.id ∨ block.id ∈ self.inFlight) ∧
      (self.observeInFlight id).deliveredOf block.id = self.deliveredOf block.id := by
  have hqueues := (h.queues.observeInFlight hnot).1
  have hinsert : ∀ {inFlight : Finset UInt32}, block.id ∈ insert id inFlight →
      id = block.id ∨ block.id ∈ inFlight := fun hin => (Finset.mem_insert.mp hin).imp_left Eq.symm
  rcases observeInFlight_cases h.queues id with ⟨-, heq⟩ | ⟨hnew, -, heq⟩ |
    ⟨hnew, oldest, rest, hlist, hfull, heq⟩
  · rw [heq]
    exact ⟨h, Or.inr, rfl⟩
  · rw [heq] at hqueues ⊢
    refine ⟨⟨hqueues, h.few, h.notClosed, fun hin => ?_, ?_, h.holds, h.undecodable⟩, hinsert, rfl⟩
    · rcases hinsert hin with rfl | hold
      · exact BehindIn.last s _ _
      · exact (h.queued hold).snoc (hlate (Or.inr hold)).1
    · exact (Finset.forall_mem_insert _ _ _).mpr ⟨hnear, h.near⟩
  · have horder := h.queues.inFlightOrder.snoc hnew
    have hbehind : id = block.id ∨ block.id ∈ self.inFlight →
        BehindIn s block.id (self.inFlightOrder ++ [id]) := by
      rintro (rfl | hold)
      · exact BehindIn.last s _ _
      · exact (h.queued hold).snoc (hlate (Or.inr hold)).1
    have hoff : oldest ∈ self.inFlight := (h.queues.inFlightOrder.mem_iff oldest).mp (by simp [hlist])
    have hlong : (self.inFlightOrder ++ [id]).length = self.maxInFlightBlocks + 1 := by
      rw [List.length_append, h.queues.inFlightOrder.length_eq, hfull, List.length_singleton]
    rw [hlist, List.cons_append] at horder hbehind hlong
    have hne : oldest ≠ block.id := by
      intro hsame
      have hin : id = block.id ∨ block.id ∈ self.inFlight := Or.inr (hsame ▸ hoff)
      exact (hbehind hin).oldest_ne horder.nodup (hlate hin).2
        (by have := h.few; omega) hsame
    obtain ⟨completed, hremembered, hremember⟩ := rememberClosed_eq
      (self.evicted id oldest rest) h.queues.completedOrder oldest
    obtain ⟨c, hsim, hopen, hheld⟩ := h.holds
    obtain ⟨hheld', hclosed'⟩ : Collector.SameOn c (c.close DropsId oldest) block.id :=
      Collector.sameOn_close hne.symm (not_not.mpr (h.near oldest hoff))
    rw [heq, hremember] at hqueues ⊢
    refine ⟨⟨hqueues, h.few, fun hin => ?_, fun hin => ?_, fun other hother => ?_,
      ⟨_, hsim.expire oldest, fun hin => hopen (hclosed'.mp hin), hheld'.trans hheld⟩,
      h.undecodable⟩, fun hin => hinsert (Finset.mem_of_mem_erase hin), ?_⟩
    · rcases mem_of_mem_remember ((hremembered.mem_iff _).mpr hin) with hsame | hold
      · exact hne hsame.symm
      · exact h.notClosed ((h.queues.completedOrder.mem_iff _).mp hold)
    · exact (hbehind (hinsert (Finset.mem_of_mem_erase hin))).tail hne
    · rcases Finset.mem_insert.mp (Finset.mem_of_mem_erase hother) with rfl | hold
      · exact hnear
      · exact h.near other hold
    · change ((self.delivered.erase oldest).lookup block.id).getD ∅ = _
      rw [Finmap.lookup_erase_ne hne.symm]
      rfl

/-- Another block is closed. -/
lemma Follows.closeBlock (h : Follows code A s block symbols self) {id : UInt32}
    (hne : id ≠ block.id) : Follows code A s block symbols (self.closeBlock id) ∧
      (block.id ∈ (self.closeBlock id).inFlight → block.id ∈ self.inFlight) ∧
      (self.closeBlock id).deliveredOf block.id = self.deliveredOf block.id := by
  have hqueues := h.queues.closeBlock id
  have hdelivered := deliveredOf_closeBlock h.queues hne.symm
  obtain ⟨completed, -, hclose⟩ := closeBlock_eq _ h.queues.completedOrder id
  have hmem : ∀ other ∈ (self.closeBlock id).completed, other = id ∨ other ∈ self.completed :=
    fun other hother => mem_of_mem_closeBlock h.queues hother
  rw [hclose] at hqueues hmem hdelivered ⊢
  refine ⟨⟨hqueues, h.few, fun hin => ?_, fun hin => ?_, fun other hother => ?_, h.holds,
    h.undecodable⟩, fun hin => Finset.mem_of_mem_erase hin, hdelivered⟩
  · rcases hmem _ hin with hsame | hold
    · exact hne hsame.symm
    · exact h.notClosed hold
  · exact (h.queued (Finset.mem_of_mem_erase hin)).filter_ne hne
  · exact h.near other (Finset.mem_of_mem_erase hother)

/-- **A datagram of another block** leaves the block alone. -/
theorem Follows.push_other (h : Follows code A s block symbols self) (hother : other ∈ A)
    (hcarries : Carries code.toSystematic other.toSourceBlock sequence esi datagram)
    (hne : other.id ≠ block.id) (hnear : Retained other.id block.id)
    (hlate : block.id ∈ self.inFlight → other.id ∈ s ∧ block.id ∈ s) :
    Follows code A s block symbols (self.pushDatagram datagram).2 ∧
      (block.id ∈ (self.pushDatagram datagram).2.inFlight → block.id ∈ self.inFlight) ∧
      (self.pushDatagram datagram).2.deliveredOf block.id = self.deliveredOf block.id := by
  by_cases hclosed : other.id ∈ self.completed
  · rw [pushDatagram_ignored hcarries hclosed]
    exact ⟨h, id, rfl⟩
  obtain ⟨c, hsim, hopen, hheld⟩ := h.holds
  have hsymbol : IsSymbol code.toSystematic A.blockSet datagram (other.id, esi) :=
    ⟨_, AudioBlockSet.mem_blockSet hother, sequence, rfl, hcarries⟩
  obtain ⟨hresult, hsim'⟩ := simulates_push code _ _ c datagram (other.id, esi) hsim hsymbol
  have hkeeps : ¬ DropsId other.id block.id := not_not.mpr hnear
  have hsame : Collector.SameOn c
      (c.push (DoneIn code A.blockSet) DropsId (other.id, esi)).2 block.id :=
    Collector.sameOn_push hne.symm hkeeps
  have hfec : Follows code A s block symbols
      { self with fec := (self.fec.pushDatagram datagram).2 } :=
    h.withFec hsim' (fun hin => hopen (hsame.2.mp hin)) (hsame.1.trans hheld) h.undecodable
  cases hfired : (c.push (DoneIn code A.blockSet) DropsId (other.id, esi)).1 with
  | none =>
      rw [hfired] at hresult
      obtain ⟨-, hpush⟩ := pushDatagram_waits h.queues hcarries hclosed (Prod.ext hresult rfl)
      obtain ⟨hnext, hin, hdelivered⟩ := hfec.observeInFlight hclosed hnear (fun hid =>
        hlate (hid.resolve_left hne))
      rw [hpush]
      refine ⟨hnext.setDelivered _ _, fun hflight => (hin hflight).resolve_left hne, ?_⟩
      rw [deliveredOf_setDelivered, if_neg hne.symm, hdelivered]
      rfl
  | some id =>
      rw [hfired] at hresult
      obtain ⟨b, hb, hid, hobject⟩ := hresult
      obtain rfl := Collector.push_fst_eq_some hfired
      obtain rfl := BlockSet.eq_of_id hb (AudioBlockSet.mem_blockSet hother) hid
      obtain ⟨output, delivered', -, -, -, hpush⟩ :=
        pushDatagram_returns hcarries hclosed (Prod.ext hobject rfl)
      obtain ⟨hnext, hin, hdelivered⟩ := (hfec.setDelivered other.id delivered').closeBlock hne
      rw [hpush]
      refine ⟨hnext, hin, hdelivered.trans ?_⟩
      rw [deliveredOf_setDelivered, if_neg hne.symm]
      rfl

/-- **A datagram of the block** adds its symbol and delivers its own shard, or delivers every shard
that is missing. -/
theorem Follows.push_own (h : Follows code A s block symbols self) (hblock : block ∈ A)
    (hin : block.id ∈ s)
    (hcarries : Carries code.toSystematic block.toSourceBlock sequence esi datagram) :
    ∃ output next, self.pushDatagram datagram = (.ok output, next) ∧
      ((Follows code A s block (insert esi symbols) next ∧
        ∀ i ∈ next.deliveredOf block.id,
          i ∈ self.deliveredOf block.id ∨ i ∈ output.map (·.index)) ∨
      ∀ i < block.sourceSymbols,
        UInt16.ofNat i ∈ self.deliveredOf block.id ∨ UInt16.ofNat i ∈ output.map (·.index)) := by
  obtain ⟨c, hsim, hopen, hheld⟩ := h.holds
  have hkept : block.id ∉ self.fec.completed := fun hmem => hopen ((hsim.closed _).mpr hmem)
  rcases hsim.push_cases (AudioBlockSet.mem_blockSet hblock) hcarries hkept with
    ⟨hdone, hfec, hsim'⟩ | ⟨-, hfec, -⟩
  · obtain ⟨hnew, hpush⟩ := pushDatagram_waits h.queues hcarries h.notClosed (Prod.ext hfec rfl)
    have hadds : Follows code A s block (insert esi symbols)
        { self with fec := (self.fec.pushDatagram datagram).2 } := by
      refine h.withFec hsim' hopen ?_ fun _ => hheld ▸ hdone
      rw [← hheld]
      exact Function.update_self _ _ _
    obtain ⟨hnext, -, -⟩ := hadds.observeInFlight h.notClosed (retained_self block.id)
      fun _ => ⟨hin, hin⟩
    refine ⟨_, _, hpush, Or.inl ⟨hnext.setDelivered _ _, fun i hi => ?_⟩⟩
    rw [deliveredOf_setDelivered, if_pos rfl] at hi
    exact (hnew.after_iff i).mp hi
  · obtain ⟨output, delivered', hnew, -, hall, hpush⟩ :=
      pushDatagram_returns hcarries h.notClosed (Prod.ext hfec rfl)
    exact ⟨output, _, hpush, Or.inr fun i hi => (hnew.after_iff _).mp (hall i hi)⟩

end Follows

end MultichannelAudioFecDecoder

end RaptorFec
