import RaptorFec.Session.Waiting

/-!
# Waiting for more of an epoch

What the shards of the datagrams do to one epoch: its own shards add their fragments until it is
complete and goes to the playout buffer, and those of other epochs take nothing away.

* `Gathered` — the assembly in flight has the given fragments and misses others;
* `Gathers` — the receiver waits for more of the epoch, `Buffered` — the epoch lies in the playout
  buffer, where it stays while the later ones are few (`Exact.insert_buffered`);
* `Progress` — it is one or the other; `Progress.pushShard` is the step lemma, and
  `Progress.pushShards` the loop.
-/

namespace RaptorFec

/-! ## What is in flight -/

/-- The assembly in flight, if there is one, has the given fragments and misses others. -/
structure Gathered (cut : EpochCut) (given : Set UInt16) (entry : Option EpochAssembly) : Prop where
  has : ∀ i < cut.count, UInt16.ofNat i ∈ given → ∃ assembly ∈ entry, assembly.Has cut i
  unfinished : ∀ assembly ∈ entry, assembly.Unfinished ∧ assembly.isComplete = false

lemma Gathered.mono {cut : EpochCut} {given given' : Set UInt16} {entry : Option EpochAssembly}
    (h : Gathered cut given entry) (hsub : given' ⊆ given) : Gathered cut given' entry :=
  ⟨fun i hi hin => h.has i hi (hsub hin), h.unfinished⟩

/-- An epoch that misses something was not given all its fragments. -/
lemma Gathered.exists_missing {cut : EpochCut} {given : Set UInt16} {entry : Option EpochAssembly}
    {config : MultichannelAudioFecConfig} (fits : cut.geometry.Fits config cut.epoch.groups)
    (h : Gathered cut given entry) (hassembles : ∀ assembly ∈ entry, EpochAssembles cut assembly)
    (hpos : 0 < cut.count) : ∃ i < cut.count, UInt16.ofNat i ∉ given := by
  by_contra hall
  push Not at hall
  obtain ⟨assembly, hentry, -⟩ := h.has 0 hpos (hall 0 hpos)
  obtain ⟨hunfinished, hincomplete⟩ := h.unfinished assembly hentry
  have hhas : ∀ i < cut.count, assembly.Has cut i := by
    intro i hi
    obtain ⟨assembly', hentry', hhas⟩ := h.has i hi (hall i hi)
    obtain rfl := Option.some.inj (hentry.symm.trans hentry')
    exact hhas
  have hcomplete := (hassembles assembly hentry).isComplete fits hunfinished hhas
  rw [hincomplete] at hcomplete
  cases hcomplete

namespace MultichannelAudioReceiver

variable {X : Crates}

/-- An epoch of the time lies in the playout buffer. -/
def Buffered (ptsSamples : UInt64) (receiver : MultichannelAudioReceiver X) : Prop :=
  ∃ epoch, (ptsSamples, epoch) ∈ receiver.playout.epochs.entries

/-- The receiver waits for more of the epoch, of which it has the given fragments.  The epoch is in
flight only if it was started. -/
structure Gathers (cutOf : AudioBlock → EpochCut) (s : Finset UInt32) (block : AudioBlock)
    (maxInflight maxIgnored : ℕ) (started : Prop) (given : Set UInt16)
    (receiver : MultichannelAudioReceiver X) : Prop where
  waits : receiver.Waits s block.id (cutOf block).epoch.ptsSamples maxInflight maxIgnored
  gathered : Gathered (cutOf block) given (receiver.inflight.lookup block.id)
  flight : block.id ∈ receiver.inflight → started

/-- The receiver holds exact epochs, later ones fit its buffer, and the epoch of the block is in the
buffer or the receiver waits for more of it. -/
structure Progress (code : X.Sound) (A : AudioBlockSet) (cutOf : AudioBlock → EpochCut)
    (s : Finset UInt32) (later : Finset UInt64) (block : AudioBlock) (maxInflight maxIgnored : ℕ)
    (started : Prop) (given : Set UInt16) (receiver : MultichannelAudioReceiver X) : Prop
    extends Exact code A cutOf receiver where
  room : later.card < receiver.playout.maxBufferedEpochs
  state : Buffered (cutOf block).epoch.ptsSamples receiver ∨
    Gathers cutOf s block maxInflight maxIgnored started given receiver

section Progress

variable {code : X.Sound} {A : AudioBlockSet} {cutOf : AudioBlock → EpochCut} {s : Finset UInt32}
  {later : Finset UInt64} {block other : AudioBlock} {maxInflight maxIgnored : ℕ}
  {started : Prop} {given given' : Set UInt16} {self next : MultichannelAudioReceiver X}
  {shard : DecodedMultichannelAudioShard} {outcome : MultichannelAudioReceiveOutcome}

/-- The times in the playout buffer are those of the blocks. -/
lemma Exact.key_mem (h : Exact code A cutOf self)
    (hlater : ∀ b ∈ A, (cutOf block).epoch.ptsSamples < (cutOf b).epoch.ptsSamples →
      (cutOf b).epoch.ptsSamples ∈ later) :
    ∀ entry ∈ self.playout.epochs.entries, (cutOf block).epoch.ptsSamples < entry.1 →
      entry.1 ∈ later := by
  intro entry hentry hlt
  obtain ⟨hkey, b, hb, hexact⟩ := h.playout entry hentry
  have hpts : entry.1 = (cutOf b).epoch.ptsSamples :=
    hkey.trans (congrArg DecodedMultichannelAudioEpoch.ptsSamples hexact)
  rw [hpts] at hlt ⊢
  exact hlater b hb hlt

/-- A complete epoch of one of the blocks is offered to the playout buffer. -/
lemma Exact.insert_buffered (h : Exact code A cutOf self)
    (hlater : ∀ b ∈ A, (cutOf block).epoch.ptsSamples < (cutOf b).epoch.ptsSamples →
      (cutOf b).epoch.ptsSamples ∈ later)
    (hroom : later.card < self.playout.maxBufferedEpochs) (hother : other ∈ A)
    {epoch : DecodedMultichannelAudioEpoch} (hexact : epoch.plain = (cutOf other).epoch.exact)
    (hstate : Buffered (cutOf block).epoch.ptsSamples self ∨
      other = block ∧ self.isLate (cutOf block).epoch.ptsSamples = false) :
    ∃ held, ((cutOf block).epoch.ptsSamples, held)
      ∈ (self.playout.insert epoch).2.epochs.entries := by
  have hpts : epoch.ptsSamples = (cutOf other).epoch.ptsSamples :=
    congrArg DecodedMultichannelAudioEpoch.ptsSamples hexact
  refine ExactMultichannelAudioPlayoutBuffer.mem_insert hroom (h.key_mem hlater) ?_ ?_
  · rw [hpts]
    exact hlater other hother
  · rcases hstate with hbuffered | ⟨rfl, hearly⟩
    · exact Or.inl hbuffered
    · exact Or.inr ⟨hpts, hearly⟩

/-- The shard of the block adds its fragment, unless it completes the epoch. -/
lemma gathered_filed (hcuts : Cuts A cutOf) (hexact : Exact code A cutOf self) (hblock : block ∈ A)
    (hshard : block.HasShard shard)
    (h : Gathered (cutOf block) given (self.inflight.lookup block.id))
    (hwaits : ((self.assemblyFor shard).push shard).2.isComplete = false) :
    Gathered (cutOf block) (insert shard.index given)
      ((self.filed shard).inflight.lookup block.id) := by
  have hassembles := hexact.assemblyFor hcuts hblock hshard
  have hid := hshard.blockId_eq
  obtain ⟨config, fits⟩ := hcuts.fits block hblock
  have hunfinished : (self.assemblyFor shard).Unfinished := by
    rw [assemblyFor, hid]
    cases hlookup : self.inflight.lookup block.id with
    | none => exact EpochAssembly.unfinished_new _ _
    | some assembly => exact (h.unfinished assembly hlookup).1
  have hentry : (self.filed shard).inflight.lookup block.id
      = some ((self.assemblyFor shard).push shard).2 := by
    rw [← hid]
    exact Finmap.lookup_insert _
  obtain ⟨i, hi, recovery, rfl⟩ := hshard
  have hcount : i < (cutOf block).count := hcuts.count block hblock ▸ hi
  have hheader : (block.shard recovery i).header = (cutOf block).headerAt i :=
    congrFun (hcuts.header block hblock) i
  have hpayload : (block.shard recovery i).payload = (cutOf block).payloadAt i :=
    congrFun (hcuts.payload block hblock) i
  obtain ⟨hnext, hown, hmore⟩ := hassembles.push_has fits hunfinished hcount hheader hpayload
  have hsmall : (cutOf block).count < 2 ^ 16 := by
    rw [EpochCut.count_eq fits]
    exact UInt16.toNat_lt _
  rw [hentry]
  refine ⟨fun j hj hin => ⟨_, rfl, ?_⟩, fun assembly hassembly => ?_⟩
  · rcases hin with heq | hold
    · rw [AudioBlock.index_shard hi, ← UInt16.toNat_inj,
        UInt16.toNat_ofNat_of_lt' (Nat.lt_trans hj hsmall),
        UInt16.toNat_ofNat_of_lt' (Nat.lt_trans hcount hsmall)] at heq
      exact heq ▸ hown
    · obtain ⟨assembly, hassembly, hhas⟩ := h.has j hj hold
      refine hmore j ?_
      rw [assemblyFor, hid, hassembly]
      exact hhas
  · obtain rfl := Option.some.inj hassembly
    exact ⟨hnext, hwaits⟩

/-- A block gets in flight by its own shards only. -/
lemma mem_filed {blockId : UInt32} (h : blockId ∈ (self.filed shard).inflight) :
    blockId = shard.blockId ∨ blockId ∈ self.inflight := by
  have hsheds : Sheds self (self.withSlot shard) := sheds_withSlot
  rcases Finmap.mem_insert.mp h with hsame | hold
  · exact Or.inl hsame
  · obtain ⟨assembly, hlookup⟩ := Finmap.mem_iff.mp hold
    exact Or.inr (Finmap.mem_iff.mpr ⟨assembly, hsheds.inflight blockId assembly hlookup⟩)

/-- A shard of the epoch is not ignored while the receiver waits for more. -/
lemma Gathers.not_ignores (hcuts : Cuts A cutOf) (hblock : block ∈ A)
    (h : Gathers cutOf s block maxInflight maxIgnored started given self)
    (hshard : block.HasShard shard) : ¬ self.Ignores shard := by
  have hid := hshard.blockId_eq
  obtain ⟨i, hi, recovery, rfl⟩ := hshard
  have hheader : (block.shard recovery i).header = (cutOf block).headerAt i :=
    congrFun (hcuts.header block hblock) i
  have hpts : (block.shard recovery i).header.ptsSamples = (cutOf block).epoch.ptsSamples := by
    rw [hheader]
    rfl
  rintro (hignored | hlate)
  · exact h.waits.notIgnored (hid ▸ hignored)
  · rw [hpts, h.waits.early] at hlate
    cases hlate

/-- **A shard while the receiver waits**: one of the block adds its fragment, one of another block
takes nothing away. -/
lemma Gathers.filed (hcuts : Cuts A cutOf) (hexact : Exact code A cutOf self) (hblock : block ∈ A)
    (hpos : 0 < maxInflight) (h : Gathers cutOf s block maxInflight maxIgnored started given self)
    (hother : other ∈ A) (hshard : other.HasShard shard) (hnot : ¬ self.Ignores shard)
    (hown : other = block → started) (hlate : started → other.id ∈ s ∧ block.id ∈ s)
    (hgiven : ∀ i ∈ given', i ∈ given ∨ other = block ∧ i = shard.index) :
    (self.filed shard).Waits s block.id (cutOf block).epoch.ptsSamples maxInflight maxIgnored ∧
      (other = block → ((self.assemblyFor shard).push shard).2.isComplete = false →
        Gathered (cutOf block) given' ((self.filed shard).inflight.lookup block.id)) ∧
      (other ≠ block →
        Gathered (cutOf block) given' ((self.filed shard).inflight.lookup block.id)) ∧
      (block.id ∈ (self.filed shard).inflight → started) := by
  have hid := hshard.blockId_eq
  have hsame : shard.blockId = block.id → other = block := fun heq =>
    A.inj other hother block hblock (hid.symm.trans heq)
  have hstarted : shard.blockId = block.id ∨ block.id ∈ self.inflight → started := by
    rintro (heq | hin)
    · exact hown (hsame heq)
    · exact h.flight hin
  obtain ⟨hwaits, hlookup⟩ := h.waits.filed hpos (fun hin => hnot (Or.inl hin)) fun hflight => by
    rw [hid]
    exact hlate (hstarted hflight)
  refine ⟨hwaits, ?_, fun hne => ?_, fun hin => hstarted ((mem_filed hin).imp_left Eq.symm)⟩
  · rintro rfl hincomplete
    have hfiled := gathered_filed hcuts hexact hblock hshard h.gathered hincomplete
    refine hfiled.mono fun i hi => ?_
    rcases hgiven i hi with hold | ⟨-, hnew⟩
    · exact Or.inr hold
    · exact Or.inl hnew
  · rw [hlookup fun heq => hne (hsame heq)]
    exact h.gathered.mono fun i hi => (hgiven i hi).resolve_right fun hnew => hne hnew.1

/-- **The step lemma** for the shards of a datagram. -/
theorem Progress.pushShard (hcuts : Cuts A cutOf)
    (hlater : ∀ b ∈ A, (cutOf block).epoch.ptsSamples < (cutOf b).epoch.ptsSamples →
      (cutOf b).epoch.ptsSamples ∈ later) (hpos : 0 < maxInflight) (hblock : block ∈ A)
    (h : Progress code A cutOf s later block maxInflight maxIgnored started given self)
    (hother : other ∈ A) (hshard : other.HasShard shard) (hown : other = block → started)
    (hlate : started → other.id ∈ s ∧ block.id ∈ s)
    (hgiven : ∀ i ∈ given', i ∈ given ∨ other = block ∧ i = shard.index)
    (hnext : Exact code A cutOf (self.pushShard outcome shard).2) :
    Progress code A cutOf s later block maxInflight maxIgnored started given'
        (self.pushShard outcome shard).2 ∧
      (self.pushShard outcome shard).2.decoder = self.decoder ∧
      (Buffered (cutOf block).epoch.ptsSamples self →
        Buffered (cutOf block).epoch.ptsSamples (self.pushShard outcome shard).2) := by
  have hsheds : Sheds self (self.withSlot shard) := sheds_withSlot
  obtain ⟨next, hpushed⟩ : ∃ next, (self.pushShard outcome shard).2 = next := ⟨_, rfl⟩
  have hcases := h.toExact.pushShard_cases hcuts hother hshard outcome
  rw [hpushed] at hcases hnext ⊢
  rcases hcases with ⟨hignores, heq⟩ | ⟨hnot, hincomplete, heq⟩ | ⟨hnot, epoch, hepoch, heq⟩
  · obtain ⟨hdecoder, hplayout, hinflight⟩ := eq_of_uncounted heq
    have hkept : Buffered (cutOf block).epoch.ptsSamples self →
        Buffered (cutOf block).epoch.ptsSamples next := fun hbuffered => by
      rwa [Buffered, hplayout]
    refine ⟨⟨hnext, hplayout ▸ h.room, h.state.imp hkept fun hgathers => ?_⟩, hdecoder, hkept⟩
    have hne : other ≠ block := by
      rintro rfl
      exact hgathers.not_ignores hcuts hblock hshard hignores
    refine ⟨(hgathers.waits.congr heq).1, ?_, hinflight ▸ hgathers.flight⟩
    rw [hinflight]
    exact hgathers.gathered.mono fun i hi => (hgiven i hi).resolve_right fun hnew => hne hnew.1
  · obtain ⟨hdecoder, hplayout, hinflight⟩ := eq_of_uncounted heq
    replace hplayout : next.playout = self.playout := hplayout.trans hsheds.playout
    have hkept : Buffered (cutOf block).epoch.ptsSamples self →
        Buffered (cutOf block).epoch.ptsSamples next := fun hbuffered => by
      rwa [Buffered, hplayout]
    refine ⟨⟨hnext, hplayout ▸ h.room, h.state.imp hkept fun hgathers => ?_⟩,
      hdecoder.trans hsheds.decoder, hkept⟩
    obtain ⟨hwaits, howns, hothers, hflight⟩ := hgathers.filed hcuts h.toExact hblock hpos hother
      hshard hnot hown hlate hgiven
    refine ⟨(hwaits.congr heq).1, ?_, hinflight ▸ hflight⟩
    rw [hinflight]
    by_cases hsame : other = block
    · exact howns hsame hincomplete
    · exact hothers hsame
  · obtain ⟨hdecoder, hplayout, hinflight⟩ := eq_of_uncounted heq
    replace hplayout : next.playout = (self.playout.insert epoch).2 :=
      hplayout.trans (congrArg (fun playout => (playout.insert epoch).2) hsheds.playout)
    have hinsert := h.toExact.insert_buffered hlater h.room hother hepoch
    rw [← hplayout] at hinsert
    have hroom : later.card < next.playout.maxBufferedEpochs := by
      rw [hplayout, (ExactMultichannelAudioPlayoutBuffer.lastPlayedPts_insert _ _).2]
      exact h.room
    refine ⟨⟨hnext, hroom, ?_⟩, hdecoder.trans hsheds.decoder,
      fun hbuffered => hinsert (Or.inl hbuffered)⟩
    rcases h.state with hbuffered | hgathers
    · exact Or.inl (hinsert (Or.inl hbuffered))
    by_cases hsame : other = block
    · -- the epoch of the block is complete
      exact Or.inl (hinsert (Or.inr ⟨hsame, hgathers.waits.early⟩))
    · obtain ⟨hwaits, -, hothers, hflight⟩ := hgathers.filed hcuts h.toExact hblock hpos hother
        hshard hnot hown hlate hgiven
      have hne : shard.blockId ≠ block.id := fun hid =>
        hsame (A.inj other hother block hblock (hshard.blockId_eq.symm.trans hid))
      obtain ⟨hsettled, hlookup⟩ := hwaits.settled hne epoch
      refine Or.inr ⟨(hsettled.congr heq).1, ?_, fun hin => ?_⟩
      · rw [hinflight, hlookup]
        exact hothers hsame
      · rw [hinflight] at hin
        exact hflight (Finmap.mem_erase.mp hin).2

/-- The same for all shards of a datagram. -/
theorem Progress.pushShards (hcuts : Cuts A cutOf)
    (hlater : ∀ b ∈ A, (cutOf block).epoch.ptsSamples < (cutOf b).epoch.ptsSamples →
      (cutOf b).epoch.ptsSamples ∈ later) (hpos : 0 < maxInflight) (hblock : block ∈ A)
    (h : Progress code A cutOf s later block maxInflight maxIgnored started given self)
    (hother : other ∈ A) {shards : List DecodedMultichannelAudioShard}
    (hshards : ∀ shard ∈ shards, other.HasShard shard) (hown : other = block → started)
    (hlate : started → other.id ∈ s ∧ block.id ∈ s)
    (hgiven : ∀ i ∈ given', i ∈ given ∨ other = block ∧ i ∈ shards.map (·.index))
    (houtcome : IsExact (cutOf other).epoch outcome) :
    Progress code A cutOf s later block maxInflight maxIgnored started given'
        (pushShards shards outcome self).2 ∧
      (pushShards shards outcome self).2.decoder = self.decoder ∧
      (Buffered (cutOf block).epoch.ptsSamples self →
        Buffered (cutOf block).epoch.ptsSamples (pushShards shards outcome self).2) := by
  induction shards generalizing self outcome given with
  | nil =>
      refine ⟨⟨h.toExact, h.room, h.state.imp_right fun hgathers => ?_⟩, rfl, id⟩
      refine ⟨hgathers.waits, hgathers.gathered.mono fun i hi => ?_, hgathers.flight⟩
      exact (hgiven i hi).resolve_right fun hnew => absurd hnew.2 List.not_mem_nil
  | cons shard shards ih =>
      have hshard := hshards shard List.mem_cons_self
      obtain ⟨outcome', next, hpush, houtcome', hnext⟩ :=
        h.toExact.pushShard hcuts hother hshard houtcome
      have hpushed : Exact code A cutOf (self.pushShard outcome shard).2 := by rwa [hpush]
      obtain ⟨hprogress, hdecoder, hbuffered⟩ := h.pushShard hcuts hlater hpos hblock hother hshard
        hown hlate (fun i (hi : i ∈ given ∨ other = block ∧ i = shard.index) => hi) hpushed
      rw [hpush] at hprogress hdecoder hbuffered
      have hrest : ∀ i ∈ given', (i ∈ given ∨ other = block ∧ i = shard.index) ∨
          other = block ∧ i ∈ shards.map (·.index) := by
        intro i hi
        rcases hgiven i hi with hold | ⟨hsame, hmem⟩
        · exact Or.inl (Or.inl hold)
        · exact (List.mem_cons.mp hmem).imp (fun heq => Or.inr ⟨hsame, heq⟩) fun hin => ⟨hsame, hin⟩
      obtain ⟨hlast, hdecoder', hbuffered'⟩ := ih hprogress
        (fun shard hmem => hshards shard (List.mem_cons_of_mem _ hmem)) hrest houtcome'
      rw [MultichannelAudioReceiver.pushShards, hpush]
      exact ⟨hlast, hdecoder'.trans hdecoder, fun h => hbuffered' (hbuffered h)⟩

end Progress

end MultichannelAudioReceiver

end RaptorFec
