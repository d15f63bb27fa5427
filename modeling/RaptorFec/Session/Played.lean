import RaptorFec.Session.Progress

/-!
# A complete epoch is played

The other half of `exact_or_missing`: which epochs are not missing.

* `Tracks` — the epoch of a block lies in the playout buffer, or the receiver waits for more of it,
  and the audio decoder behind it has the symbols of the block; kept by the datagrams of other
  blocks (`Tracks.push_other`), by its own (`Tracks.push_own`), and by the reads and expiries of
  earlier times (`Tracks.take`, `Tracks.expire`);
* `complete_epoch_played` — an epoch that is determined by the datagrams that arrived in time is
  played.
-/

namespace RaptorFec

namespace MultichannelAudioReceiver

variable {X : Crates}

/-- The receiver waits for more of the epoch: it has the fragments that the audio decoder delivered,
and the decoder has the symbols that arrived. -/
structure Collects (code : X.Ideal) (A : AudioBlockSet) (cutOf : AudioBlock → EpochCut)
    (s : Finset UInt32) (block : AudioBlock) (maxInflight maxIgnored : ℕ) (started : Prop)
    (symbols : Finset ℕ) (receiver : MultichannelAudioReceiver X) : Prop where
  gathers : Gathers cutOf s block maxInflight maxIgnored started
    (receiver.decoder.deliveredOf block.id : Set UInt16) receiver
  follows : receiver.decoder.Follows code A s block symbols
  flight : block.id ∈ receiver.decoder.inFlight → started

/-- The receiver holds exact epochs, later ones fit its buffer, and the epoch of the block is in the
buffer or the receiver waits for more of it. -/
structure Tracks (code : X.Ideal) (A : AudioBlockSet) (cutOf : AudioBlock → EpochCut)
    (s : Finset UInt32) (later : Finset UInt64) (block : AudioBlock) (maxInflight maxIgnored : ℕ)
    (started : Prop) (symbols : Finset ℕ) (receiver : MultichannelAudioReceiver X) : Prop
    extends Exact code.toSound A cutOf receiver where
  room : later.card < receiver.playout.maxBufferedEpochs
  state : Buffered (cutOf block).epoch.ptsSamples receiver ∨
    Collects code A cutOf s block maxInflight maxIgnored started symbols receiver

section Tracks

variable {code : X.Ideal} {A : AudioBlockSet} {cutOf : AudioBlock → EpochCut} {s : Finset UInt32}
  {later : Finset UInt64} {block other : AudioBlock} {maxInflight maxIgnored : ℕ}
  {started : Prop} {symbols : Finset ℕ} {self : MultichannelAudioReceiver X}
  {sequence : UInt32} {esi : ℕ} {datagram : Bytes}

/-- The assembly in flight for a block is one of its epoch. -/
lemma Exact.assembles (h : Exact code.toSound A cutOf self) (hblock : block ∈ A) :
    ∀ assembly ∈ self.inflight.lookup block.id, EpochAssembles (cutOf block) assembly := by
  intro assembly hentry
  obtain ⟨b, hb, hid, hassembles⟩ := h.inflight _ assembly hentry
  obtain rfl := A.inj b hb block hblock hid
  exact hassembles

/-! ## Pushes -/

/-- The receiver that pushes the shards of a datagram, with the decoder after that. -/
def receives (self : MultichannelAudioReceiver X) (decoder : MultichannelAudioFecDecoder X) :
    MultichannelAudioReceiver X :=
  { self with
    stats := { self.stats with datagramsReceived := satAdd self.stats.datagramsReceived 1 }
    decoder := decoder }

lemma pushDatagram_of_shards {shards : List DecodedMultichannelAudioShard}
    {decoder : MultichannelAudioFecDecoder X}
    (h : self.decoder.pushDatagram datagram = (.ok shards, decoder)) :
    self.pushDatagram datagram = pushShards shards .default (self.receives decoder) := by
  rw [pushDatagram]
  simp only [h]
  rfl

/-- Another decoder changes nothing of what was gathered. -/
lemma Gathers.receives {given : Set UInt16}
    (h : Gathers cutOf s block maxInflight maxIgnored started given self)
    (decoder : MultichannelAudioFecDecoder X) :
    Gathers cutOf s block maxInflight maxIgnored started given (self.receives decoder) :=
  ⟨h.waits.of_eq rfl h.waits.early, h.gathered, h.flight⟩

/-- Nothing is complete yet. -/
lemma isExact_default (epoch : MultichannelAudioEpoch) :
    IsExact epoch MultichannelAudioReceiveOutcome.default where
  groups group hgroup := by cases hgroup
  epoch completed hcompleted := by cases hcompleted

/-- **The shards of a datagram**, of the block or of another one. -/
lemma Tracks.pushShards (hcuts : Cuts A cutOf)
    (hlater : ∀ b ∈ A, (cutOf block).epoch.ptsSamples < (cutOf b).epoch.ptsSamples →
      (cutOf b).epoch.ptsSamples ∈ later) (hpos : 0 < maxInflight) (hblock : block ∈ A)
    (h : Tracks code A cutOf s later block maxInflight maxIgnored started symbols self)
    (hother : other ∈ A) (hown : other = block → started)
    (hlate : started → other.id ∈ s ∧ block.id ∈ s) {shards : List DecodedMultichannelAudioShard}
    {decoder : MultichannelAudioFecDecoder X}
    (hpush : self.decoder.pushDatagram datagram = (.ok shards, decoder))
    (hshards : ∀ shard ∈ shards, other.HasShard shard)
    (hdecoder : decoder.Hears code.toSound A) {given' : Set UInt16}
    (hgiven : ∀ i ∈ given', i ∈ self.decoder.deliveredOf block.id ∨
      other = block ∧ i ∈ shards.map (·.index)) :
    Progress code.toSound A cutOf s later block maxInflight maxIgnored started given'
        (self.pushDatagram datagram).2 ∧
      (self.pushDatagram datagram).2.decoder = decoder ∧
      (Buffered (cutOf block).epoch.ptsSamples self →
        Buffered (cutOf block).epoch.ptsSamples (self.pushDatagram datagram).2) := by
  have hstart : Progress code.toSound A cutOf s later block maxInflight maxIgnored started
      (self.decoder.deliveredOf block.id : Set UInt16) (self.receives decoder) :=
    ⟨⟨hdecoder, h.inflight, h.playout⟩, h.room, h.state.imp_right fun hcollects =>
      hcollects.gathers.receives decoder⟩
  rw [pushDatagram_of_shards hpush]
  exact hstart.pushShards hcuts hlater hpos hblock hother hshards hown hlate hgiven
    (isExact_default _)

/-- **A datagram of another block** takes nothing away. -/
theorem Tracks.push_other (hcuts : Cuts A cutOf)
    (hlater : ∀ b ∈ A, (cutOf block).epoch.ptsSamples < (cutOf b).epoch.ptsSamples →
      (cutOf b).epoch.ptsSamples ∈ later) (hpos : 0 < maxInflight) (hblock : block ∈ A)
    (h : Tracks code A cutOf s later block maxInflight maxIgnored started symbols self)
    (hother : other ∈ A) (hne : other ≠ block)
    (hcarries : Carries code.toSystematic other.toSourceBlock sequence esi datagram)
    (hnear : Retained other.id block.id) (hlate : started → other.id ∈ s ∧ block.id ∈ s) :
    Tracks code A cutOf s later block maxInflight maxIgnored started symbols
      (self.pushDatagram datagram).2 := by
  have hid : other.id ≠ block.id := fun heq => hne (A.inj other hother block hblock heq)
  obtain ⟨shards, decoder, hpush, hshards, hdecoder⟩ := h.decoder.push hother hcarries
  obtain ⟨hprogress, hnext, hbuffered⟩ := h.pushShards hcuts hlater hpos hblock hother
    (fun heq => absurd heq hne) hlate hpush hshards hdecoder
    (fun i (hi : i ∈ (self.decoder.deliveredOf block.id : Set UInt16)) => Or.inl hi)
  refine ⟨hprogress.toExact, hprogress.room, ?_⟩
  rcases h.state with hheld | hcollects
  · exact Or.inl (hbuffered hheld)
  · obtain ⟨hfollows, hin, hdelivered⟩ := hcollects.follows.push_other hother hcarries hid hnear
      fun hflight => hlate (hcollects.flight hflight)
    rw [hpush] at hfollows hin hdelivered
    refine hprogress.state.imp_right fun hgathers => ⟨?_, hnext ▸ hfollows, ?_⟩
    · rw [hnext, hdelivered]
      exact hgathers
    · rw [hnext]
      exact fun hflight => hcollects.flight (hin hflight)

/-- **A datagram of the block** adds its symbol. -/
theorem Tracks.push_own (hcuts : Cuts A cutOf)
    (hlater : ∀ b ∈ A, (cutOf block).epoch.ptsSamples < (cutOf b).epoch.ptsSamples →
      (cutOf b).epoch.ptsSamples ∈ later) (hpos : 0 < maxInflight) (hblock : block ∈ A)
    (h : Tracks code A cutOf s later block maxInflight maxIgnored started symbols self)
    (hstarted : started) (hin : block.id ∈ s)
    (hcarries : Carries code.toSystematic block.toSourceBlock sequence esi datagram) :
    Tracks code A cutOf s later block maxInflight maxIgnored started (insert esi symbols)
      (self.pushDatagram datagram).2 := by
  obtain ⟨shards, decoder, hpush, hshards, hdecoder⟩ := h.decoder.push hblock hcarries
  rcases h.state with hheld | hcollects
  · obtain ⟨hprogress, hnext, hbuffered⟩ := h.pushShards hcuts hlater hpos hblock hblock
      (fun _ => hstarted) (fun _ => ⟨hin, hin⟩) hpush hshards hdecoder
      (fun i (hi : i ∈ (self.decoder.deliveredOf block.id : Set UInt16)) => Or.inl hi)
    exact ⟨hprogress.toExact, hprogress.room, Or.inl (hbuffered hheld)⟩
  obtain ⟨output, next, hpush', hcases⟩ := hcollects.follows.push_own hblock hin hcarries
  rw [hpush] at hpush'
  obtain ⟨houtput, rfl⟩ := Prod.mk.inj hpush'
  obtain rfl := Except.ok.inj houtput
  rcases hcases with ⟨hfollows, hdelivered⟩ | hall
  · obtain ⟨hprogress, hnext, -⟩ := h.pushShards hcuts hlater hpos hblock hblock
      (fun _ => hstarted) (fun _ => ⟨hin, hin⟩) hpush hshards hdecoder
      (fun i (hi : i ∈ (decoder.deliveredOf block.id : Set UInt16)) =>
        (hdelivered i hi).imp_right fun hnew => ⟨rfl, hnew⟩)
    refine ⟨hprogress.toExact, hprogress.room, hprogress.state.imp_right fun hgathers => ?_⟩
    refine ⟨?_, hnext ▸ hfollows, fun _ => hstarted⟩
    rw [hnext]
    exact hgathers
  · -- every fragment was delivered, so that nothing is missing
    obtain ⟨hprogress, -, -⟩ := h.pushShards hcuts hlater hpos hblock hblock
      (fun _ => hstarted) (fun _ => ⟨hin, hin⟩) hpush hshards hdecoder
      (fun i (hi : i ∈ {i | i ∈ self.decoder.deliveredOf block.id ∨
          i ∈ shards.map DecodedMultichannelAudioShard.index}) =>
        hi.imp_right fun hnew => ⟨rfl, hnew⟩)
    refine ⟨hprogress.toExact, hprogress.room, hprogress.state.imp_right fun hgathers => ?_⟩
    obtain ⟨config, fits⟩ := hcuts.fits block hblock
    have hcount := hcuts.count block hblock
    obtain ⟨i, hi, hmissing⟩ := hgathers.gathered.exists_missing fits
      (hprogress.toExact.assembles hblock) (hcount ▸ block.sourceSymbols_pos)
    exact absurd (hall i (hcount ▸ hi)) hmissing

/-! ## Reads and expiries -/

/-- An epoch is not among those that are given up by their time, when its time is not. -/
lemma Exact.notMem_inflightBlocks (h : Exact code.toSound A cutOf self) (hblock : block ∈ A)
    (order : HashMap.Iteration UInt32 EpochAssembly) (select : UInt64 → Bool)
    (hselect : select (cutOf block).epoch.ptsSamples = false) :
    ∀ id ∈ self.inflightBlocks order (fun epoch => select epoch.ptsSamples), id ≠ block.id := by
  rintro id hid rfl
  have hselected := (List.mem_filter.mp hid).2
  cases hlookup : self.inflight.lookup block.id with
  | none =>
      rw [hlookup] at hselected
      cases hselected
  | some assembly =>
      rw [hlookup, Option.any_some, (h.assembles hblock assembly hlookup).ptsSamples, hselect]
        at hselected
      cases hselected

lemma uncounted_takeForPlayout (self : MultichannelAudioReceiver X)
    (order : HashMap.Iteration UInt32 EpochAssembly) (ptsSamples : UInt64) :
    (self.takeForPlayout order ptsSamples).2.uncounted
      = ({ self.abandonInflightThrough order ptsSamples with
          playout := (self.playout.takeForPlayout ptsSamples).2 } :
          MultichannelAudioReceiver X).uncounted := by
  have hplayout := (sheds_abandonInflightThrough self order ptsSamples).playout
  rw [takeForPlayout]
  simp only [hplayout]
  cases self.playout.takeForPlayout ptsSamples with
  | mk read playout => cases read <;> rfl

/-- What was collected stays when other epochs are given up, and the cursor stays before the
epoch. -/
lemma Collects.turns {next : MultichannelAudioReceiver X}
    (h : Collects code A cutOf s block maxInflight maxIgnored started symbols self)
    (hdecoder : next.decoder = self.decoder)
    (hwaits : next.Waits s block.id (cutOf block).epoch.ptsSamples maxInflight maxIgnored)
    (hlookup : next.inflight.lookup block.id = self.inflight.lookup block.id) :
    Collects code A cutOf s block maxInflight maxIgnored started symbols next := by
  refine ⟨⟨hwaits, ?_, fun hin => h.gathers.flight ?_⟩, hdecoder ▸ h.follows, hdecoder ▸ h.flight⟩
  · rw [hlookup, hdecoder]
    exact h.gathers.gathered
  · obtain ⟨assembly, hentry⟩ := Finmap.mem_iff.mp hin
    exact Finmap.mem_iff.mpr ⟨assembly, hlookup ▸ hentry⟩

/-- **A read of an earlier time** leaves the epoch where it is. -/
theorem Tracks.take (hblock : block ∈ A)
    (h : Tracks code A cutOf s later block maxInflight maxIgnored started symbols self)
    (order : HashMap.Iteration UInt32 EpochAssembly) {ptsSamples : UInt64}
    (hlt : ptsSamples < (cutOf block).epoch.ptsSamples) :
    Tracks code A cutOf s later block maxInflight maxIgnored started symbols
      (self.takeForPlayout order ptsSamples).2 := by
  have hturns := (self.takeForPlayout_spec order ptsSamples).2
  obtain ⟨hcursor, hmax⟩ := ExactMultichannelAudioPlayoutBuffer.lastPlayedPts_takeForPlayout
    self.playout ptsSamples
  refine ⟨(h.toExact.take order ptsSamples).2, ?_, ?_⟩
  · rw [hturns.playout, hmax]
    exact h.room
  rcases h.state with ⟨held, hheld⟩ | hcollects
  · refine Or.inl ⟨held, ?_⟩
    rw [hturns.playout]
    exact ExactMultichannelAudioPlayoutBuffer.mem_takeForPlayout hheld hlt
  · refine Or.inr ?_
    obtain ⟨hgiven, hlookup⟩ := hcollects.gathers.waits.dropAll
      (fun self other => (rfl : (self.dropInflight other).countDropped.uncounted = _))
      (h.toExact.notMem_inflightBlocks hblock order (fun pts => pts ≤ ptsSamples)
        (decide_eq_false (UInt64.not_le.mpr hlt)))
    have hearly : (self.playout.takeForPlayout ptsSamples).2.isLate (cutOf block).epoch.ptsSamples
        = false := by
      rw [ExactMultichannelAudioPlayoutBuffer.isLate, hcursor, Option.any_some]
      exact decide_eq_false (UInt64.not_le.mpr hlt)
    have hplayed : Waits s block.id (cutOf block).epoch.ptsSamples maxInflight maxIgnored
        { self.abandonInflightThrough order ptsSamples with
          playout := (self.playout.takeForPlayout ptsSamples).2 } := hgiven.of_eq rfl hearly
    obtain ⟨hwaits, hinflight⟩ := hplayed.congr (uncounted_takeForPlayout self order ptsSamples)
    refine hcollects.turns hturns.decoder hwaits ?_
    rw [hinflight]
    exact hlookup

/-- **An expiry up to the epoch** leaves it where it is. -/
theorem Tracks.expire (hblock : block ∈ A)
    (h : Tracks code A cutOf s later block maxInflight maxIgnored started symbols self)
    (order : HashMap.Iteration UInt32 EpochAssembly) {ptsSamples : UInt64}
    (hle : ptsSamples ≤ (cutOf block).epoch.ptsSamples) :
    Tracks code A cutOf s later block maxInflight maxIgnored started symbols
      (self.expireBefore order ptsSamples).2 := by
  have hturns := (self.expireBefore_spec order ptsSamples).2
  refine ⟨h.toExact.expire order ptsSamples, ?_, ?_⟩
  · rw [hturns.playout]
    exact h.room
  rcases h.state with ⟨held, hheld⟩ | hcollects
  · refine Or.inl ⟨held, ?_⟩
    rw [hturns.playout]
    exact ExactMultichannelAudioPlayoutBuffer.mem_expireBefore hheld hle
  · refine Or.inr ?_
    have hstart : Waits s block.id (cutOf block).epoch.ptsSamples maxInflight maxIgnored
        { self with playout := (self.playout.expireBefore ptsSamples).2 } :=
      hcollects.gathers.waits.of_eq rfl hcollects.gathers.waits.early
    obtain ⟨hgiven, hlookup⟩ := hstart.dropAll (fun self other => rfl)
      (h.toExact.notMem_inflightBlocks hblock order (fun pts => pts < ptsSamples)
        (decide_eq_false (UInt64.not_lt.mpr hle)))
    exact hcollects.turns hturns.decoder (hgiven.of_eq rfl hgiven.early) hlookup

/-! ## Runs -/

lemma tracks_new (code : X.Ideal) (A : AudioBlockSet) (cutOf : AudioBlock → EpochCut)
    (block : AudioBlock) (config : MultichannelAudioSessionConfig)
    (hinflight : s.card ≤ max config.maxInflightEpochs 1)
    (hblocks : s.card ≤ MultichannelAudioFecDecoder.defaultInFlightAudioBlocks)
    (hroom : later.card < max config.maxBufferedEpochs 1) :
    Tracks code A cutOf s later block (max config.maxInflightEpochs 1)
      (max (satMulUsize (max config.maxInflightEpochs 1) 4) 64) False ∅
      (new config : MultichannelAudioReceiver X) where
  __ := exact_new code.toSound A cutOf config
  room := Nat.lt_of_lt_of_le hroom (Nat.le_max_left _ _)
  state := by
    have hnone : ¬ block.id ∈ (new config : MultichannelAudioReceiver X).inflight :=
      Finmap.notMem_empty
    refine Or.inr ⟨⟨⟨bounded_new config, hinflight, Finset.notMem_empty _, rfl,
      fun hin => absurd hin hnone⟩, ⟨fun i hi hin => ?_, fun assembly hentry => ?_⟩,
      fun hin => hnone hin⟩, MultichannelAudioFecDecoder.follows_new code A hblocks block,
      fun hin => Finset.notMem_empty _ hin⟩
    · rw [new, MultichannelAudioFecDecoder.deliveredOf, MultichannelAudioFecDecoder.new,
        Finmap.lookup_empty] at hin
      exact absurd hin (Finset.notMem_empty _)
    · rw [Finmap.lookup_eq_none.mpr hnone] at hentry
      cases hentry

/-- An epoch that is determined lies in the playout buffer. -/
lemma Tracks.buffered
    (h : Tracks code A cutOf s later block maxInflight maxIgnored started symbols self)
    (hsymbols : symbols.Nonempty)
    (hdecodable : code.Decodable block.object.length block.symbolSize symbols) :
    Buffered (cutOf block).epoch.ptsSamples self :=
  h.state.resolve_right fun hcollects => hcollects.follows.undecodable hsymbols hdecodable

lemma Tracks.imp {started' : Prop}
    (h : Tracks code A cutOf s later block maxInflight maxIgnored started symbols self)
    (himp : started → started') :
    Tracks code A cutOf s later block maxInflight maxIgnored started' symbols self :=
  ⟨h.toExact, h.room, h.state.imp_right fun hcollects =>
    ⟨⟨hcollects.gathers.waits, hcollects.gathers.gathered, fun hin =>
      himp (hcollects.gathers.flight hin)⟩, hcollects.follows, fun hin =>
      himp (hcollects.flight hin)⟩⟩

end Tracks

end MultichannelAudioReceiver

namespace ReceiverOp

/-- The datagram that the call pushes. -/
def pushed : ReceiverOp → Option Bytes
  | .push datagram => some datagram
  | _ => none

/-- The call plays an earlier time, or expires what is before the time. -/
def Before (ptsSamples : UInt64) : ReceiverOp → Prop
  | .push _ => True
  | .take _ earlier => earlier < ptsSamples
  | .expire _ earlier => earlier ≤ ptsSamples

instance (ptsSamples : UInt64) : DecidablePred (Before ptsSamples)
  | .push _ => .isTrue trivial
  | .take _ earlier => inferInstanceAs (Decidable (earlier < ptsSamples))
  | .expire _ earlier => inferInstanceAs (Decidable (earlier ≤ ptsSamples))

end ReceiverOp

namespace MultichannelAudioReceiver

variable {X : Crates}

/-- **The run lemma**: along calls that come before the time of the epoch, and push datagrams of
blocks that leave it alone, the symbols that arrived are known. -/
theorem Tracks.run {code : X.Ideal} {A : AudioBlockSet} {cutOf : AudioBlock → EpochCut}
    {s : Finset UInt32} {later : Finset UInt64} {block : AudioBlock} {maxInflight maxIgnored : ℕ}
    {started : Prop} {self : MultichannelAudioReceiver X} {past : List Bytes} (hcuts : Cuts A cutOf)
    (hlater : ∀ b ∈ A, (cutOf block).epoch.ptsSamples < (cutOf b).epoch.ptsSamples →
      (cutOf b).epoch.ptsSamples ∈ later) (hpos : 0 < maxInflight) (hblock : block ∈ A)
    (h : Tracks code A cutOf s later block maxInflight maxIgnored started
      (survivingSymbols X past block.id) self) {calls : List ReceiverOp}
    (hcalls : ∀ call ∈ calls, call.Before (cutOf block).epoch.ptsSamples)
    (hpushed : ∀ datagram ∈ calls.filterMap ReceiverOp.pushed, ∃ other ∈ A,
      (∃ sequence esi, Carries code.toSystematic other.toSourceBlock sequence esi datagram) ∧
        Retained other.id block.id ∧ (other = block → started) ∧
        (started → other.id ∈ s ∧ block.id ∈ s)) :
    Tracks code A cutOf s later block maxInflight maxIgnored started
      (survivingSymbols X (past ++ calls.filterMap ReceiverOp.pushed) block.id)
      (runState step self calls) := by
  refine run_invariant (fun done receiver =>
      Tracks code A cutOf s later block maxInflight maxIgnored started
        (survivingSymbols X (past ++ done.filterMap ReceiverOp.pushed) block.id) receiver)
    (fun _ _ call => call ∈ calls) (by simpa using h) ?_
    (fun done call hdone => hdone.subset (by simp))
  intro done receiver call htracks hmem
  rw [List.filterMap_append, ← List.append_assoc]
  have hbefore := hcalls call hmem
  cases call with
  | take order ptsSamples =>
      rw [List.filterMap_cons_none rfl, List.filterMap_nil, List.append_nil]
      exact htracks.take hblock order hbefore
  | expire order ptsSamples =>
      rw [List.filterMap_cons_none rfl, List.filterMap_nil, List.append_nil]
      exact htracks.expire hblock order hbefore
  | push datagram =>
      obtain ⟨other, hother, ⟨sequence, esi, hcarries⟩, hnear, hown, hlate⟩ :=
        hpushed datagram (List.mem_filterMap.mpr ⟨_, hmem, rfl⟩)
      have hone : [ReceiverOp.push datagram].filterMap ReceiverOp.pushed = [datagram] := rfl
      rw [hone]
      by_cases hsame : other = block
      · subst hsame
        rw [survivingSymbols_snoc hcarries]
        exact htracks.push_own hcuts hlater hpos hblock (hown rfl) (hlate (hown rfl)).2 hcarries
      · have hid : other.id ≠ block.id := fun heq => hsame (A.inj other hother block hblock heq)
        rw [survivingSymbols_snoc_of_ne hcarries hid]
        exact htracks.push_other hcuts hlater hpos hblock hother hsame hcarries hnear hlate

end MultichannelAudioReceiver

/-! ## The epochs of a sender -/

namespace SentEpoch

/-- A datagram of the epoch is pushed by some calls. -/
def PushedIn (sent : SentEpoch) (calls : List ReceiverOp) : Prop :=
  ∃ packet ∈ sent.datagrams, packet.payload ∈ calls.filterMap ReceiverOp.pushed

instance (sent : SentEpoch) (calls : List ReceiverOp) : Decidable (sent.PushedIn calls) :=
  inferInstanceAs (Decidable (∃ packet ∈ sent.datagrams,
    packet.payload ∈ calls.filterMap ReceiverOp.pushed))

/-- Symbols of the epoch are among the datagrams, and they determine it. -/
def DeterminedBy {X : Crates} (code : X.Ideal) (sent : SentEpoch) (datagrams : List Bytes) : Prop :=
  (survivingSymbols X datagrams sent.blockId).Nonempty ∧
    code.Decodable (sent.encoded.sourceSymbols.toNat * sent.encoded.symbolSize.toNat)
      sent.encoded.symbolSize (survivingSymbols X datagrams sent.blockId)

/-- Nothing keeps a receiver from playing the epoch.  Its datagrams arrive during some calls, and
`before` is what was called earlier.  All datagrams are those of epochs of the sender, whose blocks
retain the block of the epoch; no more epochs arrive during these calls than may be in flight, and
no more later ones at all than the buffer has room for beside this one; no other epoch has its time;
and no call reads its time, or expires it. -/
structure InTime (config : MultichannelAudioSessionConfig) (epochs : List SentEpoch)
    (sent : SentEpoch) (before during : List ReceiverOp) : Prop where
  honest : ∀ datagram ∈ (before ++ during).filterMap ReceiverOp.pushed,
    ∃ other ∈ epochs, ∃ packet ∈ other.datagrams, packet.payload = datagram
  first : ¬ sent.PushedIn before
  near : ∀ other ∈ epochs, other.PushedIn (before ++ during) → Retained other.blockId sent.blockId
  few : epochs.countP (fun other => other.PushedIn during)
    ≤ min (max config.maxInflightEpochs 1) MultichannelAudioFecDecoder.defaultInFlightAudioBlocks
  room : epochs.countP (fun other => other.PushedIn (before ++ during) ∧
    sent.epoch.ptsSamples < other.epoch.ptsSamples) < max config.maxBufferedEpochs 1
  alone : ∀ other ∈ epochs, other.PushedIn (before ++ during) →
    other.epoch.ptsSamples = sent.epoch.ptsSamples → other.blockId = sent.blockId
  early : ∀ call ∈ before ++ during, call.Before sent.epoch.ptsSamples

instance (config : MultichannelAudioSessionConfig) (epochs : List SentEpoch) (sent : SentEpoch)
    (before during : List ReceiverOp) : Decidable (sent.InTime config epochs before during) :=
  decidable_of_iff
    ((∀ datagram ∈ (before ++ during).filterMap ReceiverOp.pushed,
        ∃ other ∈ epochs, ∃ packet ∈ other.datagrams, packet.payload = datagram) ∧
      ¬ sent.PushedIn before ∧
      (∀ other ∈ epochs, other.PushedIn (before ++ during) →
        Retained other.blockId sent.blockId) ∧
      (epochs.countP (fun other => other.PushedIn during) ≤ min (max config.maxInflightEpochs 1)
        MultichannelAudioFecDecoder.defaultInFlightAudioBlocks) ∧
      (epochs.countP (fun other => other.PushedIn (before ++ during) ∧
        sent.epoch.ptsSamples < other.epoch.ptsSamples) < max config.maxBufferedEpochs 1) ∧
      (∀ other ∈ epochs, other.PushedIn (before ++ during) →
        other.epoch.ptsSamples = sent.epoch.ptsSamples → other.blockId = sent.blockId) ∧
      ∀ call ∈ before ++ during, call.Before sent.epoch.ptsSamples)
    ⟨fun ⟨honest, first, near, few, room, alone, early⟩ =>
      ⟨honest, first, near, few, room, alone, early⟩,
      fun h => ⟨h.honest, h.first, h.near, h.few, h.room, h.alone, h.early⟩⟩

end SentEpoch

/-- The blocks that satisfy a condition. -/
def AudioBlockSet.sep (A : AudioBlockSet) (p : AudioBlock → Prop) : AudioBlockSet where
  blocks := {block | block ∈ A ∧ p block}
  inj b hb b' hb' hid := A.inj b hb.1 b' hb'.1 hid

lemma Cuts.sep {A : AudioBlockSet} {cutOf : AudioBlock → EpochCut} (h : Cuts A cutOf)
    (p : AudioBlock → Prop) : Cuts (A.sep p) cutOf :=
  ⟨fun block hblock => h.fits block hblock.1, fun block hblock => h.count block hblock.1,
    fun block hblock => h.header block hblock.1, fun block hblock => h.payload block hblock.1⟩

/-- The blocks of the epochs of which some calls push a datagram, with the block of one epoch. -/
structure Involves {X : Crates} (code : X.Systematic) (epochs : List SentEpoch) (sent : SentEpoch)
    (calls : List ReceiverOp) (A : AudioBlockSet) (cutOf : AudioBlock → EpochCut)
    (block : AudioBlock) : Prop extends Cuts A cutOf where
  mem : block ∈ A
  id_eq : block.id = sent.blockId
  epoch_eq : (cutOf block).epoch = sent.epoch
  length_eq : block.object.length
    = sent.encoded.sourceSymbols.toNat * sent.encoded.symbolSize.toNat
  symbolSize_eq : block.symbolSize = sent.encoded.symbolSize
  others : ∀ b ∈ A, b = block ∨
    ∃ other ∈ epochs, other.PushedIn calls ∧ (cutOf b).epoch = other.epoch
  carries : ∀ other ∈ epochs, ∀ packet ∈ other.datagrams,
    packet.payload ∈ calls.filterMap ReceiverOp.pushed → ∃ b ∈ A, b.id = other.blockId ∧
      ∃ sequence esi, Carries code b.toSourceBlock sequence esi packet.payload

/-- The epochs of a sender are cut into such blocks. -/
theorem MultichannelAudioSender.encodeAll_involves {X : Crates} (code : X.Systematic)
    {ops : List AudioEncoderOp} {self : MultichannelAudioSender}
    {result : List SentEpoch × MultichannelAudioSender} (h : encodeAll X ops self = some result)
    (hids : (result.1.map SentEpoch.blockId).Nodup) {sent : SentEpoch} (hsent : sent ∈ result.1)
    (calls : List ReceiverOp) :
    ∃ A cutOf block, Involves code result.1 sent calls A cutOf block := by
  obtain ⟨A, cutOf, hcuts, hsentAs, -⟩ := encodeAll_cuts code h hids
  obtain ⟨T, hT, hin, hepoch⟩ := hsentAs sent hsent
  obtain ⟨encoder, encoder', hencoded⟩ := hT
  let involved := fun b => b = T.block ∨
    ∃ other ∈ result.1, other.PushedIn calls ∧ (cutOf b).epoch = other.epoch
  refine ⟨A.sep involved, cutOf, T.block, hcuts.sep involved, ⟨hin, Or.inl rfl⟩,
    hencoded.blockId_eq.symm, hepoch, ?_, hencoded.symbolSize_eq.symm, fun b hb => hb.2, ?_⟩
  · rw [hencoded.sourceSymbols_eq, hencoded.symbolSize_eq]
    exact T.block.length_object
  · intro other hmem packet hpacket hpushed
    obtain ⟨T', hT', hin', hepoch'⟩ := hsentAs other hmem
    obtain ⟨sequence, esi, -, hcarry⟩ := hT'.carries hpacket
    exact ⟨T'.block, ⟨hin', Or.inr ⟨other, hmem, ⟨packet, hpacket, hpushed⟩, hepoch'⟩⟩,
      hT'.blockId_eq.symm, sequence, esi, hcarry⟩

/-- What the epochs that satisfy a condition have is not more than these epochs. -/
lemma card_le_countP {β : Type} [DecidableEq β] (epochs : List SentEpoch) (p : SentEpoch → Bool)
    (f : SentEpoch → β) : ((epochs.filter p).map f).toFinset.card ≤ epochs.countP p := by
  refine (List.toFinset_card_le _).trans (Nat.le_of_eq ?_)
  rw [List.length_map, List.countP_eq_length_filter]

lemma mem_of_countP {β : Type} [DecidableEq β] {epochs : List SentEpoch} {p : SentEpoch → Prop}
    [DecidablePred p] (f : SentEpoch → β) {other : SentEpoch} (hmem : other ∈ epochs)
    (hother : p other) : f other ∈ ((epochs.filter fun other => p other).map f).toFinset :=
  List.mem_toFinset.mpr
    (List.mem_map_of_mem (List.mem_filter.mpr ⟨hmem, decide_eq_true hother⟩))

namespace MultichannelAudioReceiver

variable {X : Crates}

section Played

variable {code : X.Ideal} {epochs : List SentEpoch} {sent : SentEpoch}
  {before during : List ReceiverOp} {A : AudioBlockSet} {cutOf : AudioBlock → EpochCut}
  {block : AudioBlock} {config : MultichannelAudioSessionConfig}

/-- An epoch of which symbols arrived was pushed. -/
lemma pushedIn_of_nonempty
    (hblocks : Involves code.toSystematic epochs sent (before ++ during) A cutOf block)
    (hids : (epochs.map SentEpoch.blockId).Nodup) (hsent : sent ∈ epochs)
    (htime : sent.InTime config epochs before during)
    (hsymbols : (survivingSymbols X ((before ++ during).filterMap ReceiverOp.pushed)
      sent.blockId).Nonempty) : sent.PushedIn during := by
  obtain ⟨e, he⟩ := hsymbols
  obtain ⟨datagram, hdatagram, hwire⟩ := mem_survivingSymbols_iff.mp he
  obtain ⟨other, hmem, packet, hpacket, rfl⟩ := htime.honest datagram hdatagram
  obtain ⟨b, -, hid, sequence, esi, hcarry⟩ := hblocks.carries other hmem packet hpacket hdatagram
  rw [wireSymbol_of_carries hcarry] at hwire
  have heq : other.blockId = sent.blockId :=
    hid.symm.trans (Prod.mk.inj (Option.some.inj hwire)).1
  obtain rfl := List.inj_on_of_nodup_map hids hmem hsent heq
  rw [List.filterMap_append] at hdatagram
  rcases List.mem_append.mp hdatagram with hearlier | hlater
  · exact absurd ⟨packet, hpacket, hearlier⟩ htime.first
  · exact ⟨packet, hpacket, hlater⟩

/-- **An epoch that is determined in time lies in the playout buffer.** -/
theorem buffered_of_inTime
    (hblocks : Involves code.toSystematic epochs sent (before ++ during) A cutOf block)
    (hids : (epochs.map SentEpoch.blockId).Nodup) (hsent : sent ∈ epochs)
    (htime : sent.InTime config epochs before during)
    (hdetermined : sent.DeterminedBy code ((before ++ during).filterMap ReceiverOp.pushed)) :
    Buffered sent.epoch.ptsSamples
        (runState step (new config : MultichannelAudioReceiver X) (before ++ during)) ∧
      Exact code.toSound A cutOf
        (runState step (new config : MultichannelAudioReceiver X) (before ++ during)) := by
  obtain ⟨hsymbols, hdecodable⟩ := hdetermined
  have hstarted := pushedIn_of_nonempty hblocks hids hsent htime hsymbols
  -- the blocks that come while the epoch is in flight, and the times after it
  obtain ⟨s, hcard, hs⟩ : ∃ s : Finset UInt32,
      s.card ≤ min (max config.maxInflightEpochs 1)
        MultichannelAudioFecDecoder.defaultInFlightAudioBlocks ∧
      ∀ other ∈ epochs, other.PushedIn during → other.blockId ∈ s :=
    ⟨_, (card_le_countP _ _ _).trans htime.few, fun other hmem hpushed =>
      mem_of_countP SentEpoch.blockId hmem hpushed⟩
  obtain ⟨later, hroom, hlater⟩ : ∃ later : Finset UInt64,
      later.card < max config.maxBufferedEpochs 1 ∧ ∀ other ∈ epochs,
        other.PushedIn (before ++ during) ∧ sent.epoch.ptsSamples < other.epoch.ptsSamples →
        other.epoch.ptsSamples ∈ later :=
    ⟨_, Nat.lt_of_le_of_lt (card_le_countP _ _ _) htime.room, fun other hmem hother =>
      mem_of_countP (fun other => other.epoch.ptsSamples) hmem hother⟩
  have htimes : ∀ b ∈ A, (cutOf block).epoch.ptsSamples < (cutOf b).epoch.ptsSamples →
      (cutOf b).epoch.ptsSamples ∈ later := by
    rw [hblocks.epoch_eq]
    intro b hb hlt
    rcases hblocks.others b hb with rfl | ⟨other, hmem, hpushed, heq⟩
    · rw [hblocks.epoch_eq] at hlt
      exact absurd hlt (UInt64.lt_irrefl _)
    · rw [heq] at hlt ⊢
      exact hlater other hmem ⟨hpushed, hlt⟩
  have hpos : 0 < max config.maxInflightEpochs 1 :=
    Nat.lt_of_lt_of_le Nat.one_pos (Nat.le_max_right _ _)
  have hcalls := htime.early
  rw [← hblocks.epoch_eq] at hcalls
  have hnear : ∀ other ∈ epochs, other.PushedIn (before ++ during) →
      ∀ b ∈ A, b.id = other.blockId → Retained b.id block.id := by
    intro other hmem hpushed b _ hid
    rw [hid, hblocks.id_eq]
    exact htime.near other hmem hpushed
  -- the calls before the epoch is started
  have hfirst : Tracks code A cutOf s later block (max config.maxInflightEpochs 1)
      (max (satMulUsize (max config.maxInflightEpochs 1) 4) 64) False
      (survivingSymbols X ([] ++ before.filterMap ReceiverOp.pushed) block.id)
      (runState step (new config) before) := by
    refine (tracks_new code A cutOf block config (hcard.trans (Nat.min_le_left _ _))
      (hcard.trans (Nat.min_le_right _ _)) hroom).run hblocks.toCuts htimes hpos hblocks.mem
      (fun call hcall => hcalls call (List.mem_append_left _ hcall)) fun datagram hdatagram => ?_
    have hall : datagram ∈ (before ++ during).filterMap ReceiverOp.pushed := by
      rw [List.filterMap_append]
      exact List.mem_append_left _ hdatagram
    obtain ⟨other, hmem, packet, hpacket, rfl⟩ := htime.honest datagram hall
    obtain ⟨b, hb, hid, hcarries⟩ := hblocks.carries other hmem packet hpacket hall
    refine ⟨b, hb, hcarries, hnear other hmem ⟨packet, hpacket, hall⟩ b hb hid, ?_, False.elim⟩
    rintro rfl
    obtain rfl := List.inj_on_of_nodup_map hids hmem hsent (hid.symm.trans hblocks.id_eq)
    exact htime.first ⟨packet, hpacket, hdatagram⟩
  -- and those after
  have htracks := (hfirst.imp (fun hfalse => (hfalse.elim : True))).run hblocks.toCuts htimes hpos
    hblocks.mem (fun call hcall => hcalls call (List.mem_append_right before hcall))
    (fun datagram hdatagram => by
      have hall : datagram ∈ (before ++ during).filterMap ReceiverOp.pushed := by
        rw [List.filterMap_append]
        exact List.mem_append_right _ hdatagram
      obtain ⟨other, hmem, packet, hpacket, rfl⟩ := htime.honest datagram hall
      obtain ⟨b, hb, hid, hcarries⟩ := hblocks.carries other hmem packet hpacket hall
      refine ⟨b, hb, hcarries, hnear other hmem ⟨packet, hpacket, hall⟩ b hb hid,
        fun _ => trivial, fun _ => ⟨?_, ?_⟩⟩
      · rw [hid]
        exact hs other hmem ⟨packet, hpacket, hdatagram⟩
      · rw [hblocks.id_eq]
        exact hs sent hsent hstarted)
  rw [List.nil_append, ← List.filterMap_append, ← runState_append, hblocks.id_eq] at htracks
  rw [← hblocks.length_eq, ← hblocks.symbolSize_eq] at hdecodable
  have hbuffered := htracks.buffered hsymbols hdecodable
  rw [hblocks.epoch_eq] at hbuffered
  exact ⟨hbuffered, htracks.toExact⟩

end Played

/-- **A complete epoch is played.**  A sender encodes epochs under distinct block ids.  A receiver
pushes datagrams of these epochs, some of them, in any order and any number of times, and plays and
expires in between.  When the datagrams that arrive determine an epoch, and nothing keeps the
receiver from it, then reading its time returns that epoch, exactly. -/
theorem complete_epoch_played (code : X.Ideal) (config : MultichannelAudioSessionConfig)
    {ops : List AudioEncoderOp} {sender : MultichannelAudioSender}
    {result : List SentEpoch × MultichannelAudioSender}
    (hencode : sender.encodeAll X ops = some result)
    (hids : (result.1.map SentEpoch.blockId).Nodup) {sent : SentEpoch} (hsent : sent ∈ result.1)
    {before during : List ReceiverOp} (htime : sent.InTime config result.1 before during)
    (hdetermined : sent.DeterminedBy code ((before ++ during).filterMap ReceiverOp.pushed))
    (order : HashMap.Iteration UInt32 EpochAssembly) :
    ∃ epoch, ((runState step (new config : MultichannelAudioReceiver X)
        (before ++ during)).takeForPlayout order sent.epoch.ptsSamples).1 = .exact epoch ∧
      epoch.plain = sent.epoch.exact := by
  obtain ⟨A, cutOf, block, hblocks⟩ := MultichannelAudioSender.encodeAll_involves code.toSystematic
    hencode hids hsent (before ++ during)
  obtain ⟨⟨held, hheld⟩, hexact⟩ := buffered_of_inTime hblocks hids hsent htime hdetermined
  obtain ⟨played, hplayed⟩ := ExactMultichannelAudioPlayoutBuffer.takeForPlayout_of_mem hheld
  have hread := (takeForPlayout_spec _ order sent.epoch.ptsSamples).1.trans hplayed
  rcases (hexact.take order sent.epoch.ptsSamples).1 with
    hmissing | ⟨epoch, hepoch, hpts, b, hb, hplain⟩
  · rw [hread] at hmissing
    cases hmissing
  · refine ⟨epoch, hepoch, hplain.trans (congrArg MultichannelAudioEpoch.exact ?_)⟩
    have htimes : (cutOf b).epoch.ptsSamples = sent.epoch.ptsSamples :=
      (congrArg DecodedMultichannelAudioEpoch.ptsSamples hplain).symm.trans hpts
    rcases hblocks.others b hb with rfl | ⟨other, hmem, hpushed, heq⟩
    · exact hblocks.epoch_eq
    · rw [heq] at htimes ⊢
      have hsame := htime.alone other hmem hpushed htimes
      exact congrArg SentEpoch.epoch (List.inj_on_of_nodup_map hids hmem hsent hsame)

/-! ### Two epochs -/

open MultichannelAudioFecDecoder (picked mem_picked sampleEpoch)

/-- The epoch after the sample epoch. -/
def laterEpoch : MultichannelAudioEpoch := { sampleEpoch with epochId := 6, ptsSamples := 960 }

/-- Some datagrams are pushed. -/
def pushes (numbers : List ℕ) (sents : List SentEpoch) : List ReceiverOp :=
  (picked numbers sents).map fun packet => .push packet.payload

/-- A datagram of the later epoch, one of the earlier epoch, whose time is read, and another one of
the later epoch. -/
def duringLater (order : HashMap.Iteration UInt32 EpochAssembly) (sents : List SentEpoch) :
    List ReceiverOp :=
  pushes [5, 1] sents ++ [.take order 480, .expire order 960] ++ pushes [4, 4] sents

/-- The later of two epochs is played, with one of its three datagrams lost. -/
theorem complete_epoch_played_two :
    ∃ result, (MultichannelAudioSender.new ⟨⟨118, 0, 1, 256⟩, 2, 2⟩).encodeAll repetition
        [.encode sampleEpoch, .encode laterEpoch] = some result ∧
      ∃ epoch, ((runState step (new ⟨.default, 2, 1⟩ : MultichannelAudioReceiver repetition)
          (pushes [0] result.1 ++ duringLater .ascending result.1)).takeForPlayout .ascending 960).1
          = .exact epoch ∧
        epoch.plain = laterEpoch.exact := by
  have hchecks : ((MultichannelAudioSender.new ⟨⟨118, 0, 1, 256⟩, 2, 2⟩).encodeAll repetition
      [.encode sampleEpoch, .encode laterEpoch]).map (fun result =>
        (decide (result.1.map SentEpoch.blockId).Nodup, result.1.getLast?.any fun sent =>
          let calls := pushes [0] result.1 ++ duringLater .ascending result.1
          let symbols := survivingSymbols repetition (calls.filterMap ReceiverOp.pushed) sent.blockId
          let count := symbolsFor (sent.encoded.sourceSymbols.toNat
            * sent.encoded.symbolSize.toNat) sent.encoded.symbolSize
          decide (sent.epoch = laterEpoch) &&
            decide (sent.InTime ⟨.default, 2, 1⟩ result.1 (pushes [0] result.1)
              (duringLater .ascending result.1)) &&
            decide (symbols.Nonempty) && decide (∀ i < count, ∃ e ∈ symbols, e % count = i)))
        = some (true, true) := by
    decide +kernel
  obtain ⟨result, hrun, hresult⟩ := Option.map_eq_some_iff.mp hchecks
  obtain ⟨hids, hlast⟩ := Prod.mk.inj hresult
  obtain ⟨sent, hsent, hlast⟩ := (Option.any_eq_true _ _).mp hlast
  simp only [Bool.and_eq_true_iff, decide_eq_true_eq] at hlast
  obtain ⟨⟨⟨hepoch, htime⟩, hnonempty⟩, hdecodable⟩ := hlast
  have hplayed := complete_epoch_played repetitionIdeal ⟨.default, 2, 1⟩ hrun (of_decide_eq_true hids)
    (List.mem_of_getLast? hsent) htime ⟨hnonempty, hdecodable⟩ .ascending
  rw [hepoch] at hplayed
  exact ⟨result, hrun, hplayed⟩

end MultichannelAudioReceiver

end RaptorFec
