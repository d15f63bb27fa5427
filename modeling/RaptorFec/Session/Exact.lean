import RaptorFec.Audio.Recovery
import RaptorFec.Session.Honest
import RaptorFec.Session.Steps

/-!
# Exact or missing

What a receiver hands out when its datagrams are those of epochs that one sender encoded under
distinct block ids, and epochs are played and expired in between.

* `Cuts` — the blocks of a set are cut from epochs;
* `Exact` — the receiver holds fragments and groups of these epochs only, each with its block, and
  the playout buffer holds whole epochs; every call keeps this (`Exact.push`, `Exact.take`,
  `Exact.expire`);
* `exact_or_missing` — in every run, what comes out is exact.
-/

namespace RaptorFec

/-! ## The epochs in the blocks -/

/-- An epoch without groups. -/
instance : Inhabited EpochCut := ⟨⟨⟨0, 0, 0, 0, 0, 0, []⟩, ⟨0, 0, 0, 0⟩⟩⟩

/-- Every block of the set is cut from an epoch. -/
structure Cuts (A : AudioBlockSet) (cutOf : AudioBlock → EpochCut) : Prop where
  fits : ∀ block ∈ A, ∃ config, (cutOf block).geometry.Fits config (cutOf block).epoch.groups
  count : ∀ block ∈ A, block.sourceSymbols = (cutOf block).count
  header : ∀ block ∈ A, block.shardHeader = (cutOf block).headerAt
  payload : ∀ block ∈ A, block.shardPayload = (cutOf block).payloadAt

/-- The epochs of a sender, sent under distinct block ids, are cut into blocks. -/
theorem MultichannelAudioSender.encodeAll_cuts {X : Crates} (code : X.Systematic)
    {ops : List AudioEncoderOp} {self : MultichannelAudioSender}
    {result : List SentEpoch × MultichannelAudioSender} (h : encodeAll X ops self = some result)
    (hids : (result.1.map SentEpoch.blockId).Nodup) :
    ∃ A cutOf, Cuts A cutOf ∧
      (∀ sent ∈ result.1, ∃ T : AudioTransmission, sent.IsSentAs code T ∧ T.block ∈ A ∧
        (cutOf T.block).epoch = sent.epoch) ∧
      ∀ block ∈ A, ∃ sent ∈ result.1, (cutOf block).epoch = sent.epoch := by
  obtain ⟨A, hsent, hblocks⟩ :=
    MultichannelAudioFecEncoder.encodeAll_blocks code (encodeAll_encoder h) hids
  -- the cut of every block, by the epoch it was sent for
  have hcut : ∀ block, ∃ cut : EpochCut, block ∈ A →
      (∃ config, cut.geometry.Fits config cut.epoch.groups) ∧
      block.sourceSymbols = cut.count ∧ block.shardHeader = cut.headerAt ∧
      block.shardPayload = cut.payloadAt ∧
      ∃ sent ∈ result.1, cut.epoch = sent.epoch ∧ sent.blockId = block.id := by
    intro block
    by_cases hblock : block ∈ A
    · obtain ⟨sent, hmem, T, ⟨encoder, encoder', hT⟩, rfl⟩ := hblocks block hblock
      obtain ⟨geometry, hgeometry, hcount, hheader, hpayload⟩ := hT.cut
      have hfits := MultichannelAudioFecConfig.geometryForGroups_fits hgeometry
      exact ⟨⟨sent.epoch, geometry⟩, fun _ =>
        ⟨⟨_, hfits⟩, hcount, hheader, hpayload, sent, hmem, rfl, hT.blockId_eq⟩⟩
    · exact ⟨default, fun hin => absurd hin hblock⟩
  choose cutOf hcutOf using hcut
  refine ⟨A, cutOf, ⟨fun block hblock => (hcutOf block hblock).1,
    fun block hblock => (hcutOf block hblock).2.1, fun block hblock => (hcutOf block hblock).2.2.1,
    fun block hblock => (hcutOf block hblock).2.2.2.1⟩, fun sent hmem => ?_, fun block hblock => ?_⟩
  · obtain ⟨T, hT, hin⟩ := hsent sent hmem
    obtain ⟨-, -, -, -, sent', hmem', hepoch, hid⟩ := hcutOf T.block hin
    have hsame : sent' = sent := List.inj_on_of_nodup_map hids hmem' hmem
      (hid.trans hT.blockId_eq.symm)
    exact ⟨T, hT, hin, hsame ▸ hepoch⟩
  · obtain ⟨-, -, -, -, sent, hmem, hepoch, -⟩ := hcutOf block hblock
    exact ⟨sent, hmem, hepoch⟩

/-! ## What the receiver holds -/

namespace MultichannelAudioReceiver

variable {X : Crates}

/-- The receiver holds fragments, groups and whole epochs as they were cut. -/
structure Exact (code : X.Sound) (A : AudioBlockSet) (cutOf : AudioBlock → EpochCut)
    (receiver : MultichannelAudioReceiver X) : Prop where
  decoder : receiver.decoder.Hears code A
  inflight : ∀ id assembly, receiver.inflight.lookup id = some assembly →
    ∃ block ∈ A, block.id = id ∧ EpochAssembles (cutOf block) assembly
  playout : ∀ entry ∈ receiver.playout.epochs.entries, entry.1 = entry.2.ptsSamples ∧
    ∃ block ∈ A, entry.2.plain = (cutOf block).epoch.exact

section Exact

variable {code : X.Sound} {A : AudioBlockSet} {cutOf : AudioBlock → EpochCut}
  {self next : MultichannelAudioReceiver X} {block : AudioBlock}
  {shard : DecodedMultichannelAudioShard} {outcome : MultichannelAudioReceiveOutcome}

lemma exact_new (code : X.Sound) (A : AudioBlockSet) (cutOf : AudioBlock → EpochCut)
    (config : MultichannelAudioSessionConfig) :
    Exact code A cutOf (new config : MultichannelAudioReceiver X) where
  decoder := MultichannelAudioFecDecoder.hears_new code A
  inflight id assembly h := by
    rw [new, Finmap.lookup_empty] at h
    cases h
  playout entry h := absurd h (List.not_mem_nil)

lemma Exact.sheds (h : Exact code A cutOf self) (hsheds : Sheds self next) :
    Exact code A cutOf next where
  decoder := hsheds.decoder ▸ h.decoder
  inflight id assembly hlookup := h.inflight id assembly (hsheds.inflight id assembly hlookup)
  playout := hsheds.playout ▸ h.playout

/-- Other counters do not matter, and neither do the queues. -/
lemma Exact.turns (h : Exact code A cutOf self) {playout : ExactMultichannelAudioPlayoutBuffer}
    {account : EpochAccount} (hturns : Turns self next playout account)
    (hplayout : ∀ entry ∈ playout.epochs.entries, entry ∈ self.playout.epochs.entries) :
    Exact code A cutOf next where
  decoder := hturns.decoder ▸ h.decoder
  inflight id assembly hlookup := h.inflight id assembly (hturns.inflight id assembly hlookup)
  playout entry hentry := h.playout entry (hplayout entry (hturns.playout ▸ hentry))

/-- The outcome has exact groups of the epoch, and the exact epoch. -/
structure IsExact (epoch : MultichannelAudioEpoch) (outcome : MultichannelAudioReceiveOutcome) :
    Prop where
  groups : ∀ group ∈ outcome.completedGroups, group.plain ∈ epoch.exact.groups
  epoch : ∀ completed ∈ outcome.completedEpoch, completed.plain = epoch.exact

/-- The assembly that a shard of a block is pushed into. -/
lemma Exact.assemblyFor (hcuts : Cuts A cutOf) (h : Exact code A cutOf self) (hblock : block ∈ A)
    (hshard : block.HasShard shard) : EpochAssembles (cutOf block) (self.assemblyFor shard) := by
  obtain ⟨i, hi, recovery, rfl⟩ := hshard
  rw [MultichannelAudioReceiver.assemblyFor]
  cases hlookup : self.inflight.lookup (block.shard recovery i).blockId with
  | none =>
      obtain ⟨config, fits⟩ := hcuts.fits block hblock
      have hheader : (block.shard recovery i).header
          = (cutOf block).header ((cutOf block).place i) i := congrFun (hcuts.header block hblock) i
      rw [Option.getD_none, hheader]
      exact epochAssembles_new fits _ _ _
  | some assembly =>
      obtain ⟨block', hblock', hid, hassembles⟩ := h.inflight _ assembly hlookup
      obtain rfl := A.inj block' hblock' block hblock hid
      exact hassembles

/-- A shard of a block is accepted by the assembly of its epoch. -/
lemma Exact.pushAssembly (hcuts : Cuts A cutOf) (h : Exact code A cutOf self) (hblock : block ∈ A)
    (hshard : block.HasShard shard) :
    EpochAssembles (cutOf block) ((self.assemblyFor shard).push shard).2 ∧
      ∃ group, ((self.assemblyFor shard).push shard).1 = some (.ok group) ∧
        ∀ decoded ∈ group, decoded.plain ∈ (cutOf block).epoch.exact.groups := by
  have hassembles := h.assemblyFor hcuts hblock hshard
  obtain ⟨config, fits⟩ := hcuts.fits block hblock
  obtain ⟨i, hi, recovery, rfl⟩ := hshard
  have hcount : i < (cutOf block).count := hcuts.count block hblock ▸ hi
  have hheader : (block.shard recovery i).header = (cutOf block).headerAt i :=
    congrFun (hcuts.header block hblock) i
  have hpayload : (block.shard recovery i).payload = (cutOf block).payloadAt i :=
    congrFun (hcuts.payload block hblock) i
  obtain ⟨hnext, group, hresult, hexact⟩ := hassembles.push fits hcount hheader hpayload
  refine ⟨hnext, group, hresult, fun decoded hdecoded => ?_⟩
  rw [hexact decoded hdecoded]
  exact MultichannelAudioEpoch.mem_exact_groups (EpochCut.place_spec hcount).1

lemma Exact.filed (hcuts : Cuts A cutOf) (h : Exact code A cutOf self) (hblock : block ∈ A)
    (hshard : block.HasShard shard) : Exact code A cutOf (self.filed shard) := by
  have hslot : Exact code A cutOf (self.withSlot shard) := h.sheds sheds_withSlot
  refine ⟨hslot.decoder, fun id assembly hlookup => ?_, hslot.playout⟩
  change ((self.withSlot shard).inflight.insert shard.blockId
    ((self.assemblyFor shard).push shard).2).lookup id = some assembly at hlookup
  rw [HashMap.lookup_insert_eq] at hlookup
  split_ifs at hlookup with hid
  · obtain rfl := Option.some.inj hlookup
    refine ⟨block, hblock, ?_, (h.pushAssembly hcuts hblock hshard).1⟩
    rw [hid, hshard.blockId_eq]
  · exact hslot.inflight id assembly hlookup

/-- A complete epoch of a block goes to the playout buffer. -/
lemma Exact.completeEpoch (h : Exact code A cutOf self) (hblock : block ∈ A)
    {assembly : EpochAssembly} (hassembles : EpochAssembles (cutOf block) assembly)
    (hcomplete : assembly.isComplete = true) {blockId : UInt32}
    (hgroups : ∀ group ∈ outcome.completedGroups, group.plain ∈ (cutOf block).epoch.exact.groups) :
    ∃ outcome' next, self.completeEpoch blockId assembly outcome = (some (.ok outcome'), next) ∧
      IsExact (cutOf block).epoch outcome' ∧ Exact code A cutOf next := by
  obtain ⟨epoch, hfinish, hexact⟩ := hassembles.finish hcomplete
  rw [MultichannelAudioReceiver.completeEpoch, hfinish]
  refine ⟨_, _, rfl, ⟨hgroups, ?_⟩, h.decoder, fun id assembly hlookup => ?_,
    fun entry hentry => ?_⟩
  · intro completed hcompleted
    obtain rfl := Option.some.inj hcompleted
    exact hexact
  · exact h.inflight id assembly (lookup_of_erase hlookup)
  · rcases ExactMultichannelAudioPlayoutBuffer.mem_of_mem_insert hentry with rfl | hold
    · exact ⟨rfl, block, hblock, hexact⟩
    · exact h.playout entry hold

/-- **The step lemma** for the shards of a datagram. -/
theorem Exact.pushShard (hcuts : Cuts A cutOf) (h : Exact code A cutOf self) (hblock : block ∈ A)
    (hshard : block.HasShard shard) (houtcome : IsExact (cutOf block).epoch outcome) :
    ∃ outcome' next, self.pushShard outcome shard = (some (.ok outcome'), next) ∧
      IsExact (cutOf block).epoch outcome' ∧ Exact code A cutOf next := by
  by_cases hignores : self.Ignores shard
  · exact ⟨outcome, _, pushShard_of_ignores hignores outcome, houtcome,
      h.sheds (sheds_countShard self shard.recovery)⟩
  obtain ⟨hassembles, group, hresult, hexact⟩ := h.pushAssembly hcuts hblock hshard
  have hnext := (h.filed hcuts hblock hshard).sheds (sheds_countGroup _ group)
  have hgroups : ∀ decoded ∈ outcome.completedGroups ++ group.toList,
      decoded.plain ∈ (cutOf block).epoch.exact.groups := by
    intro decoded hdecoded
    rcases List.mem_append.mp hdecoded with hold | hnew
    · exact houtcome.groups decoded hold
    · exact hexact decoded (Option.mem_toList.mp hnew)
  rw [pushShard_eq hignores, hresult]
  simp only
  split_ifs with hcomplete
  · exact hnext.completeEpoch hblock hassembles hcomplete hgroups
  · exact ⟨_, _, rfl, ⟨hgroups, houtcome.epoch⟩, hnext⟩

lemma Exact.pushShards (hcuts : Cuts A cutOf) (h : Exact code A cutOf self) (hblock : block ∈ A)
    {shards : List DecodedMultichannelAudioShard} (hshards : ∀ shard ∈ shards, block.HasShard shard)
    (houtcome : IsExact (cutOf block).epoch outcome) :
    ∃ outcome' next, pushShards shards outcome self = (some (.ok outcome'), next) ∧
      IsExact (cutOf block).epoch outcome' ∧ Exact code A cutOf next := by
  induction shards generalizing self outcome with
  | nil => exact ⟨outcome, self, rfl, houtcome, h⟩
  | cons shard shards ih =>
      obtain ⟨outcome', next, hpush, houtcome', hnext⟩ := h.pushShard hcuts hblock
        (hshards shard List.mem_cons_self) houtcome
      rw [MultichannelAudioReceiver.pushShards, hpush]
      exact ih hnext (fun shard hmem => hshards shard (List.mem_cons_of_mem _ hmem)) houtcome'

/-- **A datagram of one of the epochs** is accepted, and what it completes is exact. -/
theorem Exact.push (hcuts : Cuts A cutOf) (h : Exact code A cutOf self) (hblock : block ∈ A)
    {sequence : UInt32} {esi : ℕ} {datagram : Bytes}
    (hcarries : Carries code.toSystematic block.toSourceBlock sequence esi datagram) :
    ∃ outcome next, self.pushDatagram datagram = (some (.ok outcome), next) ∧
      IsExact (cutOf block).epoch outcome ∧ Exact code A cutOf next := by
  obtain ⟨shards, decoder, hpush, hshards, hdecoder⟩ := h.decoder.push hblock hcarries
  rw [pushDatagram]
  simp only [hpush]
  refine Exact.pushShards hcuts ?_ hblock hshards ⟨fun group hgroup => ?_, fun epoch hepoch => ?_⟩
  · exact ⟨hdecoder, h.inflight, h.playout⟩
  · cases hgroup
  · cases hepoch

/-- **What is played is missing or exact.** -/
theorem Exact.take (h : Exact code A cutOf self) (order : HashMap.Iteration UInt32 EpochAssembly)
    (ptsSamples : UInt64) :
    ((self.takeForPlayout order ptsSamples).1 = .missing ptsSamples ∨
      ∃ epoch, (self.takeForPlayout order ptsSamples).1 = .exact epoch ∧
        epoch.ptsSamples = ptsSamples ∧ ∃ block ∈ A, epoch.plain = (cutOf block).epoch.exact) ∧
    Exact code A cutOf (self.takeForPlayout order ptsSamples).2 := by
  obtain ⟨hread, hturns⟩ := self.takeForPlayout_spec order ptsSamples
  obtain ⟨hcases, hentries⟩ := self.playout.takeForPlayout_spec ptsSamples
  refine ⟨?_, h.turns hturns hentries⟩
  rw [hread]
  rcases hcases with hmissing | ⟨epoch, hexact, hentry⟩
  · exact Or.inl hmissing
  · obtain ⟨hpts, hblock⟩ := h.playout _ hentry
    exact Or.inr ⟨epoch, hexact, hpts.symm, hblock⟩

lemma Exact.expire (h : Exact code A cutOf self) (order : HashMap.Iteration UInt32 EpochAssembly)
    (ptsSamples : UInt64) : Exact code A cutOf (self.expireBefore order ptsSamples).2 :=
  h.turns (self.expireBefore_spec order ptsSamples).2 fun _ hentry =>
    ExactMultichannelAudioPlayoutBuffer.mem_of_mem_expireBefore hentry

end Exact

/-- **Exact or missing.**  A sender encodes epochs under distinct block ids.  In every run of a
receiver that pushes datagrams of these epochs, plays and expires, in any order, every push is
accepted, and the groups and the epoch it completes are those of the epoch of the datagram; and
what is played at some time is missing, or one of the epochs of that time. -/
theorem exact_or_missing (code : X.Sound) (config : MultichannelAudioSessionConfig)
    {ops : List AudioEncoderOp} {sender : MultichannelAudioSender}
    {result : List SentEpoch × MultichannelAudioSender}
    (hencode : sender.encodeAll X ops = some result)
    (hids : (result.1.map SentEpoch.blockId).Nodup) {calls : List ReceiverOp}
    (hpushed : ∀ datagram, .push datagram ∈ calls →
      ∃ sent ∈ result.1, ∃ packet ∈ sent.datagrams, packet.payload = datagram) :
    EveryStep step (new config : MultichannelAudioReceiver X) calls fun _ receiver call =>
      match call with
      | .push datagram => ∀ sent ∈ result.1, ∀ packet ∈ sent.datagrams,
          packet.payload = datagram →
          ∃ outcome, (receiver.pushDatagram datagram).1 = some (.ok outcome) ∧
            IsExact sent.epoch outcome
      | .take order ptsSamples =>
          (receiver.takeForPlayout order ptsSamples).1 = .missing ptsSamples ∨
            ∃ epoch, (receiver.takeForPlayout order ptsSamples).1 = .exact epoch ∧
              epoch.ptsSamples = ptsSamples ∧
              ∃ sent ∈ result.1, epoch.plain = sent.epoch.exact
      | .expire _ _ => True := by
  obtain ⟨A, cutOf, hcuts, hsent, hepochs⟩ :=
    MultichannelAudioSender.encodeAll_cuts code.toSystematic hencode hids
  -- a datagram of an epoch carries a symbol of its block
  have hcarries : ∀ sent ∈ result.1, ∀ packet ∈ sent.datagrams, ∃ block ∈ A,
      (cutOf block).epoch = sent.epoch ∧ ∃ sequence esi,
        Carries code.toSystematic block.toSourceBlock sequence esi packet.payload := by
    intro sent hmem packet hpacket
    obtain ⟨T, hT, hin, hepoch⟩ := hsent sent hmem
    obtain ⟨sequence, esi, -, hcarry⟩ := hT.carries hpacket
    exact ⟨T.block, hin, hepoch, sequence, esi, hcarry⟩
  have hexact : ∀ past, past <+: calls → Exact code A cutOf (runState step (new config) past) := by
    intro past hpast
    refine run_invariant (fun _ receiver => Exact code A cutOf receiver)
      (fun _ _ call => call ∈ calls) (exact_new code A cutOf config) ?_
      (fun done call hdone => hpast.subset (hdone.subset (by simp)))
    rintro - receiver call h hmem
    cases call with
    | push datagram =>
        obtain ⟨sent, hsent, packet, hpacket, rfl⟩ := hpushed datagram hmem
        obtain ⟨block, hblock, -, sequence, esi, hcarry⟩ := hcarries sent hsent packet hpacket
        obtain ⟨outcome, next, hpush, -, hnext⟩ := h.push hcuts hblock hcarry
        rw [step, hpush]
        exact hnext
    | take order ptsSamples => exact (h.take order ptsSamples).2
    | expire order ptsSamples => exact h.expire order ptsSamples
  intro past call hpre
  have h := hexact past ((List.prefix_append _ _).trans hpre)
  cases call with
  | push datagram =>
      rintro sent hmem packet hpacket rfl
      obtain ⟨block, hblock, hepoch, sequence, esi, hcarry⟩ := hcarries sent hmem packet hpacket
      obtain ⟨outcome, next, hpush, houtcome, -⟩ := h.push hcuts hblock hcarry
      exact ⟨outcome, by rw [hpush], hepoch ▸ houtcome⟩
  | take order ptsSamples =>
      rcases (h.take order ptsSamples).1 with hmissing | ⟨epoch, hread, hpts, block, hblock, hplain⟩
      · exact Or.inl hmissing
      · obtain ⟨sent, hmem, hepoch⟩ := hepochs block hblock
        exact Or.inr ⟨epoch, hread, hpts, sent, hmem, hepoch ▸ hplain⟩
  | expire order ptsSamples => trivial

/-! ### Two epochs -/

open MultichannelAudioFecDecoder (picked mem_picked sampleEpoch)

/-- The calls that push some datagrams, play and expire. -/
def sampleCalls (packets : List MultichannelAudioDatagram) : List ReceiverOp :=
  packets.map (fun packet => .push packet.payload)
    ++ [.take .ascending 480, .expire .ascending 500]

/-- The calls that push the datagrams of some epochs, read at a time, and expire. -/
def readCalls (sent : List SentEpoch) (ptsSamples : UInt64) : List ReceiverOp :=
  (sent.flatMap SentEpoch.datagrams).map (fun packet => .push packet.payload)
    ++ [.take .ascending ptsSamples, .expire .ascending ptsSamples]

lemma push_mem_sampleCalls {packets : List MultichannelAudioDatagram} {datagram : Bytes}
    (h : .push datagram ∈ sampleCalls packets) : ∃ packet ∈ packets, packet.payload = datagram := by
  rcases List.mem_append.mp h with hpush | hlater
  · obtain ⟨packet, hpacket, heq⟩ := List.mem_map.mp hpush
    exact ⟨packet, hpacket, ReceiverOp.push.inj heq⟩
  · simp at hlater

/-- The epoch of one time in two blocks, whose datagrams arrive in turn; some arrive twice, and
some not at all. -/
theorem exact_or_missing_two :
    ∃ result, (MultichannelAudioSender.new ⟨⟨118, 0, 1, 256⟩, 2, 2⟩).encodeAll repetition
        [.encode sampleEpoch, .encode sampleEpoch] = some result ∧
      (picked [4, 1, 1, 3, 0] result.1).length = 5 ∧
      EveryStep step (new .default : MultichannelAudioReceiver repetition)
        (sampleCalls (picked [4, 1, 1, 3, 0] result.1)) fun _ receiver call =>
          match call with
          | .push datagram => ∀ sent ∈ result.1, ∀ packet ∈ sent.datagrams,
              packet.payload = datagram →
              ∃ outcome, (receiver.pushDatagram datagram).1 = some (.ok outcome) ∧
                IsExact sent.epoch outcome
          | .take order ptsSamples =>
              (receiver.takeForPlayout order ptsSamples).1 = .missing ptsSamples ∨
                ∃ epoch, (receiver.takeForPlayout order ptsSamples).1 = .exact epoch ∧
                  epoch.ptsSamples = ptsSamples ∧
                  ∃ sent ∈ result.1, epoch.plain = sent.epoch.exact
          | .expire _ _ => True := by
  have hchecks : ((MultichannelAudioSender.new ⟨⟨118, 0, 1, 256⟩, 2, 2⟩).encodeAll repetition
      [.encode sampleEpoch, .encode sampleEpoch]).map (fun result =>
        (decide (result.1.map SentEpoch.blockId).Nodup, (picked [4, 1, 1, 3, 0] result.1).length))
        = some (true, 5) := by
    decide +kernel
  obtain ⟨result, hrun, hresult⟩ := Option.map_eq_some_iff.mp hchecks
  obtain ⟨hids, hlength⟩ := Prod.mk.inj hresult
  refine ⟨result, hrun, hlength, exact_or_missing repetitionIdeal.toSound .default hrun
    (of_decide_eq_true hids) fun datagram hdatagram => ?_⟩
  obtain ⟨packet, hpacket, heq⟩ := push_mem_sampleCalls hdatagram
  obtain ⟨sent, hsent, hmem⟩ := mem_picked packet hpacket
  exact ⟨sent, hsent, packet, hmem, heq⟩

end MultichannelAudioReceiver

end RaptorFec
