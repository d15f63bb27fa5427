import RaptorFec.Audio.Flow
import RaptorFec.Session.Playout

/-!
# Audio sessions

`MultichannelAudioSender` wraps the audio encoder.  `MultichannelAudioReceiver` passes datagrams
through the audio decoder, puts the shards together, and hands complete epochs to the playout
buffer.  It limits the epochs in flight; the blocks it gave up are ignored for a while.

The receiver iterates over a hash map when it gives up epochs by their time.  The order of that
iteration is an argument of the calls.  The result of `pushDatagram` is `none` where the source
panics.
-/

namespace RaptorFec

structure MultichannelAudioSessionConfig where
  fec : MultichannelAudioFecConfig
  maxInflightEpochs : ℕ
  maxBufferedEpochs : ℕ
  deriving DecidableEq, Repr

namespace MultichannelAudioSessionConfig

def defaultMaxInflightEpochs : ℕ := 64

def defaultMaxBufferedEpochs : ℕ := 256

/-- `MultichannelAudioSessionConfig::default`. -/
def default : MultichannelAudioSessionConfig :=
  ⟨.default, defaultMaxInflightEpochs, defaultMaxBufferedEpochs⟩

def normalized (self : MultichannelAudioSessionConfig) : MultichannelAudioSessionConfig :=
  ⟨self.fec, max self.maxInflightEpochs 1, max self.maxBufferedEpochs 1⟩

end MultichannelAudioSessionConfig

structure MultichannelAudioSessionStats where
  epochsEncoded : UInt64
  sourceDatagramsEmitted : UInt64
  repairDatagramsEmitted : UInt64
  datagramsReceived : UInt64
  systematicShardsReceived : UInt64
  raptorqShardsRecovered : UInt64
  groupsCompleted : UInt64
  epochsCompleted : UInt64
  exactEpochsPlayed : UInt64
  missingEpochs : UInt64
  incompleteEpochsDropped : UInt64
  staleEpochsDropped : UInt64
  duplicateOrLateEpochs : UInt64
  deriving DecidableEq, Repr

/-- `MultichannelAudioSessionStats::default`. -/
def MultichannelAudioSessionStats.default : MultichannelAudioSessionStats :=
  ⟨0, 0, 0, 0, 0, 0, 0, 0, 0, 0, 0, 0, 0⟩

/-! ## The sender -/

structure MultichannelAudioSender where
  encoder : MultichannelAudioFecEncoder
  stats : MultichannelAudioSessionStats
  deriving DecidableEq, Repr

namespace MultichannelAudioSender

/-- `MultichannelAudioSender::new`. -/
def new (config : MultichannelAudioSessionConfig) : MultichannelAudioSender :=
  ⟨.new config.normalized.fec, .default⟩

variable (X : Crates) (self : MultichannelAudioSender)

/-- `set_block_id`, also `with_initial_block_id`. -/
def setBlockId (blockId : UInt32) : MultichannelAudioSender :=
  { self with encoder := self.encoder.setBlockId blockId }

/-- A write through `fec_config_mut`. -/
def setFecConfig (config : MultichannelAudioFecConfig) : MultichannelAudioSender :=
  { self with encoder := self.encoder.setConfig config }

/-- `encode_epoch`, with the sender after the call; `none` is a panic in the encoder. -/
def encodeEpoch (epoch : MultichannelAudioEpoch) :
    Option (Except MultichannelAudioSessionError EncodedMultichannelAudioEpoch ×
      MultichannelAudioSender) :=
  match self.encoder.encodeEpoch X epoch with
  | none => none
  | some (.error error, encoder) => some (.error (.fec error), { self with encoder := encoder })
  | some (.ok encoded, encoder) =>
      some (.ok encoded,
        { encoder := encoder
          stats := { self.stats with
            epochsEncoded := satAdd self.stats.epochsEncoded 1
            sourceDatagramsEmitted := satAdd self.stats.sourceDatagramsEmitted
              (UInt64.ofNat encoded.sourceDatagramCount)
            repairDatagramsEmitted := satAdd self.stats.repairDatagramsEmitted
              (UInt64.ofNat encoded.repairDatagramCount) } })

/-- The epochs that some calls accept, one call after the other, and the sender after them. -/
def encodeAll (X : Crates) : List AudioEncoderOp → MultichannelAudioSender →
    Option (List SentEpoch × MultichannelAudioSender)
  | [], self => some ([], self)
  | .encode epoch :: ops, self => do
      let encoded ← self.encodeEpoch X epoch
      let rest ← encodeAll X ops encoded.2
      some ((encoded.1.toOption.map (SentEpoch.mk epoch)).toList ++ rest.1, rest.2)
  | .setBlockId blockId :: ops, self => encodeAll X ops (self.setBlockId blockId)
  | .setConfig config :: ops, self => encodeAll X ops (self.setFecConfig config)

/-- A sender accepts the epochs that its encoder accepts. -/
lemma encodeAll_encoder {X : Crates} {ops : List AudioEncoderOp} {self : MultichannelAudioSender}
    {result : List SentEpoch × MultichannelAudioSender}
    (h : encodeAll X ops self = some result) :
    MultichannelAudioFecEncoder.encodeAll X ops self.encoder
      = some (result.1, result.2.encoder) := by
  induction ops generalizing self result with
  | nil =>
      obtain rfl := Option.some.inj h
      rfl
  | cons op ops ih =>
      cases op with
      | setBlockId blockId => exact ih h
      | setConfig config => exact ih h
      | encode epoch =>
          obtain ⟨⟨outcome, next⟩, hencode, hrest⟩ := Option.bind_eq_some_iff.mp h
          obtain ⟨rest, hall, heq⟩ := Option.bind_eq_some_iff.mp hrest
          obtain rfl := Option.some.inj heq
          have hnext := ih hall
          rw [encodeEpoch] at hencode
          rw [MultichannelAudioFecEncoder.encodeAll]
          split at hencode
          · cases hencode
          · rename_i error encoder hencoder
            obtain ⟨rfl, rfl⟩ := Prod.mk.inj (Option.some.inj hencode)
            exact Option.bind_eq_some_iff.mpr ⟨_, hencoder,
              Option.bind_eq_some_iff.mpr ⟨_, hnext, rfl⟩⟩
          · rename_i encoded encoder hencoder
            obtain ⟨rfl, rfl⟩ := Prod.mk.inj (Option.some.inj hencode)
            exact Option.bind_eq_some_iff.mpr ⟨_, hencoder,
              Option.bind_eq_some_iff.mpr ⟨_, hnext, rfl⟩⟩

end MultichannelAudioSender

/-! ## The receiver -/

structure MultichannelAudioReceiveOutcome where
  completedGroups : List DecodedMultichannelAudioGroup
  completedEpoch : Option DecodedMultichannelAudioEpoch
  deriving DecidableEq, Repr

/-- `MultichannelAudioReceiveOutcome::default`. -/
def MultichannelAudioReceiveOutcome.default : MultichannelAudioReceiveOutcome := ⟨[], none⟩

structure MultichannelAudioReceiver (X : Crates) where
  decoder : MultichannelAudioFecDecoder X
  inflight : HashMap UInt32 EpochAssembly
  inflightOrder : List UInt32
  ignoredBlocks : Finset UInt32
  ignoredOrder : List UInt32
  maxInflightEpochs : ℕ
  maxIgnoredBlocks : ℕ
  playout : ExactMultichannelAudioPlayoutBuffer
  stats : MultichannelAudioSessionStats

namespace MultichannelAudioReceiver

variable {X : Crates}

/-- `MultichannelAudioReceiver::new`. -/
def new (config : MultichannelAudioSessionConfig) : MultichannelAudioReceiver X :=
  let config := config.normalized
  { decoder := .new
    inflight := ∅
    inflightOrder := []
    ignoredBlocks := ∅
    ignoredOrder := []
    maxInflightEpochs := config.maxInflightEpochs
    maxIgnoredBlocks := max (satMulUsize config.maxInflightEpochs 4) 64
    playout := .new config.maxBufferedEpochs
    stats := .default }

variable (self : MultichannelAudioReceiver X)

/-- The loop of `remember_ignored` over the queue of ignored blocks. -/
def trimIgnored : List UInt32 → MultichannelAudioReceiver X → MultichannelAudioReceiver X
  | [], self => self
  | expired :: rest, self =>
      if self.maxIgnoredBlocks < (expired :: rest).length then
        trimIgnored rest
          { self with ignoredOrder := rest, ignoredBlocks := self.ignoredBlocks.erase expired }
      else self

def rememberIgnored (blockId : UInt32) : MultichannelAudioReceiver X :=
  let self : MultichannelAudioReceiver X :=
    if blockId ∈ self.ignoredBlocks then self
    else { self with
      ignoredBlocks := insert blockId self.ignoredBlocks
      ignoredOrder := self.ignoredOrder ++ [blockId] }
  trimIgnored self.ignoredOrder self

def dropInflight (blockId : UInt32) : MultichannelAudioReceiver X :=
  { self with
    inflight := self.inflight.erase blockId
    inflightOrder := self.inflightOrder.filter (· ≠ blockId) : MultichannelAudioReceiver X
    }.rememberIgnored blockId

/-- An epoch that was given up is counted. -/
def countDropped : MultichannelAudioReceiver X :=
  { self with stats := { self.stats with
      incompleteEpochsDropped := satAdd self.stats.incompleteEpochsDropped 1 } }

/-- The oldest epoch in flight is given up; `rest` is the queue behind it. -/
def dropOldest (oldest : UInt32) (rest : List UInt32) : MultichannelAudioReceiver X :=
  let self := { self with inflightOrder := rest }
  if oldest ∈ self.inflight then
    ({ self with inflight := self.inflight.erase oldest } : MultichannelAudioReceiver X
      ).countDropped.rememberIgnored oldest
  else self

/-- The loop of `ensure_inflight_slot` over the queue of epochs in flight. -/
def dropWhileFull : List UInt32 → MultichannelAudioReceiver X → MultichannelAudioReceiver X
  | [], self => self
  | oldest :: rest, self =>
      if self.maxInflightEpochs ≤ self.inflight.len then
        dropWhileFull rest (self.dropOldest oldest rest)
      else self

def ensureInflightSlot (blockId : UInt32) : MultichannelAudioReceiver X :=
  if blockId ∈ self.inflight then self else dropWhileFull self.inflightOrder self

/-- `is_late`. -/
def isLate (ptsSamples : UInt64) : Bool := self.playout.isLate ptsSamples

/-- A shard is counted. -/
def countShard (recovery : MultichannelAudioRecovery) : MultichannelAudioReceiver X :=
  { self with stats :=
      match recovery with
      | .systematic => { self.stats with
          systematicShardsReceived := satAdd self.stats.systematicShardsReceived 1 }
      | .raptorQ => { self.stats with
          raptorqShardsRecovered := satAdd self.stats.raptorqShardsRecovered 1 } }

/-- A group that became complete is counted. -/
def countGroup (group : Option DecodedMultichannelAudioGroup) : MultichannelAudioReceiver X :=
  match group with
  | none => self
  | some _ => { self with stats := { self.stats with
      groupsCompleted := satAdd self.stats.groupsCompleted 1 } }

/-- What the playout buffer did with a complete epoch is counted. -/
def countInsert (outcome : InsertEpochOutcome) : MultichannelAudioReceiver X :=
  { self with stats :=
      match outcome with
      | .inserted => self.stats
      | .duplicateOrLate => { self.stats with
          duplicateOrLateEpochs := satAdd self.stats.duplicateOrLateEpochs 1 }
      | .evictedStale count => { self.stats with
          staleEpochsDropped := satAdd self.stats.staleEpochsDropped (UInt64.ofNat count) } }

/-- The part of the loop body behind a complete assembly. -/
def completeEpoch (blockId : UInt32) (assembly : EpochAssembly)
    (outcome : MultichannelAudioReceiveOutcome) :
    Option (Except MultichannelAudioSessionError MultichannelAudioReceiveOutcome)
      × MultichannelAudioReceiver X :=
  let self := { self with
    inflight := self.inflight.erase blockId
    inflightOrder := self.inflightOrder.filter (· ≠ blockId) }
  match assembly.finish with
  | .error error => (some (.error error), self)
  | .ok epoch =>
      let (insertion, playout) := self.playout.insert epoch
      let self := { self with
        playout := playout
        stats := { self.stats with epochsCompleted := satAdd self.stats.epochsCompleted 1 } }
      (some (.ok { outcome with completedEpoch := some epoch }), self.countInsert insertion)

/-- The entry of the block in the map of assemblies. -/
def openAssembly (blockId : UInt32) (header : MultichannelAudioShardHeader) :
    EpochAssembly × MultichannelAudioReceiver X :=
  match self.inflight.lookup blockId with
  | some assembly => (assembly, self)
  | none =>
      (EpochAssembly.new blockId header,
        { self with inflightOrder := self.inflightOrder ++ [blockId] })

/-- The loop body of `push_datagram`. -/
def pushShard (outcome : MultichannelAudioReceiveOutcome) (shard : DecodedMultichannelAudioShard) :
    Option (Except MultichannelAudioSessionError MultichannelAudioReceiveOutcome)
      × MultichannelAudioReceiver X :=
  let self := self.countShard shard.recovery
  let blockId := shard.blockId
  if blockId ∈ self.ignoredBlocks ∨ self.isLate shard.header.ptsSamples then
    (some (.ok outcome), self)
  else
    let (assembly, self) := (self.ensureInflightSlot blockId).openAssembly blockId shard.header
    let (result, assembly) := assembly.push shard
    let self := { self with inflight := self.inflight.insert blockId assembly }
    match result with
    | none => (none, self)
    | some (.error error) => (some (.error error), self)
    | some (.ok completedGroup) =>
        let self := self.countGroup completedGroup
        let outcome := { outcome with
          completedGroups := outcome.completedGroups ++ completedGroup.toList }
        if assembly.isComplete then self.completeEpoch blockId assembly outcome
        else (some (.ok outcome), self)

/-- The loop of `push_datagram`. -/
def pushShards : List DecodedMultichannelAudioShard → MultichannelAudioReceiveOutcome →
    MultichannelAudioReceiver X →
    Option (Except MultichannelAudioSessionError MultichannelAudioReceiveOutcome)
      × MultichannelAudioReceiver X
  | [], outcome, self => (some (.ok outcome), self)
  | shard :: shards, outcome, self =>
      match self.pushShard outcome shard with
      | (some (.ok outcome), self) => pushShards shards outcome self
      | (result, self) => (result, self)

def pushDatagram (datagram : Bytes) :
    Option (Except MultichannelAudioSessionError MultichannelAudioReceiveOutcome)
      × MultichannelAudioReceiver X :=
  let self := { self with stats := { self.stats with
    datagramsReceived := satAdd self.stats.datagramsReceived 1 } }
  match self.decoder.pushDatagram datagram with
  | (.error error, decoder) => (some (.error (.fec error)), { self with decoder := decoder })
  | (.ok shards, decoder) => pushShards shards .default { self with decoder := decoder }

/-- The blocks in flight whose epochs satisfy a condition, in the order of an iteration. -/
def inflightBlocks (order : HashMap.Iteration UInt32 EpochAssembly)
    (select : EpochAssembly → Bool) : List UInt32 :=
  (order.keys self.inflight).filter fun blockId => (self.inflight.lookup blockId).any select

/-- `abandon_inflight_through`. -/
def abandonInflightThrough (order : HashMap.Iteration UInt32 EpochAssembly)
    (ptsSamples : UInt64) : MultichannelAudioReceiver X :=
  (self.inflightBlocks order fun epoch => epoch.ptsSamples ≤ ptsSamples).foldl
    (fun self blockId => (self.dropInflight blockId).countDropped) self

/-- `take_for_playout`. -/
def takeForPlayout (order : HashMap.Iteration UInt32 EpochAssembly) (ptsSamples : UInt64) :
    MultichannelAudioPlayoutRead × MultichannelAudioReceiver X :=
  let self := self.abandonInflightThrough order ptsSamples
  match self.playout.takeForPlayout ptsSamples with
  | (.exact epoch, playout) =>
      (.exact epoch, { self with
        playout := playout
        stats := { self.stats with
          exactEpochsPlayed := satAdd self.stats.exactEpochsPlayed 1 } })
  | (.missing ptsSamples, playout) =>
      (.missing ptsSamples, { self with
        playout := playout
        stats := { self.stats with missingEpochs := satAdd self.stats.missingEpochs 1 } })

/-- `expire_before`. -/
def expireBefore (order : HashMap.Iteration UInt32 EpochAssembly) (ptsSamples : UInt64) :
    ℕ × MultichannelAudioReceiver X :=
  let (staleBuffered, playout) := self.playout.expireBefore ptsSamples
  let self := { self with playout := playout }
  let staleBlocks := self.inflightBlocks order fun epoch => epoch.ptsSamples < ptsSamples
  let self := staleBlocks.foldl (fun self blockId => self.dropInflight blockId) self
  let dropped := staleBuffered + staleBlocks.length
  (dropped, { self with stats := { self.stats with
    staleEpochsDropped := satAdd self.stats.staleEpochsDropped (UInt64.ofNat dropped) } })

end MultichannelAudioReceiver

end RaptorFec
