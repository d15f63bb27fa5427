import RaptorFec.Audio.Decoder

/-!
# Putting an epoch together

`EpochAssembly` collects the shards of one block, group by group; `GroupAssembly` collects the
fragments of one group.  A group is complete when it has all its fragments, an epoch when it has
all its groups.

Both `push` functions index into a list by a number of the shard's header.  Their result is `none`
where the source panics on such an index; the state is then the one at the panic.
-/

namespace RaptorFec

/-! ## Decoded groups and epochs -/

structure DecodedMultichannelAudioGroup where
  sessionId : UInt64
  configGeneration : UInt32
  epochId : UInt64
  ptsSamples : UInt64
  sampleRate : UInt32
  frameCount : UInt32
  groupCount : UInt16
  groupId : UInt16
  groupIndex : UInt16
  channelStart : UInt16
  channelCount : UInt16
  payloadKind : AudioPayloadKind
  sampleFormat : AudioSampleFormat
  flags : UInt8
  payload : Bytes
  raptorqRecoveredFragments : UInt16
  deriving DecidableEq, Repr

structure DecodedMultichannelAudioEpoch where
  sessionId : UInt64
  configGeneration : UInt32
  epochId : UInt64
  ptsSamples : UInt64
  sampleRate : UInt32
  frameCount : UInt32
  groups : List DecodedMultichannelAudioGroup
  deriving DecidableEq, Repr

inductive MultichannelAudioSessionError where
  | fec (error : MultichannelAudioFecError)
  | epochMetadataMismatch (blockId : UInt32) (field : String)
  | groupMetadataMismatch (blockId : UInt32) (groupIndex : UInt16) (field : String)
  | nonContiguousGroupPayload (blockId : UInt32) (groupIndex : UInt16)
  | incompleteEpoch (blockId : UInt32)
  deriving DecidableEq, Repr

/-- The macro `require_equal!`. -/
def requireEqual {α : Type} [DecidableEq α] (error : MultichannelAudioSessionError)
    (expected actual : α) : Except MultichannelAudioSessionError Unit :=
  if expected ≠ actual then .error error else .ok ()

/-! ## Groups -/

structure Fragment where
  offset : UInt32
  payload : Bytes
  deriving DecidableEq, Repr

structure GroupAssembly where
  blockId : UInt32
  header : MultichannelAudioShardHeader
  fragments : List (Option Fragment)
  recoveredFragments : UInt16
  deriving DecidableEq, Repr

namespace GroupAssembly

/-- `GroupAssembly::new`. -/
def new (blockId : UInt32) (header : MultichannelAudioShardHeader) : GroupAssembly :=
  ⟨blockId, header, List.replicate header.fragmentCount.toNat none, 0⟩

variable (self : GroupAssembly)

def validateHeader (header : MultichannelAudioShardHeader) :
    Except MultichannelAudioSessionError Unit := do
  let mismatch := MultichannelAudioSessionError.groupMetadataMismatch self.blockId
    self.header.groupIndex
  requireEqual (mismatch "group_id") self.header.groupId header.groupId
  requireEqual (mismatch "group_index") self.header.groupIndex header.groupIndex
  requireEqual (mismatch "channel_start") self.header.channelStart header.channelStart
  requireEqual (mismatch "channel_count") self.header.channelCount header.channelCount
  requireEqual (mismatch "payload_kind") self.header.payloadKind header.payloadKind
  requireEqual (mismatch "sample_format") self.header.sampleFormat header.sampleFormat
  requireEqual (mismatch "flags") self.header.flags header.flags
  requireEqual (mismatch "fragment_count") self.header.fragmentCount header.fragmentCount
  requireEqual (mismatch "group_payload_len") self.header.groupPayloadLen header.groupPayloadLen

/-- The loop over the sorted fragments: each has to start where the payload ends so far. -/
def joinFragments : List Fragment → Bytes → Option Bytes
  | [], payload => some payload
  | fragment :: fragments, payload =>
      if fragment.offset.toNat ≠ payload.length then none
      else joinFragments fragments (payload ++ fragment.payload)

/-- The payload of all fragments, when they have no gap and no overlap and the announced length. -/
def joined : Option Bytes := do
  let payload ← joinFragments
    (sortByKey (fun fragment => fragment.offset.toNat) self.fragments.reduceOption) []
  if payload.length ≠ self.header.groupPayloadLen.toNat then none else some payload

/-- The group with a given payload. -/
def toGroup (payload : Bytes) : DecodedMultichannelAudioGroup where
  sessionId := self.header.sessionId
  configGeneration := self.header.configGeneration
  epochId := self.header.epochId
  ptsSamples := self.header.ptsSamples
  sampleRate := self.header.sampleRate
  frameCount := self.header.frameCount
  groupCount := self.header.groupCount
  groupId := self.header.groupId
  groupIndex := self.header.groupIndex
  channelStart := self.header.channelStart
  channelCount := self.header.channelCount
  payloadKind := self.header.payloadKind
  sampleFormat := self.header.sampleFormat
  flags := self.header.flags
  payload := payload
  raptorqRecoveredFragments := self.recoveredFragments

/-- A fragment is stored. -/
def store (shard : DecodedMultichannelAudioShard) : GroupAssembly :=
  { self with
    recoveredFragments :=
      if shard.recovery = .raptorQ then satAdd16 self.recoveredFragments 1
      else self.recoveredFragments
    fragments := self.fragments.set shard.header.fragmentIndex.toNat
      (some ⟨shard.header.payloadOffset, shard.payload⟩) }

def push (shard : DecodedMultichannelAudioShard) :
    Option (Except MultichannelAudioSessionError (Option DecodedMultichannelAudioGroup))
      × GroupAssembly :=
  match self.validateHeader shard.header with
  | .error error => (some (.error error), self)
  | .ok _ =>
      match self.fragments[shard.header.fragmentIndex.toNat]? with
      | none => (none, self)
      | some (some _) => (some (.ok none), self)
      | some none =>
          let self := self.store shard
          if none ∈ self.fragments then (some (.ok none), self)
          else
            match self.joined with
            | none =>
                (some (.error (.nonContiguousGroupPayload shard.blockId self.header.groupIndex)),
                  self)
            | some payload => (some (.ok (some (self.toGroup payload))), self)

end GroupAssembly

/-! ## Epochs -/

structure EpochAssembly where
  blockId : UInt32
  sessionId : UInt64
  configGeneration : UInt32
  epochId : UInt64
  ptsSamples : UInt64
  sampleRate : UInt32
  frameCount : UInt32
  groupCount : UInt16
  sourceCount : UInt16
  groups : List (Option DecodedMultichannelAudioGroup)
  partialGroups : HashMap UInt16 GroupAssembly

namespace EpochAssembly

/-- `EpochAssembly::new`. -/
def new (blockId : UInt32) (header : MultichannelAudioShardHeader) : EpochAssembly where
  blockId := blockId
  sessionId := header.sessionId
  configGeneration := header.configGeneration
  epochId := header.epochId
  ptsSamples := header.ptsSamples
  sampleRate := header.sampleRate
  frameCount := header.frameCount
  groupCount := header.groupCount
  sourceCount := header.sourceCount
  groups := List.replicate header.groupCount.toNat none
  partialGroups := ∅

variable (self : EpochAssembly)

def validateHeader (header : MultichannelAudioShardHeader) :
    Except MultichannelAudioSessionError Unit := do
  let mismatch := MultichannelAudioSessionError.epochMetadataMismatch self.blockId
  requireEqual (mismatch "session_id") self.sessionId header.sessionId
  requireEqual (mismatch "config_generation") self.configGeneration header.configGeneration
  requireEqual (mismatch "epoch_id") self.epochId header.epochId
  requireEqual (mismatch "pts_samples") self.ptsSamples header.ptsSamples
  requireEqual (mismatch "sample_rate") self.sampleRate header.sampleRate
  requireEqual (mismatch "frame_count") self.frameCount header.frameCount
  requireEqual (mismatch "group_count") self.groupCount header.groupCount
  requireEqual (mismatch "source_count") self.sourceCount header.sourceCount

/-- The assembly of a group, a new one for its first shard. -/
def groupAssembly (header : MultichannelAudioShardHeader) : GroupAssembly :=
  (self.partialGroups.lookup header.groupIndex).getD (GroupAssembly.new self.blockId header)

def push (shard : DecodedMultichannelAudioShard) :
    Option (Except MultichannelAudioSessionError (Option DecodedMultichannelAudioGroup))
      × EpochAssembly :=
  match self.validateHeader shard.header with
  | .error error => (some (.error error), self)
  | .ok _ =>
      let groupIndex := shard.header.groupIndex
      match self.groups[groupIndex.toNat]? with
      | none => (none, self)
      | some (some _) => (some (.ok none), self)
      | some none =>
          match (self.groupAssembly shard.header).push shard with
          | (some (.ok (some completed)), _) =>
              (some (.ok (some completed)), { self with
                partialGroups := self.partialGroups.erase groupIndex
                groups := self.groups.set groupIndex.toNat (some completed) })
          | (result, group) =>
              (result, { self with partialGroups := self.partialGroups.insert groupIndex group })

/-- `is_complete`. -/
def isComplete : Bool := self.groups.all Option.isSome

def finish : Except MultichannelAudioSessionError DecodedMultichannelAudioEpoch :=
  match self.groups.mapM id with
  | none => .error (.incompleteEpoch self.blockId)
  | some groups => .ok
      { sessionId := self.sessionId
        configGeneration := self.configGeneration
        epochId := self.epochId
        ptsSamples := self.ptsSamples
        sampleRate := self.sampleRate
        frameCount := self.frameCount
        groups := groups }

end EpochAssembly

end RaptorFec
