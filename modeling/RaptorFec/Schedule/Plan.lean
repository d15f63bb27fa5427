import Mathlib.Data.List.Sort
import Mathlib.Data.Prod.Lex
import RaptorFec.Library.Breaks
import RaptorFec.Media.Encoder

/-!
# Send plans

The scheduler decides which datagrams of some encoded frames are sent now, and in which order.  Each
frame contributes a group of source datagrams and a group of repair datagrams.  The groups are
sorted, and their datagrams are admitted one after the other: each is scheduled, dropped, or blocked
by the datagrams in flight.

The loop over the groups, the blocks of a group and the datagrams of a block is left at the limits
of one plan; its body is a `foldlM` in `Except`, where an error is the `break` out of all three
loops.
-/

namespace RaptorFec

def defaultMaxDatagramsPerPlan : ℕ := 4096

def hardMaxDatagramsPerPlan : ℕ := 65536

def hardMaxFramesScannedPerPlan : ℕ := 4096

def hardMaxBlockVisitsPerPlan : ℕ := 262144

def urgentRepairWindowUs : UInt64 := 5000

/-! ## Policies and deadlines -/

structure MediaSendPolicy where
  order : MediaDatagramOrder
  maxInFlightDatagrams : ℕ
  maxDatagramsPerPlan : ℕ
  minDatagramSpacingUs : UInt64
  playoutLatencyMs : UInt32
  staleDeltaRepairQueueDelayMs : UInt32
  deriving DecidableEq, Repr

/-- `MediaSendPolicy::default`. -/
def MediaSendPolicy.default : MediaSendPolicy :=
  ⟨.sourceFirst, defaultMaxDatagramsPerPlan, defaultMaxDatagramsPerPlan, 0, 33, 20⟩

def MediaSendPolicy.normalized (self : MediaSendPolicy) : MediaSendPolicy :=
  let maxDatagramsPerPlan := min (max self.maxDatagramsPerPlan 1) hardMaxDatagramsPerPlan
  { self with
    order := .sourceFirst
    maxInFlightDatagrams := min self.maxInFlightDatagrams maxDatagramsPerPlan
    maxDatagramsPerPlan := maxDatagramsPerPlan }

structure MediaScheduleState where
  nowUs : UInt64
  queueDelayUs : UInt64
  inFlightDatagrams : ℕ
  deriving DecidableEq, Repr

structure MediaDeadline where
  expiresAtUs : UInt64
  deriving DecidableEq, Repr

namespace MediaDeadline

variable (self : MediaDeadline)

/-- `remaining_us_at`. -/
def remainingUsAt (nowUs : UInt64) : Option UInt64 :=
  if nowUs < self.expiresAtUs then some (self.expiresAtUs - nowUs) else none

/-- `is_expired_at`. -/
def isExpiredAt (nowUs : UInt64) : Prop := self.expiresAtUs ≤ nowUs

instance (nowUs : UInt64) : Decidable (self.isExpiredAt nowUs) :=
  inferInstanceAs (Decidable (_ ≤ _))

end MediaDeadline

/-! ## Kinds of datagrams -/

inductive MediaObjectKind where
  | initialization
  | codecConfig
  | videoKeyframe
  | audio
  | videoDelta
  | data
  deriving DecidableEq, Repr

/-- The place of a kind in the derived order. -/
def MediaObjectKind.rank : MediaObjectKind → ℕ
  | .initialization => 0
  | .codecConfig => 1
  | .videoKeyframe => 2
  | .audio => 3
  | .videoDelta => 4
  | .data => 5

inductive MediaPathIntent where
  | primarySource
  | secondaryRepair
  | reliableObjectFetch
  deriving DecidableEq, Repr

inductive MediaDatagramClass where
  | initializationSource
  | codecConfigSource
  | videoKeySource
  | audioSource
  | videoDeltaSource
  | dataSource
  | initializationRepair
  | codecConfigRepair
  | videoKeyRepair
  | audioRepair
  | videoDeltaRepair
  | dataRepair
  deriving DecidableEq, Repr

inductive MediaDropReason where
  | expired
  | staleDeltaRepair
  | inFlightLimit
  deriving DecidableEq, Repr

/-- `MediaFrameFlags::contains`. -/
def MediaFrameFlags.contains (flags : MediaFrameFlags) (bit : UInt16) : Prop :=
  flags.bits &&& bit ≠ 0

instance (flags : MediaFrameFlags) (bit : UInt16) : Decidable (flags.contains bit) :=
  inferInstanceAs (Decidable (_ ≠ _))

def mediaFrameFlagCodecConfig : UInt16 := 2

def mediaFrameFlagInitialization : UInt16 := 16

def mediaObjectKind (frame : EncodedMediaFrame) : MediaObjectKind :=
  if frame.metadata.flags.contains mediaFrameFlagInitialization then .initialization
  else if frame.metadata.flags.contains mediaFrameFlagCodecConfig then .codecConfig
  else
    match frame.priority with
    | .videoKey => .videoKeyframe
    | .audio => .audio
    | .videoDelta => .videoDelta
    | .data => .data

def datagramClass : MediaObjectKind → MediaDatagramRole → MediaDatagramClass
  | .initialization, .source => .initializationSource
  | .codecConfig, .source => .codecConfigSource
  | .videoKeyframe, .source => .videoKeySource
  | .audio, .source => .audioSource
  | .videoDelta, .source => .videoDeltaSource
  | .data, .source => .dataSource
  | .initialization, .repair => .initializationRepair
  | .codecConfig, .repair => .codecConfigRepair
  | .videoKeyframe, .repair => .videoKeyRepair
  | .audio, .repair => .audioRepair
  | .videoDelta, .repair => .videoDeltaRepair
  | .data, .repair => .dataRepair

def roleRank : MediaDatagramRole → ℕ
  | .source => 0
  | .repair => 1

def pathIntent : MediaDatagramRole → MediaPathIntent
  | .source => .primarySource
  | .repair => .secondaryRepair

/-- The kinds whose datagrams come first. -/
def MediaObjectKind.important : MediaObjectKind → Bool
  | .initialization | .codecConfig | .videoKeyframe | .audio => true
  | .videoDelta | .data => false

def schedulingRank (role : MediaDatagramRole) (objectKind : MediaObjectKind)
    (deadline : MediaDeadline) (readyAtUs : UInt64) : ℕ :=
  match role with
  | .source => if objectKind.important then 0 else 2
  | .repair =>
      if objectKind.important ∧
          (deadline.remainingUsAt readyAtUs).any fun remaining => remaining ≤ urgentRepairWindowUs
      then 1 else 3

/-! ## Plans -/

structure MediaScheduledDatagram where
  frameSequence : UInt64
  streamId : UInt64
  datagramIndex : ℕ
  blockId : UInt32
  fragmentIndex : UInt16
  role : MediaDatagramRole
  objectKind : MediaObjectKind
  datagramClass : MediaDatagramClass
  pathIntent : MediaPathIntent
  deadlineMs : UInt64
  deadline : MediaDeadline
  sendAfterUs : UInt64
  deriving DecidableEq, Repr

structure MediaDroppedDatagram where
  frameSequence : UInt64
  streamId : UInt64
  datagramIndex : ℕ
  blockId : UInt32
  fragmentIndex : UInt16
  role : MediaDatagramRole
  objectKind : MediaObjectKind
  datagramClass : MediaDatagramClass
  pathIntent : MediaPathIntent
  deadline : MediaDeadline
  reason : MediaDropReason
  deriving DecidableEq, Repr

structure MediaSendPlan where
  scheduled : List MediaScheduledDatagram
  dropped : List MediaDroppedDatagram
  blockedByInFlight : ℕ
  planLimitReached : Bool
  deriving DecidableEq, Repr

structure MediaFrameSchedule where
  frame : EncodedMediaFrame
  deadline : MediaDeadline

structure MediaCandidateGroup where
  frame : EncodedMediaFrame
  role : MediaDatagramRole
  objectKind : MediaObjectKind
  deadline : MediaDeadline

structure MediaCandidate where
  frameSequence : UInt64
  streamId : UInt64
  datagramIndex : ℕ
  blockId : UInt32
  fragmentIndex : UInt16
  role : MediaDatagramRole
  objectKind : MediaObjectKind
  datagramClass : MediaDatagramClass
  pathIntent : MediaPathIntent
  deadline : MediaDeadline
  deriving DecidableEq, Repr

namespace MediaCandidate

variable (self : MediaCandidate)

def scheduled (sendAfterUs : UInt64) : MediaScheduledDatagram :=
  { frameSequence := self.frameSequence
    streamId := self.streamId
    datagramIndex := self.datagramIndex
    blockId := self.blockId
    fragmentIndex := self.fragmentIndex
    role := self.role
    objectKind := self.objectKind
    datagramClass := self.datagramClass
    pathIntent := self.pathIntent
    deadlineMs := self.deadline.expiresAtUs / 1000
    deadline := self.deadline
    sendAfterUs := sendAfterUs }

def dropped (reason : MediaDropReason) : MediaDroppedDatagram :=
  { frameSequence := self.frameSequence
    streamId := self.streamId
    datagramIndex := self.datagramIndex
    blockId := self.blockId
    fragmentIndex := self.fragmentIndex
    role := self.role
    objectKind := self.objectKind
    datagramClass := self.datagramClass
    pathIntent := self.pathIntent
    deadline := self.deadline
    reason := reason }

/-- `should_drop_stale_delta_repair`. -/
def shouldDropStaleDeltaRepair (policy : MediaSendPolicy) (state : MediaScheduleState) : Prop :=
  self.objectKind = .videoDelta ∧ self.role = .repair ∧
    satMul policy.staleDeltaRepairQueueDelayMs.toUInt64 1000 ≤ state.queueDelayUs

instance (policy : MediaSendPolicy) (state : MediaScheduleState) :
    Decidable (self.shouldDropStaleDeltaRepair policy state) :=
  inferInstanceAs (Decidable (_ ∧ _ ∧ _))

end MediaCandidate

/-- The groups of a frame. -/
def MediaFrameSchedule.groups (scheduledFrame : MediaFrameSchedule) : List MediaCandidateGroup :=
  [.source, .repair].map fun role =>
    { frame := scheduledFrame.frame
      role := role
      objectKind := mediaObjectKind scheduledFrame.frame
      deadline := scheduledFrame.deadline }

namespace MediaCandidateGroup

variable (self : MediaCandidateGroup)

def candidate (block : EncodedMediaBlock) (datagramIndex : ℕ) : MediaCandidate :=
  { frameSequence := self.frame.sequence
    streamId := self.frame.metadata.streamId
    datagramIndex := datagramIndex
    blockId := block.blockId
    fragmentIndex := block.fragmentIndex
    role := self.role
    objectKind := self.objectKind
    datagramClass := RaptorFec.datagramClass self.objectKind self.role
    pathIntent := RaptorFec.pathIntent self.role
    deadline := self.deadline }

/-- The indices of the datagrams of a block that belong to the group. -/
def indices (block : EncodedMediaBlock) : List ℕ :=
  match self.role with
  | .source => block.sourceDatagramIndices
  | .repair => block.repairDatagramIndices

/-- The key the groups are sorted by. -/
def sortKey (readyAtUs : UInt64) : ℕ ×ₗ ℕ ×ₗ ℕ ×ₗ ℕ ×ₗ ℕ ×ₗ ℕ :=
  toLex (schedulingRank self.role self.objectKind self.deadline readyAtUs,
    toLex (self.objectKind.rank, toLex (self.deadline.expiresAtUs.toNat,
      toLex (self.frame.metadata.streamId.toNat, toLex (self.frame.sequence.toNat,
        roleRank self.role)))))

end MediaCandidateGroup

/-- The state of the loop over the groups. -/
structure MediaPlanState where
  plan : MediaSendPlan
  admitted : ℕ
  blockVisits : ℕ

namespace MediaPlanState

variable (policy : MediaSendPolicy) (state : MediaScheduleState) (readyAtUs : UInt64)
  (capacity : ℕ)

/-- The plan after an admitted candidate. -/
def place (plan : MediaSendPlan) (candidate : MediaCandidate) : MediaSendPlan :=
  if candidate.deadline.isExpiredAt readyAtUs then
    { plan with dropped := plan.dropped ++ [candidate.dropped .expired] }
  else if candidate.shouldDropStaleDeltaRepair policy state then
    { plan with dropped := plan.dropped ++ [candidate.dropped .staleDeltaRepair] }
  else if plan.scheduled.length = capacity then
    { plan with blockedByInFlight := satAddUsize plan.blockedByInFlight 1 }
  else
    let sendAfterUs := satMul (UInt64.ofNat plan.scheduled.length) policy.minDatagramSpacingUs
    let sendAtUs := satAdd readyAtUs sendAfterUs
    if candidate.deadline.isExpiredAt sendAtUs then
      { plan with dropped := plan.dropped ++ [candidate.dropped .expired] }
    else { plan with scheduled := plan.scheduled ++ [candidate.scheduled sendAfterUs] }

/-- The loop is left because a limit is reached. -/
def limitReached (self : MediaPlanState) : MediaPlanState :=
  { self with plan := { self.plan with planLimitReached := true } }

/-- The innermost loop body. -/
def visitDatagram (group : MediaCandidateGroup) (block : EncodedMediaBlock) (self : MediaPlanState)
    (datagramIndex : ℕ) : Except MediaPlanState MediaPlanState :=
  if self.admitted = policy.maxDatagramsPerPlan then .error self.limitReached
  else
    .ok { self with
      admitted := self.admitted + 1
      plan := place policy state readyAtUs capacity self.plan (group.candidate block datagramIndex) }

/-- The middle loop body. -/
def visitBlock (group : MediaCandidateGroup) (self : MediaPlanState) (block : EncodedMediaBlock) :
    Except MediaPlanState MediaPlanState :=
  if self.blockVisits = hardMaxBlockVisitsPerPlan then .error self.limitReached
  else
    (group.indices block).foldlM (visitDatagram policy state readyAtUs capacity group block)
      { self with blockVisits := self.blockVisits + 1 }

/-- The outer loop body. -/
def visitGroup (self : MediaPlanState) (group : MediaCandidateGroup) :
    Except MediaPlanState MediaPlanState :=
  group.frame.blocks.foldlM (visitBlock policy state readyAtUs capacity group) self

end MediaPlanState

/-- The groups of the frames that are scanned, in the order of the plan. -/
def sortedGroups (frames : List MediaFrameSchedule) (readyAtUs : UInt64) :
    List MediaCandidateGroup :=
  ((frames.take hardMaxFramesScannedPerPlan).flatMap MediaFrameSchedule.groups).insertionSort
    fun a b => a.sortKey readyAtUs ≤ b.sortKey readyAtUs

/-- `plan_media_datagrams_with_deadlines`. -/
def planMediaDatagramsWithDeadlines (frames : List MediaFrameSchedule) (policy : MediaSendPolicy)
    (state : MediaScheduleState) : MediaSendPlan :=
  let policy := policy.normalized
  let readyAtUs := satAdd state.nowUs state.queueDelayUs
  let frameScanLimitReached := ! (frames.drop hardMaxFramesScannedPerPlan).isEmpty
  let capacity := policy.maxInFlightDatagrams - state.inFlightDatagrams
  let plan : MediaSendPlan := ⟨[], [], 0, frameScanLimitReached⟩
  let final := finalState ((sortedGroups frames readyAtUs).foldlM
    (MediaPlanState.visitGroup policy state readyAtUs capacity) ⟨plan, 0, 0⟩)
  final.plan

end RaptorFec
