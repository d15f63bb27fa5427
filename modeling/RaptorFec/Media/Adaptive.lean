import RaptorFec.Datagram.Encoder

/-!
# The adaptive controller

`AdaptiveFecController` picks the symbol size and the repair count of a media frame from a policy
and the current network metrics.  The `f32` arithmetic is that of `Float32`; nothing below it
depends on what it computes, only on the bounds around it:

* `symbolSizeForPayload_pos` — the symbol size is positive whatever the policy;
* `repairSymbolsFor_of_eq` — the policy's bounds on the repair count hold whatever the metrics.
-/

namespace RaptorFec

inductive MediaPriority where
  | audio
  | videoKey
  | videoDelta
  | data
  deriving DecidableEq, Repr

/-- The metrics that enter the decisions on single frames. -/
structure NetworkMetrics where
  lossFraction : Float32
  jitterMs : Float32
  queueDelayMs : Float32

structure AdaptiveFecPolicy where
  minSourceSymbols : UInt16
  maxSourceSymbols : UInt16
  minRepairSymbols : UInt32
  maxRepairSymbols : UInt32
  deltaRepairFloorSourceSymbols : UInt16
  deltaRepairFloorSymbols : UInt32
  lossRepairSafetySymbols : UInt32
  minRepairRatio : Float32
  maxRepairRatio : Float32
  keyframeRepairBoost : Float32
  audioRepairBoost : Float32
  symbolSize : UInt16

/-- `FecDecision`. -/
structure FecDecision where
  config : DatagramFecConfig
  repairRatio : Float32
  sourceSymbolsForPayload : UInt16
  expectedDatagrams : UInt32

structure AdaptiveFecController where
  policy : AdaptiveFecPolicy
  metrics : NetworkMetrics

/-- `f32::max`, which ignores a NaN. -/
def maxF32 (a b : Float32) : Float32 := if a.isNaN then b else if a < b then b else a

/-- `f32::clamp`. -/
def clampF32 (x lo hi : Float32) : Float32 := if x < lo then lo else if hi < x then hi else x

/-- `AdaptiveFecPolicy::default`. -/
def AdaptiveFecPolicy.default : AdaptiveFecPolicy where
  minSourceSymbols := 4
  maxSourceSymbols := 48
  minRepairSymbols := 0
  maxRepairSymbols := 16
  deltaRepairFloorSourceSymbols := 8
  deltaRepairFloorSymbols := 1
  lossRepairSafetySymbols := 1
  minRepairRatio := 0.05
  maxRepairRatio := 0.35
  keyframeRepairBoost := 0.10
  audioRepairBoost := 0.08
  symbolSize := 1316

/-- `AdaptiveFecPolicy::normalized`. -/
def AdaptiveFecPolicy.normalized (self : AdaptiveFecPolicy) : AdaptiveFecPolicy :=
  let minSourceSymbols := max self.minSourceSymbols 1
  let minRepairRatio := maxF32 self.minRepairRatio 0
  { minSourceSymbols := minSourceSymbols
    maxSourceSymbols := max self.maxSourceSymbols minSourceSymbols
    minRepairSymbols := min self.minRepairSymbols self.maxRepairSymbols
    maxRepairSymbols := self.maxRepairSymbols
    deltaRepairFloorSourceSymbols := max self.deltaRepairFloorSourceSymbols 1
    deltaRepairFloorSymbols := min self.deltaRepairFloorSymbols self.maxRepairSymbols
    lossRepairSafetySymbols := min self.lossRepairSafetySymbols self.maxRepairSymbols
    minRepairRatio := minRepairRatio
    maxRepairRatio := maxF32 self.maxRepairRatio minRepairRatio
    keyframeRepairBoost := maxF32 self.keyframeRepairBoost 0
    audioRepairBoost := maxF32 self.audioRepairBoost 0
    symbolSize := max self.symbolSize 1 }

namespace AdaptiveFecController

/-- `AdaptiveFecController::new`, with the default metrics. -/
def new (policy : AdaptiveFecPolicy) : AdaptiveFecController := ⟨policy.normalized, 0, 0, 0⟩

variable (self : AdaptiveFecController)

/-- `symbol_size_for_payload`. -/
def symbolSizeForPayload (payloadLen : ℕ) (priority : MediaPriority) : UInt16 :=
  let configured := max self.policy.symbolSize 1
  if priority ≠ .audio then configured
  else min configured (UInt16.ofNat (max 1 (min payloadLen (2 ^ 16 - 1))))

/-- `repair_ratio`. -/
def repairRatio (priority : MediaPriority) : Float32 :=
  let loss := clampF32 self.metrics.lossFraction 0 1
  let jitterPressure :=
    if self.metrics.jitterMs ≤ 0 then 0 else clampF32 (self.metrics.jitterMs / 80) 0 1 * 0.04
  let queuePressure :=
    if self.metrics.queueDelayMs ≤ 0 then 0
    else clampF32 (self.metrics.queueDelayMs / 200) 0 1 * 0.04
  let priorityBoost := match priority with
    | .audio => self.policy.audioRepairBoost
    | .videoKey => self.policy.keyframeRepairBoost
    | .videoDelta | .data => 0
  clampF32 (self.policy.minRepairRatio + loss * 1.5 + jitterPressure + queuePressure
    + priorityBoost) self.policy.minRepairRatio self.policy.maxRepairRatio

/-- `repair_symbols_for`. -/
def repairSymbolsFor (sourceSymbols : UInt16) (priority : MediaPriority) : UInt32 :=
  let sourceSymbols := max sourceSymbols 1
  let repairRatio := self.repairRatio priority
  let rawRepair := sourceSymbols.toFloat32 * repairRatio
  let repair : UInt32 :=
    if rawRepair < 1 then
      if priority = .audio ∧ 0 < self.metrics.lossFraction then 1
      else if priority = .videoKey ∧ self.policy.minRepairRatio < repairRatio then 1
      else 0
    else rawRepair.ceil.toUInt32
  let mediaFloor :=
    if priority = .videoDelta ∧ self.policy.deltaRepairFloorSourceSymbols ≤ sourceSymbols then
      self.policy.deltaRepairFloorSymbols
    else 0
  let repair := max (max repair self.policy.minRepairSymbols) mediaFloor
  let tailSafetyEligible := (priority = .audio ∨ priority = .videoKey) ∨
    self.policy.deltaRepairFloorSourceSymbols ≤ sourceSymbols
  let lossSafety :=
    if 0 < self.metrics.lossFraction ∧ tailSafetyEligible then
      self.policy.lossRepairSafetySymbols
    else 0
  min (satAdd32 repair lossSafety) self.policy.maxRepairSymbols

/-- `decide`. -/
def decide (payloadLen : ℕ) (priority : MediaPriority) : FecDecision :=
  let symbolSize := self.symbolSizeForPayload payloadLen priority
  let sourceSymbolsForPayload := sourceSymbolCount payloadLen symbolSize
  let sourceSymbols :=
    min (max sourceSymbolsForPayload self.policy.minSourceSymbols) self.policy.maxSourceSymbols
  let repairSymbols := self.repairSymbolsFor sourceSymbolsForPayload priority
  { config := ⟨sourceSymbols, repairSymbols, symbolSize⟩
    repairRatio := self.repairRatio priority
    sourceSymbolsForPayload := sourceSymbolsForPayload
    expectedDatagrams := sourceSymbolsForPayload.toUInt32 + repairSymbols }

/-! ## Bounds -/

variable {self}

/-- The symbol size is positive whatever the policy. -/
lemma symbolSizeForPayload_pos (payloadLen : ℕ) (priority : MediaPriority) :
    0 < (self.symbolSizeForPayload payloadLen priority).toNat := by
  have hconfigured : 0 < (max self.policy.symbolSize 1).toNat := max_one_pos _
  rw [symbolSizeForPayload]
  split_ifs
  · exact hconfigured
  · rw [UInt16.toNat_min, UInt16.toNat_ofNat_of_lt' (by simp only [UInt16.size]; omega)]
    omega

variable (self) in
lemma repairSymbolsFor_le (sourceSymbols : UInt16) (priority : MediaPriority) :
    (self.repairSymbolsFor sourceSymbols priority).toNat ≤ self.policy.maxRepairSymbols.toNat := by
  rw [repairSymbolsFor]
  simp only [UInt32.toNat_min]
  exact Nat.min_le_right _ _

variable (self) in
lemma le_repairSymbolsFor (sourceSymbols : UInt16) (priority : MediaPriority) :
    min self.policy.minRepairSymbols.toNat self.policy.maxRepairSymbols.toNat
      ≤ (self.repairSymbolsFor sourceSymbols priority).toNat := by
  have hmin := self.policy.minRepairSymbols.toNat_lt
  rw [repairSymbolsFor]
  simp only [UInt32.toNat_min, toNat_satAdd32, UInt32.toNat_max]
  omega

/-- A policy that leaves no choice of the repair count fixes it. -/
lemma repairSymbolsFor_of_eq (h : self.policy.minRepairSymbols = self.policy.maxRepairSymbols)
    (sourceSymbols : UInt16) (priority : MediaPriority) :
    self.repairSymbolsFor sourceSymbols priority = self.policy.maxRepairSymbols := by
  have hle := repairSymbolsFor_le self sourceSymbols priority
  have hge := le_repairSymbolsFor self sourceSymbols priority
  rw [h, Nat.min_self] at hge
  exact UInt32.toNat_inj.mp (Nat.le_antisymm hle hge)

/-- A controller that leaves no choice for other than audio frames. -/
def fixed (sourceSymbols symbolSize : UInt16) (repairSymbols : UInt32) : AdaptiveFecController :=
  new { AdaptiveFecPolicy.default with
    minSourceSymbols := sourceSymbols
    maxSourceSymbols := sourceSymbols
    minRepairSymbols := repairSymbols
    maxRepairSymbols := repairSymbols
    symbolSize := symbolSize }

section Fixed

variable {sourceSymbols symbolSize : UInt16} {repairSymbols : UInt32}

lemma repairSymbolsFor_fixed (count : UInt16) (priority : MediaPriority) :
    (fixed sourceSymbols symbolSize repairSymbols).repairSymbolsFor count priority
      = repairSymbols := by
  have hpolicy : (fixed sourceSymbols symbolSize repairSymbols).policy.minRepairSymbols
      = (fixed sourceSymbols symbolSize repairSymbols).policy.maxRepairSymbols :=
    UInt32.toNat_inj.mp (by
      change (min repairSymbols repairSymbols).toNat = repairSymbols.toNat
      rw [UInt32.toNat_min, Nat.min_self])
  exact repairSymbolsFor_of_eq hpolicy count priority

variable (repairSymbols) in
lemma decide_fixed (hsource : 0 < sourceSymbols.toNat) (hsize : 0 < symbolSize.toNat)
    (payloadLen : ℕ) {priority : MediaPriority} (hpriority : priority ≠ .audio) :
    ((fixed sourceSymbols symbolSize repairSymbols).decide payloadLen priority).config
      = ⟨sourceSymbols, repairSymbols, symbolSize⟩ := by
  have hsymbol : (fixed sourceSymbols symbolSize repairSymbols).symbolSizeForPayload payloadLen
      priority = symbolSize := by
    rw [symbolSizeForPayload, if_pos hpriority]
    change max (max symbolSize 1) 1 = symbolSize
    rw [max_one_eq hsize, max_one_eq hsize]
  have hcount : ∀ count : UInt16,
      min (max count (max sourceSymbols 1)) (max sourceSymbols (max sourceSymbols 1))
        = sourceSymbols := by
    intro count
    refine UInt16.toNat_inj.mp ?_
    rw [max_one_eq hsource, UInt16.toNat_min, UInt16.toNat_max, UInt16.toNat_max]
    omega
  rw [decide]
  simp only [hsymbol, repairSymbolsFor_fixed]
  exact congrArg (DatagramFecConfig.mk · repairSymbols symbolSize) (hcount _)

end Fixed

end AdaptiveFecController

end RaptorFec
