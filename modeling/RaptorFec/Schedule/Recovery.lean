import RaptorFec.Datagram.Repair
import RaptorFec.Schedule.Plan

/-!
# Recovery decisions

An incomplete object is completed by repair symbols of the secondary path, else by fetching it
whole, else it expires.  The estimates are saturating sums.

**Estimates.**  `estimateFits_iff` says when a saturated estimate fits: when it fits in exact
integers, or when the remaining time is `u64::MAX` itself, which no saturated sum exceeds.

**Decisions.**  `decideMediaRecovery_cases` lists what is decided, in exact integers.  A decision is
`DeadlineSafe` when it is the one exact integers lead to; `decideMediaRecovery_deadlineSafe_iff`
says when that is so: unless the remaining time is `u64::MAX` and the estimate that is looked at
runs beyond it.
-/

namespace RaptorFec

structure MediaRecoveryPolicy where
  maxExtraRepairSymbols : UInt32
  repairSafetySymbols : UInt32
  deadlineSafetyMarginUs : UInt64
  deriving DecidableEq, Repr

/-- `MediaRecoveryPolicy::default`. -/
def MediaRecoveryPolicy.default : MediaRecoveryPolicy := ⟨64, 1, 1000⟩

def MediaRecoveryPolicy.normalized (self : MediaRecoveryPolicy) : MediaRecoveryPolicy :=
  { self with
    maxExtraRepairSymbols := min self.maxExtraRepairSymbols hardMaxExtraRepairSymbols
    repairSafetySymbols := min self.repairSafetySymbols hardMaxExtraRepairSymbols }

structure MediaRecoveryInput where
  nowUs : UInt64
  deadline : MediaDeadline
  uncoveredSourceSymbols : UInt32
  secondaryRttUs : UInt64
  secondaryQueueDelayUs : UInt64
  repairSymbolSpacingUs : UInt64
  reliableFetchEstimateUs : Option UInt64
  deriving DecidableEq, Repr

inductive MediaRecoveryAction where
  | noRecoveryNeeded
  | sendRaptorQRepair (repairSymbols : UInt32) (pathIntent : MediaPathIntent)
  | reliableFetch (pathIntent : MediaPathIntent)
  | expire
  deriving DecidableEq, Repr

structure MediaRecoveryDecision where
  action : MediaRecoveryAction
  remainingUs : UInt64
  estimatedArrivalAtUs : Option UInt64
  estimatedHeadroomUs : Option UInt64
  deriving DecidableEq, Repr

def estimateFits (estimateUs remainingUs safetyMarginUs : UInt64) : Prop :=
  satAdd estimateUs (max safetyMarginUs 1) ≤ remainingUs

instance (estimateUs remainingUs safetyMarginUs : UInt64) :
    Decidable (estimateFits estimateUs remainingUs safetyMarginUs) :=
  inferInstanceAs (Decidable (_ ≤ _))

def expiredRecoveryDecision : MediaRecoveryDecision := ⟨.expire, 0, none, none⟩

/-- The decision to recover by an arrival. -/
def MediaRecoveryInput.recoverBy (input : MediaRecoveryInput) (action : MediaRecoveryAction)
    (remainingUs estimateUs : UInt64) : MediaRecoveryDecision :=
  let arrivalAtUs := satAdd input.nowUs estimateUs
  { action := action
    remainingUs := remainingUs
    estimatedArrivalAtUs := some arrivalAtUs
    estimatedHeadroomUs :=
      (checkedSub input.deadline.expiresAtUs arrivalAtUs).filter fun headroom => 0 < headroom }

/-- `decide_media_recovery`. -/
def decideMediaRecovery (policy : MediaRecoveryPolicy) (input : MediaRecoveryInput) :
    MediaRecoveryDecision :=
  if input.uncoveredSourceSymbols = 0 then
    { action := .noRecoveryNeeded
      remainingUs := satSub input.deadline.expiresAtUs input.nowUs
      estimatedArrivalAtUs := some input.nowUs
      estimatedHeadroomUs := input.deadline.remainingUsAt input.nowUs }
  else
    match input.deadline.remainingUsAt input.nowUs with
    | none => expiredRecoveryDecision
    | some remainingUs =>
        let policy := policy.normalized
        let repairSymbols := satAdd32 input.uncoveredSourceSymbols policy.repairSafetySymbols
        let repairBurstUs := satMul (satSub32 repairSymbols 1).toUInt64 input.repairSymbolSpacingUs
        let fecEstimateUs := satAdd (satAdd input.secondaryRttUs input.secondaryQueueDelayUs)
          repairBurstUs
        if repairSymbols ≤ policy.maxExtraRepairSymbols ∧
            estimateFits fecEstimateUs remainingUs policy.deadlineSafetyMarginUs then
          input.recoverBy (.sendRaptorQRepair repairSymbols .secondaryRepair) remainingUs
            fecEstimateUs
        else
          match input.reliableFetchEstimateUs with
          | some fetchEstimateUs =>
              if estimateFits fetchEstimateUs remainingUs policy.deadlineSafetyMarginUs then
                input.recoverBy (.reliableFetch .reliableObjectFetch) remainingUs fetchEstimateUs
              else { expiredRecoveryDecision with remainingUs := remainingUs }
          | none => { expiredRecoveryDecision with remainingUs := remainingUs }

/-! ## Estimates -/

/-- **When a saturated estimate fits.** -/
lemma estimateFits_iff {estimateUs remainingUs safetyMarginUs : UInt64} {exact : ℕ}
    (h : estimateUs.toNat = min exact (2 ^ 64 - 1)) :
    estimateFits estimateUs remainingUs safetyMarginUs
      ↔ exact + max safetyMarginUs.toNat 1 ≤ remainingUs.toNat
        ∨ remainingUs.toNat = 2 ^ 64 - 1 := by
  have hmax := remainingUs.toNat_lt
  have hone : (1 : UInt64).toNat = 1 := rfl
  rw [estimateFits, UInt64.le_iff_toNat_le, toNat_satAdd, UInt64.toNat_max, h, hone]
  omega

namespace MediaRecoveryPolicy

variable (policy : MediaRecoveryPolicy) (input : MediaRecoveryInput)

/-- The number of repair symbols that are needed. -/
def symbols : ℕ :=
  input.uncoveredSourceSymbols.toNat + min policy.repairSafetySymbols.toNat 4096

/-- The number of repair symbols that are allowed. -/
def symbolLimit : ℕ := min policy.maxExtraRepairSymbols.toNat 4096

def margin : ℕ := max policy.deadlineSafetyMarginUs.toNat 1

/-- The time the last repair symbol arrives at. -/
def repairArrival : ℕ :=
  input.nowUs.toNat + input.secondaryRttUs.toNat + input.secondaryQueueDelayUs.toNat
    + (policy.symbols input - 1) * input.repairSymbolSpacingUs.toNat

/-- Repair is allowed and in time. -/
def RepairFits : Prop :=
  policy.symbols input ≤ policy.symbolLimit ∧
    policy.repairArrival input + policy.margin ≤ input.deadline.expiresAtUs.toNat

/-- A fetch is in time. -/
def FetchFits (fetchEstimateUs : UInt64) : Prop :=
  input.nowUs.toNat + fetchEstimateUs.toNat + policy.margin ≤ input.deadline.expiresAtUs.toNat

/-- The remaining time is the saturated one, and the estimate that is looked at is beyond it. -/
def Saturates : Prop :=
  input.nowUs.toNat = 0 ∧ input.deadline.expiresAtUs.toNat = 2 ^ 64 - 1 ∧
    ((policy.symbols input ≤ policy.symbolLimit ∧ ¬ policy.RepairFits input) ∨
      (policy.symbolLimit < policy.symbols input ∧
        ∃ fetchEstimateUs, input.reliableFetchEstimateUs = some fetchEstimateUs ∧
          ¬ policy.FetchFits input fetchEstimateUs))

end MediaRecoveryPolicy

/-! ## Decisions -/

open MediaRecoveryPolicy in
/-- The decision is the one exact integers lead to. -/
structure DeadlineSafe (policy : MediaRecoveryPolicy) (input : MediaRecoveryInput)
    (decision : MediaRecoveryDecision) : Prop where
  repair_iff : ∀ repairSymbols : UInt32,
    decision.action = .sendRaptorQRepair repairSymbols .secondaryRepair
      ↔ repairSymbols.toNat = policy.symbols input ∧ policy.RepairFits input
  fetch_iff : decision.action = .reliableFetch .reliableObjectFetch
    ↔ ¬ policy.RepairFits input ∧
      ∃ fetchEstimateUs, input.reliableFetchEstimateUs = some fetchEstimateUs ∧
        policy.FetchFits input fetchEstimateUs
  expire_iff : decision.action = .expire
    ↔ ¬ policy.RepairFits input ∧
      ∀ fetchEstimateUs, input.reliableFetchEstimateUs = some fetchEstimateUs →
        ¬ policy.FetchFits input fetchEstimateUs
  /-- An arrival that is reported is exact, and the headroom is what is left of the time. -/
  arrival : ∀ arrivalAtUs, decision.estimatedArrivalAtUs = some arrivalAtUs →
    (decision.action ≠ .expire ∧
      (∀ repairSymbols pathIntent,
        decision.action = .sendRaptorQRepair repairSymbols pathIntent →
          arrivalAtUs.toNat = policy.repairArrival input) ∧
      (∀ pathIntent fetchEstimateUs, decision.action = .reliableFetch pathIntent →
        input.reliableFetchEstimateUs = some fetchEstimateUs →
          arrivalAtUs.toNat = input.nowUs.toNat + fetchEstimateUs.toNat)) ∧
    ∃ headroomUs, decision.estimatedHeadroomUs = some headroomUs ∧
      (headroomUs.toNat : ℤ) = input.deadline.expiresAtUs.toNat - arrivalAtUs.toNat ∧
      policy.margin ≤ headroomUs.toNat

section Cases

variable (policy : MediaRecoveryPolicy) (input : MediaRecoveryInput)

/-- The remaining time is the saturated one. -/
def MediaRecoveryInput.Unlimited : Prop :=
  input.nowUs.toNat = 0 ∧ input.deadline.expiresAtUs.toNat = 2 ^ 64 - 1

/-- An estimate fits into the time that remains in exact integers, or the time is unlimited. -/
lemma estimateFits_remaining {estimateUs remainingUs : UInt64} {exact : ℕ}
    (hestimate : estimateUs.toNat = min exact (2 ^ 64 - 1))
    (hremaining : input.deadline.remainingUsAt input.nowUs = some remainingUs) :
    estimateFits estimateUs remainingUs policy.normalized.deadlineSafetyMarginUs
      ↔ input.nowUs.toNat + exact + policy.margin ≤ input.deadline.expiresAtUs.toNat
        ∨ input.Unlimited := by
  rw [MediaDeadline.remainingUsAt] at hremaining
  split_ifs at hremaining with hlive
  obtain rfl := Option.some.inj hremaining
  have hmax := input.deadline.expiresAtUs.toNat_lt
  have hsub := UInt64.toNat_sub_of_le _ _ (UInt64.le_of_lt hlive)
  have hmargin : max policy.normalized.deadlineSafetyMarginUs.toNat 1 = policy.margin := rfl
  rw [UInt64.lt_iff_toNat_lt] at hlive
  rw [estimateFits_iff hestimate, hsub, hmargin, MediaRecoveryInput.Unlimited]
  omega

/-- A decision to recover by an arrival that fits is exact. -/
lemma recoverBy_exact (action : MediaRecoveryAction) (remainingUs : UInt64) {estimateUs : UInt64}
    {exact : ℕ} (hestimate : estimateUs.toNat = min exact (2 ^ 64 - 1))
    (hfits : input.nowUs.toNat + exact + policy.margin ≤ input.deadline.expiresAtUs.toNat) :
    ∃ arrivalAtUs headroomUs,
      input.recoverBy action remainingUs estimateUs
        = ⟨action, remainingUs, some arrivalAtUs, some headroomUs⟩ ∧
      arrivalAtUs.toNat = input.nowUs.toNat + exact ∧
      headroomUs.toNat = input.deadline.expiresAtUs.toNat - arrivalAtUs.toNat ∧
      policy.margin ≤ headroomUs.toNat := by
  have hmax := input.deadline.expiresAtUs.toNat_lt
  have hpos : 1 ≤ policy.margin := Nat.le_max_right _ _
  have harrival : (satAdd input.nowUs estimateUs).toNat = input.nowUs.toNat + exact := by
    rw [toNat_satAdd, hestimate]
    omega
  have hle : satAdd input.nowUs estimateUs ≤ input.deadline.expiresAtUs := by
    rw [UInt64.le_iff_toNat_le, harrival]
    omega
  have hsub := UInt64.toNat_sub_of_le _ _ hle
  have hheadroom : 0 < input.deadline.expiresAtUs - satAdd input.nowUs estimateUs := by
    rw [UInt64.lt_iff_toNat_lt, hsub, harrival]
    change 0 < _
    omega
  refine ⟨_, _, ?_, harrival, hsub, by omega⟩
  rw [MediaRecoveryInput.recoverBy, checkedSub, if_pos hle]
  simp [hheadroom]

/-- The saturated number of repair symbols is compared like the exact one. -/
lemma repairSymbols_le_iff :
    satAdd32 input.uncoveredSourceSymbols policy.normalized.repairSafetySymbols
        ≤ policy.normalized.maxExtraRepairSymbols
      ↔ policy.symbols input ≤ policy.symbolLimit := by
  have hhard : hardMaxExtraRepairSymbols.toNat = 4096 := rfl
  rw [UInt32.le_iff_toNat_le, toNat_satAdd32]
  simp only [MediaRecoveryPolicy.normalized, UInt32.toNat_min, hhard, MediaRecoveryPolicy.symbols,
    MediaRecoveryPolicy.symbolLimit]
  omega

/-- When it is allowed, it is exact. -/
lemma toNat_repairSymbols (h : policy.symbols input ≤ policy.symbolLimit) :
    (satAdd32 input.uncoveredSourceSymbols policy.normalized.repairSafetySymbols).toNat
      = policy.symbols input := by
  have hhard : hardMaxExtraRepairSymbols.toNat = 4096 := rfl
  rw [MediaRecoveryPolicy.symbolLimit] at h
  rw [toNat_satAdd32]
  simp only [MediaRecoveryPolicy.normalized, UInt32.toNat_min, hhard, MediaRecoveryPolicy.symbols]
    at h ⊢
  omega

/-- The saturated estimate of a repair that is allowed. -/
lemma toNat_fecEstimateUs (h : policy.symbols input ≤ policy.symbolLimit) :
    (satAdd (satAdd input.secondaryRttUs input.secondaryQueueDelayUs)
        (satMul (satSub32 (satAdd32 input.uncoveredSourceSymbols
          policy.normalized.repairSafetySymbols) 1).toUInt64 input.repairSymbolSpacingUs)).toNat
      = min (input.secondaryRttUs.toNat + input.secondaryQueueDelayUs.toNat
          + (policy.symbols input - 1) * input.repairSymbolSpacingUs.toNat) (2 ^ 64 - 1) := by
  have hcount := toNat_repairSymbols policy input h
  have hone : (1 : UInt32).toNat = 1 := rfl
  have hburst : (satSub32 (satAdd32 input.uncoveredSourceSymbols
      policy.normalized.repairSafetySymbols) 1).toUInt64.toNat = policy.symbols input - 1 := by
    rw [UInt32.toNat_toUInt64, satSub32]
    split_ifs with hle
    · rw [UInt32.toNat_sub_of_le _ _ hle, hcount, hone]
    · rw [UInt32.le_iff_toNat_le, hcount, hone] at hle
      change 0 = _
      omega
  rw [toNat_satAdd, toNat_satAdd, toNat_satMul, hburst]
  omega

/-- The test of the scheduler: repair is allowed, and in time or without limit. -/
def MediaRecoveryPolicy.RepairTaken : Prop :=
  policy.symbols input ≤ policy.symbolLimit ∧
    (policy.repairArrival input + policy.margin ≤ input.deadline.expiresAtUs.toNat
      ∨ input.Unlimited)

/-- **What is decided** about an object with symbols missing. -/
theorem decideMediaRecovery_cases (hmissing : 0 < input.uncoveredSourceSymbols) :
    ∃ remainingUs,
      (policy.RepairTaken input ∧ ∃ repairSymbols estimateUs,
        repairSymbols.toNat = policy.symbols input ∧
        estimateUs.toNat = min (input.secondaryRttUs.toNat + input.secondaryQueueDelayUs.toNat
          + (policy.symbols input - 1) * input.repairSymbolSpacingUs.toNat) (2 ^ 64 - 1) ∧
        decideMediaRecovery policy input = input.recoverBy
          (.sendRaptorQRepair repairSymbols .secondaryRepair) remainingUs estimateUs) ∨
      (¬ policy.RepairTaken input ∧ ∃ fetchEstimateUs,
        input.reliableFetchEstimateUs = some fetchEstimateUs ∧
        (policy.FetchFits input fetchEstimateUs ∨ input.Unlimited) ∧
        decideMediaRecovery policy input = input.recoverBy
          (.reliableFetch .reliableObjectFetch) remainingUs fetchEstimateUs) ∨
      (¬ policy.RepairTaken input ∧
        (∀ fetchEstimateUs, input.reliableFetchEstimateUs = some fetchEstimateUs →
          ¬ (policy.FetchFits input fetchEstimateUs ∨ input.Unlimited)) ∧
        decideMediaRecovery policy input
          = { expiredRecoveryDecision with remainingUs := remainingUs }) := by
  have hne : input.uncoveredSourceSymbols ≠ 0 := (UInt32.ne_of_lt hmissing).symm
  rw [decideMediaRecovery, if_neg hne]
  cases hremaining : input.deadline.remainingUsAt input.nowUs with
  | none =>
      have hover : input.deadline.expiresAtUs.toNat ≤ input.nowUs.toNat := by
        rw [MediaDeadline.remainingUsAt] at hremaining
        split_ifs at hremaining with hlive
        rw [UInt64.lt_iff_toNat_lt] at hlive
        omega
      have hpos : 1 ≤ policy.margin := Nat.le_max_right _ _
      have hlimited : ¬ input.Unlimited := by
        rw [MediaRecoveryInput.Unlimited]
        omega
      refine ⟨0, Or.inr (Or.inr ⟨?_, fun fetchEstimateUs _ => ?_, rfl⟩)⟩
      · rintro ⟨-, hfits | hunlimited⟩
        · rw [MediaRecoveryPolicy.repairArrival] at hfits
          omega
        · exact hlimited hunlimited
      · rintro (hfits | hunlimited)
        · rw [MediaRecoveryPolicy.FetchFits] at hfits
          omega
        · exact hlimited hunlimited
  | some remainingUs =>
      have htaken : (satAdd32 input.uncoveredSourceSymbols policy.normalized.repairSafetySymbols
            ≤ policy.normalized.maxExtraRepairSymbols ∧
          estimateFits (satAdd (satAdd input.secondaryRttUs input.secondaryQueueDelayUs)
            (satMul (satSub32 (satAdd32 input.uncoveredSourceSymbols
              policy.normalized.repairSafetySymbols) 1).toUInt64 input.repairSymbolSpacingUs))
            remainingUs policy.normalized.deadlineSafetyMarginUs)
          ↔ policy.RepairTaken input := by
        rw [repairSymbols_le_iff]
        refine and_congr_right fun hallowed => ?_
        rw [estimateFits_remaining policy input (toNat_fecEstimateUs policy input hallowed)
          hremaining, MediaRecoveryPolicy.repairArrival, ← Nat.add_assoc, ← Nat.add_assoc]
      have hfetch : ∀ fetchEstimateUs,
          estimateFits fetchEstimateUs remainingUs policy.normalized.deadlineSafetyMarginUs
            ↔ policy.FetchFits input fetchEstimateUs ∨ input.Unlimited := by
        intro fetchEstimateUs
        have hmax := fetchEstimateUs.toNat_lt
        have hself : fetchEstimateUs.toNat = min fetchEstimateUs.toNat (2 ^ 64 - 1) := by omega
        exact estimateFits_remaining policy input hself hremaining
      refine ⟨remainingUs, ?_⟩
      simp only
      split_ifs with hrepair
      all_goals rw [htaken] at hrepair
      · exact Or.inl ⟨hrepair, _, _, toNat_repairSymbols policy input hrepair.1,
          toNat_fecEstimateUs policy input hrepair.1, rfl⟩
      · cases hestimate : input.reliableFetchEstimateUs with
        | none => exact Or.inr (Or.inr ⟨hrepair, nofun, rfl⟩)
        | some fetchEstimateUs =>
            simp only
            split_ifs with hfits
            all_goals rw [hfetch] at hfits
            · exact Or.inr (Or.inl ⟨hrepair, fetchEstimateUs, rfl, hfits, rfl⟩)
            · refine Or.inr (Or.inr ⟨hrepair, ?_, rfl⟩)
              rintro _ ⟨⟩
              exact hfits

variable {policy input}

/-- Without saturation the test for a repair is exact. -/
lemma repairTaken_iff (hsaturates : ¬ policy.Saturates input) :
    policy.RepairTaken input ↔ policy.RepairFits input := by
  refine ⟨?_, fun hfits => ⟨hfits.1, Or.inl hfits.2⟩⟩
  rintro ⟨hallowed, hfits | hunlimited⟩
  · exact ⟨hallowed, hfits⟩
  · by_contra hbeyond
    exact hsaturates ⟨hunlimited.1, hunlimited.2, Or.inl ⟨hallowed, hbeyond⟩⟩

/-- Without saturation the test for a fetch is exact, where it is reached. -/
lemma fetchTaken_iff (hsaturates : ¬ policy.Saturates input) (hrepair : ¬ policy.RepairTaken input)
    {fetchEstimateUs : UInt64} (hfetch : input.reliableFetchEstimateUs = some fetchEstimateUs) :
    policy.FetchFits input fetchEstimateUs ∨ input.Unlimited
      ↔ policy.FetchFits input fetchEstimateUs := by
  refine ⟨?_, Or.inl⟩
  rintro (hfits | hunlimited)
  · exact hfits
  · by_contra hbeyond
    have hover : policy.symbolLimit < policy.symbols input := by
      by_contra hle
      exact hrepair ⟨Nat.le_of_not_lt hle, Or.inr hunlimited⟩
    exact hsaturates ⟨hunlimited.1, hunlimited.2, Or.inr ⟨hover, fetchEstimateUs, hfetch, hbeyond⟩⟩

/-- Without saturation the decision is the one exact integers lead to. -/
lemma deadlineSafe_of_not_saturates (hmissing : 0 < input.uncoveredSourceSymbols)
    (hsaturates : ¬ policy.Saturates input) :
    DeadlineSafe policy input (decideMediaRecovery policy input) := by
  have hpos : 1 ≤ policy.margin := Nat.le_max_right _ _
  obtain ⟨remainingUs, ⟨hrepair, repairSymbols, estimateUs, hsymbols, hestimate, hdecision⟩ |
    ⟨hrepair, fetchEstimateUs, hfetch, hfits, hdecision⟩ | ⟨hrepair, hfetch, hdecision⟩⟩ :=
    decideMediaRecovery_cases policy input hmissing
  · rw [repairTaken_iff hsaturates] at hrepair
    have harrival : input.nowUs.toNat + (input.secondaryRttUs.toNat
        + input.secondaryQueueDelayUs.toNat
        + (policy.symbols input - 1) * input.repairSymbolSpacingUs.toNat)
        = policy.repairArrival input := by
      rw [MediaRecoveryPolicy.repairArrival, Nat.add_assoc, Nat.add_assoc, Nat.add_assoc]
    have hfits := hrepair.2
    rw [← harrival] at hfits
    obtain ⟨arrivalAtUs, headroomUs, hrecover, hexact, hheadroom, hmargin⟩ := recoverBy_exact policy
      input (.sendRaptorQRepair repairSymbols .secondaryRepair) remainingUs hestimate hfits
    rw [hdecision, hrecover]
    refine ⟨fun n => ⟨?_, ?_⟩, by simp [hrepair], by simp [hrepair], ?_⟩
    · rintro ⟨⟩
      exact ⟨hsymbols, hrepair⟩
    · rintro ⟨hn, -⟩
      simp only [MediaRecoveryAction.sendRaptorQRepair.injEq, and_true]
      exact UInt32.toNat_inj.mp (hsymbols.trans hn.symm)
    · rintro _ ⟨⟩
      refine ⟨⟨nofun, fun _ _ _ => hexact.trans harrival, nofun⟩, headroomUs, rfl, ?_, hmargin⟩
      omega
  · rw [fetchTaken_iff hsaturates hrepair hfetch] at hfits
    rw [repairTaken_iff hsaturates] at hrepair
    have hself : fetchEstimateUs.toNat = min fetchEstimateUs.toNat (2 ^ 64 - 1) := by
      have hmax := fetchEstimateUs.toNat_lt
      omega
    obtain ⟨arrivalAtUs, headroomUs, hrecover, hexact, hheadroom, hmargin⟩ := recoverBy_exact policy
      input (.reliableFetch .reliableObjectFetch) remainingUs hself hfits
    rw [hdecision, hrecover]
    refine ⟨by simp [hrepair], by simp [hrepair, hfetch, hfits], by simp [hrepair, hfetch, hfits],
      ?_⟩
    rintro _ ⟨⟩
    refine ⟨⟨nofun, nofun, ?_⟩, headroomUs, rfl, ?_, hmargin⟩
    · intro _ fetchEstimateUs' _ hfetch'
      obtain rfl := Option.some.inj (hfetch.symm.trans hfetch')
      exact hexact
    · omega
  · have hlate : ∀ fetchEstimateUs, input.reliableFetchEstimateUs = some fetchEstimateUs →
        ¬ policy.FetchFits input fetchEstimateUs := fun fetchEstimateUs hsome hfits =>
      hfetch fetchEstimateUs hsome (Or.inl hfits)
    rw [repairTaken_iff hsaturates] at hrepair
    rw [hdecision]
    refine ⟨fun n => ?_, ?_, ?_, nofun⟩
    · simp [expiredRecoveryDecision, hrepair]
    · simp only [expiredRecoveryDecision, reduceCtorEq, false_iff, not_and, not_exists]
      exact fun _ fetchEstimateUs hsome => hlate fetchEstimateUs hsome
    · simp only [expiredRecoveryDecision, true_iff]
      exact ⟨hrepair, hlate⟩

end Cases

/-- **When a decision is safe**: unless the remaining time is `u64::MAX` and the estimate that is
looked at is beyond it. -/
theorem decideMediaRecovery_deadlineSafe_iff (policy : MediaRecoveryPolicy)
    (input : MediaRecoveryInput) (hmissing : 0 < input.uncoveredSourceSymbols) :
    DeadlineSafe policy input (decideMediaRecovery policy input) ↔ ¬ policy.Saturates input := by
  refine ⟨?_, deadlineSafe_of_not_saturates hmissing⟩
  rintro hsafe ⟨hnow, hdeadline, hbeyond⟩
  have hunlimited : input.Unlimited := ⟨hnow, hdeadline⟩
  obtain ⟨remainingUs, ⟨hrepair, repairSymbols, estimateUs, hsymbols, -, hdecision⟩ |
    ⟨hrepair, fetchEstimateUs, hfetch, -, hdecision⟩ | ⟨hrepair, hfetch, -⟩⟩ :=
    decideMediaRecovery_cases policy input hmissing
  · have hfits := ((hsafe.repair_iff repairSymbols).mp (by rw [hdecision]; rfl)).2
    rcases hbeyond with ⟨-, hnot⟩ | ⟨hover, -⟩
    · exact hnot hfits
    · exact absurd hfits.1 (Nat.not_le.mpr hover)
  · rcases hbeyond with ⟨hallowed, -⟩ | ⟨-, fetchEstimateUs', hfetch', hnot⟩
    · exact hrepair ⟨hallowed, Or.inr hunlimited⟩
    · obtain ⟨-, fetchEstimateUs'', hfetch'', hfits⟩ := hsafe.fetch_iff.mp (by rw [hdecision]; rfl)
      obtain rfl := Option.some.inj (hfetch'.symm.trans hfetch'')
      exact hnot hfits
  · rcases hbeyond with ⟨hallowed, -⟩ | ⟨-, fetchEstimateUs, hsome, -⟩
    · exact hrepair ⟨hallowed, Or.inr hunlimited⟩
    · exact hfetch fetchEstimateUs hsome (Or.inr hunlimited)

/-- An object that is complete 5 ms from now, by two repair symbols. -/
theorem decideMediaRecovery_deadlineSafe_iff_sample :
    (DeadlineSafe MediaRecoveryPolicy.default ⟨1000, ⟨9000⟩, 1, 4000, 500, 500, none⟩
      (decideMediaRecovery MediaRecoveryPolicy.default ⟨1000, ⟨9000⟩, 1, 4000, 500, 500, none⟩)
      ↔ ¬ MediaRecoveryPolicy.default.Saturates ⟨1000, ⟨9000⟩, 1, 4000, 500, 500, none⟩) ∧
    (decideMediaRecovery MediaRecoveryPolicy.default ⟨1000, ⟨9000⟩, 1, 4000, 500, 500, none⟩).action
      = .sendRaptorQRepair 2 .secondaryRepair :=
  ⟨decideMediaRecovery_deadlineSafe_iff _ _ (by decide), by decide +kernel⟩

/-- A round trip of `u64::MAX` microseconds is taken to be in time for a deadline at `u64::MAX`:
the repair is sent, and arrives at the deadline, without headroom. -/
theorem not_deadlineSafe :
    ¬ ∀ (policy : MediaRecoveryPolicy) (input : MediaRecoveryInput),
      0 < input.uncoveredSourceSymbols →
        DeadlineSafe policy input (decideMediaRecovery policy input) := by
  intro h
  have hsafe := h MediaRecoveryPolicy.default
    ⟨0, ⟨18446744073709551615⟩, 1, 18446744073709551615, 0, 0, none⟩ (by decide)
  have hrepair : (decideMediaRecovery MediaRecoveryPolicy.default
      ⟨0, ⟨18446744073709551615⟩, 1, 18446744073709551615, 0, 0, none⟩).action
      = .sendRaptorQRepair 2 .secondaryRepair := by decide +kernel
  have hfits := ((hsafe.repair_iff 2).mp hrepair).2.2
  exact absurd hfits (by decide +kernel)

end RaptorFec
