import RaptorFec.Schedule.Conservation

/-!
# Outcomes of candidates

What `place` does with a candidate depends on the plan only through the number of datagrams that are
scheduled already.

* `MediaCandidate.outcome` — what becomes of a candidate when so many are scheduled;
* `outcomes` — what becomes of some candidates, one after the other (`outcomes_getElem?`);
* `placeAll_outcomes` — a plan is read off the outcomes of its candidates;
* `scheduled_before_blocked` — nothing is scheduled behind a candidate that is blocked;
* `plan_outcomes` — the outcomes a send plan is read off.
-/

namespace RaptorFec

inductive MediaOutcome where
  | scheduled (sendAfterUs : UInt64)
  | dropped (reason : MediaDropReason)
  | blocked
  deriving DecidableEq, Repr

namespace MediaOutcome

def isScheduled : MediaOutcome → Bool
  | .scheduled _ => true
  | _ => false

/-- What is scheduled. -/
def scheduledEntry : MediaCandidate × MediaOutcome → Option MediaScheduledDatagram
  | (candidate, .scheduled sendAfterUs) => some (candidate.scheduled sendAfterUs)
  | _ => none

/-- What is dropped. -/
def droppedEntry : MediaCandidate × MediaOutcome → Option MediaDroppedDatagram
  | (candidate, .dropped reason) => some (candidate.dropped reason)
  | _ => none

/-- The number of candidates that are scheduled. -/
def scheduledCount (outcomes : List MediaOutcome) : ℕ := outcomes.countP isScheduled

@[simp] lemma scheduledCount_nil : scheduledCount [] = 0 := rfl

@[simp] lemma scheduledCount_cons (outcome : MediaOutcome) (outcomes : List MediaOutcome) :
    scheduledCount (outcome :: outcomes)
      = scheduledCount outcomes + if outcome.isScheduled then 1 else 0 :=
  List.countP_cons

end MediaOutcome

section Outcomes

variable (policy : MediaSendPolicy) (state : MediaScheduleState) (readyAtUs : UInt64)
  (capacity : ℕ)

/-- What becomes of a candidate when `count` datagrams are scheduled. -/
def MediaCandidate.outcome (count : ℕ) (candidate : MediaCandidate) : MediaOutcome :=
  if candidate.deadline.isExpiredAt readyAtUs then .dropped .expired
  else if candidate.shouldDropStaleDeltaRepair policy state then .dropped .staleDeltaRepair
  else if count = capacity then .blocked
  else if candidate.deadline.isExpiredAt
      (satAdd readyAtUs (satMul (UInt64.ofNat count) policy.minDatagramSpacingUs))
  then .dropped .expired
  else .scheduled (satMul (UInt64.ofNat count) policy.minDatagramSpacingUs)

/-- What becomes of some candidates. -/
def outcomes : ℕ → List MediaCandidate → List MediaOutcome
  | _, [] => []
  | count, candidate :: candidates =>
      let outcome := candidate.outcome policy state readyAtUs capacity count
      outcome :: outcomes (count + if outcome.isScheduled then 1 else 0) candidates

@[simp] lemma length_outcomes (count : ℕ) (candidates : List MediaCandidate) :
    (outcomes policy state readyAtUs capacity count candidates).length = candidates.length := by
  induction candidates generalizing count with
  | nil => rfl
  | cons candidate candidates ih => simp [outcomes, ih]

/-- Each candidate has its outcome at the number of datagrams scheduled before it. -/
lemma outcomes_getElem? (count : ℕ) (candidates : List MediaCandidate) (p : ℕ) :
    (outcomes policy state readyAtUs capacity count candidates)[p]?
      = candidates[p]?.map (MediaCandidate.outcome policy state readyAtUs capacity
          (count + MediaOutcome.scheduledCount
            ((outcomes policy state readyAtUs capacity count candidates).take p))) := by
  induction candidates generalizing count p with
  | nil => simp [outcomes]
  | cons candidate candidates ih =>
      cases p with
      | zero => simp [outcomes]
      | succ p =>
          simp only [outcomes, List.getElem?_cons_succ, List.take_succ_cons, ih,
            MediaOutcome.scheduledCount_cons]
          rw [Nat.add_assoc, Nat.add_comm (ite _ _ _)]

variable {policy state readyAtUs capacity}

variable (policy state readyAtUs) in
lemma isScheduled_outcome {count : ℕ} {candidate : MediaCandidate}
    (h : (candidate.outcome policy state readyAtUs capacity count).isScheduled) :
    count ≠ capacity := by
  rintro rfl
  rw [MediaCandidate.outcome] at h
  split_ifs at h <;> simp_all [MediaOutcome.isScheduled]

variable (policy state readyAtUs) in
/-- At most `capacity` candidates are scheduled. -/
lemma scheduledCount_outcomes_le (count : ℕ) (h : count ≤ capacity)
    (candidates : List MediaCandidate) :
    count + MediaOutcome.scheduledCount
      (outcomes policy state readyAtUs capacity count candidates) ≤ capacity := by
  induction candidates generalizing count with
  | nil => simpa [outcomes] using h
  | cons candidate candidates ih =>
      simp only [outcomes, MediaOutcome.scheduledCount_cons]
      split_ifs with hscheduled
      · have hne := isScheduled_outcome policy state readyAtUs hscheduled
        have hle := ih (count + 1) (by omega)
        omega
      · simpa using ih count h

/-- The entries are what the plain recursion adds. -/
lemma place_outcome (plan : MediaSendPlan) (candidate : MediaCandidate)
    (hblocked : plan.blockedByInFlight < usizeMax) :
    MediaPlanState.place policy state readyAtUs capacity plan candidate
      = let outcome := candidate.outcome policy state readyAtUs capacity plan.scheduled.length
        { plan with
          scheduled := plan.scheduled ++ (MediaOutcome.scheduledEntry (candidate, outcome)).toList
          dropped := plan.dropped ++ (MediaOutcome.droppedEntry (candidate, outcome)).toList
          blockedByInFlight := plan.blockedByInFlight + if outcome = .blocked then 1 else 0 } := by
  have hsat : satAddUsize plan.blockedByInFlight 1 = plan.blockedByInFlight + 1 :=
    Nat.min_eq_left hblocked
  rw [MediaPlanState.place, MediaCandidate.outcome]
  simp only [hsat]
  split_ifs <;> simp_all [MediaOutcome.scheduledEntry, MediaOutcome.droppedEntry]

/-- **A plan is read off the outcomes of its candidates.** -/
theorem placeAll_outcomes (plan : MediaSendPlan) (candidates : List MediaCandidate)
    (hblocked : plan.blockedByInFlight + candidates.length ≤ usizeMax) :
    MediaPlanState.placeAll policy state readyAtUs capacity candidates plan
      = let log := outcomes policy state readyAtUs capacity plan.scheduled.length candidates
        { plan with
          scheduled := plan.scheduled
            ++ (candidates.zip log).filterMap MediaOutcome.scheduledEntry
          dropped := plan.dropped ++ (candidates.zip log).filterMap MediaOutcome.droppedEntry
          blockedByInFlight := plan.blockedByInFlight + log.count .blocked } := by
  induction candidates generalizing plan with
  | nil => simp [MediaPlanState.placeAll, outcomes]
  | cons candidate candidates ih =>
      rw [List.length_cons] at hblocked
      rw [MediaPlanState.placeAll, List.foldl_cons, place_outcome plan candidate (by omega)]
      simp only
      generalize houtcome : candidate.outcome policy state readyAtUs capacity plan.scheduled.length
        = outcome
      refine (ih _ ?_).trans ?_
      · simp only
        split_ifs <;> omega
      · cases outcome <;>
          simp [outcomes, houtcome, MediaOutcome.scheduledEntry, MediaOutcome.droppedEntry,
            MediaOutcome.isScheduled, List.filterMap_cons, Nat.add_assoc, Nat.add_comm]

/-- **Nothing is scheduled behind a candidate that is blocked.** -/
theorem scheduled_before_blocked {candidates : List MediaCandidate} {p q : ℕ}
    {sendAfterUs : UInt64}
    (hp : (outcomes policy state readyAtUs capacity 0 candidates)[p]? = some (.scheduled sendAfterUs))
    (hq : (outcomes policy state readyAtUs capacity 0 candidates)[q]? = some .blocked) : p < q := by
  by_contra hle
  push Not at hle
  set log := outcomes policy state readyAtUs capacity 0 candidates with hlog
  have hfull : MediaOutcome.scheduledCount (log.take q) = capacity := by
    rw [hlog, outcomes_getElem?, ← hlog, Nat.zero_add] at hq
    obtain ⟨candidate, -, houtcome⟩ := Option.map_eq_some_iff.mp hq
    rw [MediaCandidate.outcome] at houtcome
    split_ifs at houtcome with hexpired hstale hcount
    exact hcount
  have hnot : MediaOutcome.scheduledCount (log.take p) ≠ capacity := by
    rw [hlog, outcomes_getElem?, ← hlog, Nat.zero_add] at hp
    obtain ⟨candidate, -, houtcome⟩ := Option.map_eq_some_iff.mp hp
    have hscheduled := congrArg MediaOutcome.isScheduled houtcome
    exact isScheduled_outcome policy state readyAtUs hscheduled
  have hmono : MediaOutcome.scheduledCount (log.take q) ≤ MediaOutcome.scheduledCount (log.take p) :=
    (List.take_sublist_take_left hle).countP_le
  have hbound : MediaOutcome.scheduledCount (log.take p) ≤ MediaOutcome.scheduledCount log :=
    (List.take_sublist _ _).countP_le
  have hcapacity := scheduledCount_outcomes_le policy state readyAtUs 0 (Nat.zero_le capacity)
    candidates
  rw [← hlog] at hcapacity
  omega

end Outcomes

/-- A plan is read off the outcomes of the candidates it admits. -/
theorem plan_outcomes (frames : List MediaFrameSchedule) (policy : MediaSendPolicy)
    (state : MediaScheduleState) :
    ∃ admitted limit, admitted <+: orderedCandidates frames state.readyAtUs ∧
      (limit = false → admitted = orderedCandidates frames state.readyAtUs) ∧
      admitted.length ≤ hardMaxDatagramsPerPlan ∧
      planMediaDatagramsWithDeadlines frames policy state
        = let log := outcomes policy.normalized state state.readyAtUs (policy.capacity state) 0
            admitted
          { scheduled := (admitted.zip log).filterMap MediaOutcome.scheduledEntry
            dropped := (admitted.zip log).filterMap MediaOutcome.droppedEntry
            blockedByInFlight := log.count .blocked
            planLimitReached := limit } := by
  obtain ⟨admitted, limit, hprefix, hadmitted, hplan, hcomplete⟩ := plan_eq frames policy state
  have hlimit : policy.normalized.maxDatagramsPerPlan ≤ hardMaxDatagramsPerPlan :=
    Nat.min_le_right _ _
  have hmax : hardMaxDatagramsPerPlan ≤ usizeMax := by decide
  refine ⟨admitted, limit, hprefix, fun h => (hcomplete h).1, by omega, hplan.trans ?_⟩
  rw [placeAll_outcomes _ _ (by simp only; omega)]
  simp only [List.nil_append, List.length_nil, Nat.zero_add]

end RaptorFec
