import RaptorFec.Schedule.Outcomes

/-!
# Pacing

The times of a plan are computed with saturating sums and products.  Saturation only makes a time
earlier, and the latest deadline is the saturated value itself, so whether a datagram is in time is
decided as in exact integers.
-/

namespace RaptorFec

/-- The exact time a datagram is sent at when `count` datagrams are scheduled before it. -/
def MediaScheduleState.sendAt (state : MediaScheduleState) (policy : MediaSendPolicy) (count : ℕ) :
    ℕ :=
  state.nowUs.toNat + state.queueDelayUs.toNat + count * policy.minDatagramSpacingUs.toNat

section Outcome

variable (policy : MediaSendPolicy) (state : MediaScheduleState) (candidate : MediaCandidate)
  {capacity count : ℕ}

/-- The saturating time is not later. -/
lemma toNat_sendAtUs (hcount : count < 2 ^ 64) :
    (satAdd state.readyAtUs
        (satMul (UInt64.ofNat count) policy.minDatagramSpacingUs)).toNat
      = min (state.sendAt policy count) (2 ^ 64 - 1) := by
  have hofNat : (UInt64.ofNat count).toNat = count := UInt64.toNat_ofNat_of_lt' hcount
  rw [toNat_satAdd, toNat_satMul, MediaScheduleState.readyAtUs, toNat_satAdd, hofNat,
    MediaScheduleState.sendAt]
  omega

/-- **Scheduled candidates are in time**, at the exact multiple of the spacing. -/
lemma sendAt_lt_of_scheduled {sendAfterUs : UInt64} (hcount : count < 2 ^ 64)
    (h : candidate.outcome policy state state.readyAtUs capacity count = .scheduled sendAfterUs) :
    state.sendAt policy count < candidate.deadline.expiresAtUs.toNat ∧
      sendAfterUs.toNat = count * policy.minDatagramSpacingUs.toNat := by
  have htime := toNat_sendAtUs policy state hcount
  have hmax := candidate.deadline.expiresAtUs.toNat_lt
  have hofNat : (UInt64.ofNat count).toNat = count := UInt64.toNat_ofNat_of_lt' hcount
  rw [MediaCandidate.outcome] at h
  split_ifs at h with hexpired hstale hfull hlate
  obtain rfl := MediaOutcome.scheduled.inj h
  rw [MediaDeadline.isExpiredAt, UInt64.le_iff_toNat_le, htime] at hlate
  have hlt : state.sendAt policy count < candidate.deadline.expiresAtUs.toNat := by omega
  refine ⟨hlt, ?_⟩
  rw [MediaScheduleState.sendAt] at hlt
  rw [toNat_satMul, hofNat]
  omega

/-- **Expired candidates are too late.** -/
lemma le_sendAt_of_expired (hcount : count < 2 ^ 64)
    (h : candidate.outcome policy state state.readyAtUs capacity count = .dropped .expired) :
    candidate.deadline.expiresAtUs.toNat ≤ state.sendAt policy count := by
  have htime := toNat_sendAtUs policy state hcount
  have hready : state.readyAtUs.toNat
      = min (state.nowUs.toNat + state.queueDelayUs.toNat) (2 ^ 64 - 1) := toNat_satAdd _ _
  rw [MediaCandidate.outcome] at h
  split_ifs at h with hexpired hstale hfull hlate
  · rw [MediaDeadline.isExpiredAt, UInt64.le_iff_toNat_le, hready] at hexpired
    rw [MediaScheduleState.sendAt]
    omega
  · cases h
  · rw [MediaDeadline.isExpiredAt, UInt64.le_iff_toNat_le, htime] at hlate
    omega

end Outcome

/-- The entry at place `i` was scheduled when `i` entries were. -/
lemma exists_outcome_of_scheduledEntry {policy : MediaSendPolicy} {state : MediaScheduleState}
    {readyAtUs : UInt64} {capacity count i : ℕ} {candidates : List MediaCandidate}
    {entry : MediaScheduledDatagram}
    (h : ((candidates.zip (outcomes policy state readyAtUs capacity count candidates)).filterMap
      MediaOutcome.scheduledEntry)[i]? = some entry) :
    ∃ candidate : MediaCandidate, entry = candidate.scheduled entry.sendAfterUs ∧
      candidate.outcome policy state readyAtUs capacity (count + i)
        = .scheduled entry.sendAfterUs := by
  induction candidates generalizing count i with
  | nil => simp at h
  | cons candidate candidates ih =>
      rw [outcomes] at h
      generalize houtcome : candidate.outcome policy state readyAtUs capacity count = outcome at h
      cases outcome with
      | scheduled sendAfterUs =>
          simp only [List.zip_cons_cons, MediaOutcome.scheduledEntry, List.filterMap_cons,
            MediaOutcome.isScheduled, if_true] at h
          cases i with
          | zero =>
              obtain rfl := Option.some.inj h
              exact ⟨candidate, rfl, houtcome⟩
          | succ i =>
              obtain ⟨next, hentry, hnext⟩ := ih h
              refine ⟨next, hentry, ?_⟩
              rwa [Nat.add_assoc, Nat.add_comm 1] at hnext
      | dropped reason =>
          simp only [List.zip_cons_cons, MediaOutcome.scheduledEntry, List.filterMap_cons,
            MediaOutcome.isScheduled] at h
          exact ih h
      | blocked =>
          simp only [List.zip_cons_cons, MediaOutcome.scheduledEntry, List.filterMap_cons,
            MediaOutcome.isScheduled] at h
          exact ih h

/-- The times of the plan are right in exact integers. -/
structure Paced (frames : List MediaFrameSchedule) (policy : MediaSendPolicy)
    (state : MediaScheduleState) (plan : MediaSendPlan) : Prop where
  /-- Each datagram is sent before its deadline, at a multiple of the spacing. -/
  scheduled : ∀ (i : ℕ) entry, plan.scheduled[i]? = some entry →
    state.nowUs.toNat + state.queueDelayUs.toNat + i * policy.minDatagramSpacingUs.toNat
      < entry.deadline.expiresAtUs.toNat ∧
    entry.sendAfterUs.toNat = i * policy.minDatagramSpacingUs.toNat
  /-- An expired datagram would be sent at its deadline or later, behind those that are scheduled
  before it. -/
  expired : ∃ (admitted : List MediaCandidate) (log : List MediaOutcome),
    admitted <+: orderedCandidates frames state.readyAtUs ∧
    plan.scheduled = (admitted.zip log).filterMap MediaOutcome.scheduledEntry ∧
    plan.dropped = (admitted.zip log).filterMap MediaOutcome.droppedEntry ∧
    ∀ (p : ℕ) candidate, admitted[p]? = some candidate →
      log[p]? = some (MediaOutcome.dropped .expired) →
      candidate.deadline.expiresAtUs.toNat
        ≤ state.nowUs.toNat + state.queueDelayUs.toNat
          + MediaOutcome.scheduledCount (log.take p) * policy.minDatagramSpacingUs.toNat

/-- **Plans keep the deadlines**, in exact integers. -/
theorem plan_paced (frames : List MediaFrameSchedule) (policy : MediaSendPolicy)
    (state : MediaScheduleState) :
    Paced frames policy state (planMediaDatagramsWithDeadlines frames policy state) := by
  obtain ⟨admitted, limit, hprefix, -, hadmitted, hplan⟩ := plan_outcomes frames policy state
  set log := outcomes policy.normalized state state.readyAtUs (policy.capacity state) 0 admitted
    with hlog
  have hmax : hardMaxDatagramsPerPlan < 2 ^ 64 := by decide
  have hlength : log.length = admitted.length := length_outcomes ..
  have hcounts : ∀ p, MediaOutcome.scheduledCount (log.take p) ≤ log.length := fun p =>
    List.countP_le_length.trans (List.length_take_le' _ _)
  rw [hplan]
  refine ⟨fun i entry hentry => ?_, admitted, log, hprefix, rfl, rfl, fun p candidate hp hlog' => ?_⟩
  · have hi := (List.getElem?_eq_some_iff.mp hentry).1
    have hle := List.length_filterMap_le MediaOutcome.scheduledEntry (admitted.zip log)
    rw [List.length_zip] at hle
    simp only at hi
    obtain ⟨candidate, heq, houtcome⟩ := exists_outcome_of_scheduledEntry hentry
    rw [Nat.zero_add] at houtcome
    have htime := sendAt_lt_of_scheduled policy.normalized state candidate (by omega) houtcome
    rw [heq]
    exact htime
  · rw [hlog, outcomes_getElem?, hp, ← hlog, Nat.zero_add] at hlog'
    have hcount := hcounts p
    exact le_sendAt_of_expired policy.normalized state candidate (by omega) (Option.some.inj hlog')

end RaptorFec
