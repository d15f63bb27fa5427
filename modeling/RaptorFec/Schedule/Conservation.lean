import Mathlib.Data.Multiset.AddSub
import RaptorFec.Library.Tagged
import RaptorFec.Media.Recovery
import RaptorFec.Schedule.Plan

/-!
# Send plans account for their datagrams

* `MediaCandidateGroup.candidates` — the candidates of a group, in the order they are visited;
* `place_cases` — what becomes of an admitted candidate: dropped, blocked, or scheduled;
* `Placed` — a plan lists each of some candidates exactly once; kept by `place` (`Placed.place`);
* `visits_visitGroups` — the three loops visit the candidates one after the other;
* `plan_eq` — a plan is what placing the candidates up to some point makes of the empty plan;
* `plan_accounts` — every datagram is accounted for once, within the limits.
-/

namespace RaptorFec

/-- The candidates of a group. -/
def MediaCandidateGroup.candidates (group : MediaCandidateGroup) : List MediaCandidate :=
  group.frame.blocks.flatMap fun block => (group.indices block).map (group.candidate block)

namespace MediaPlanState

variable {policy : MediaSendPolicy} {state : MediaScheduleState} {readyAtUs : UInt64}
  {capacity : ℕ}

/-! ## Placing a candidate -/

/-- **What becomes of an admitted candidate**: it is dropped, blocked, or scheduled. -/
lemma place_cases (plan : MediaSendPlan) (candidate : MediaCandidate)
    (hblocked : plan.blockedByInFlight < usizeMax) :
    (∃ reason, reason ≠ .inFlightLimit ∧
      place policy state readyAtUs capacity plan candidate
        = { plan with dropped := plan.dropped ++ [candidate.dropped reason] }) ∨
    place policy state readyAtUs capacity plan candidate
        = { plan with blockedByInFlight := plan.blockedByInFlight + 1 } ∨
    plan.scheduled.length ≠ capacity ∧ ∃ sendAfterUs,
      place policy state readyAtUs capacity plan candidate
        = { plan with scheduled := plan.scheduled ++ [candidate.scheduled sendAfterUs] } := by
  have hsat : satAddUsize plan.blockedByInFlight 1 = plan.blockedByInFlight + 1 :=
    Nat.min_eq_left hblocked
  rw [place]
  simp only
  split_ifs with hexpired hstale hfull hlate
  · exact Or.inl ⟨.expired, by simp, rfl⟩
  · exact Or.inl ⟨.staleDeltaRepair, by simp, rfl⟩
  · rw [hsat]
    exact Or.inr (Or.inl rfl)
  · exact Or.inl ⟨.expired, by simp, rfl⟩
  · exact Or.inr (Or.inr ⟨hfull, _, rfl⟩)

/-- Each of some candidates, with their tags, is on exactly one list of the plan, or blocked. -/
structure Placed {ι : Type} (capacity : ℕ) (done : List (ι × MediaCandidate))
    (plan : MediaSendPlan) : Prop where
  parts : ∃ scheduled dropped blocked : List (ι × MediaCandidate),
    (scheduled + dropped + blocked : Multiset (ι × MediaCandidate)) = done ∧
    List.Forall₂ (fun tagged entry => ∃ sendAfterUs, entry = tagged.2.scheduled sendAfterUs)
      scheduled plan.scheduled ∧
    List.Forall₂ (fun tagged entry => ∃ reason, reason ≠ .inFlightLimit ∧
      entry = tagged.2.dropped reason) dropped plan.dropped ∧
    blocked.length = plan.blockedByInFlight
  scheduled_le : plan.scheduled.length ≤ capacity

namespace Placed

variable {ι : Type} {done : List (ι × MediaCandidate)} {plan : MediaSendPlan}

/-- Each candidate is on one list, so the lists are as long as the candidates together. -/
lemma length_eq (h : Placed capacity done plan) :
    plan.scheduled.length + plan.dropped.length + plan.blockedByInFlight = done.length := by
  obtain ⟨scheduled, dropped, blocked, hsum, hscheduled, hdropped, hblocked⟩ := h.parts
  have hcard := congrArg Multiset.card hsum
  rw [Multiset.card_add, Multiset.card_add] at hcard
  rw [← hscheduled.length_eq, ← hdropped.length_eq, ← hblocked]
  exact hcard

/-- **An admitted candidate is accounted for.** -/
theorem place (h : Placed capacity done plan) (hdone : done.length < usizeMax)
    (tagged : ι × MediaCandidate) :
    Placed capacity (done ++ [tagged])
      (MediaPlanState.place policy state readyAtUs capacity plan tagged.2) := by
  have hlength := h.length_eq
  obtain ⟨scheduled, dropped, blocked, hsum, hscheduled, hdropped, hblocked⟩ := h.parts
  rcases place_cases plan tagged.2 (by omega) with
    ⟨reason, hreason, hplace⟩ | hplace | ⟨hfull, sendAfterUs, hplace⟩
  · rw [hplace]
    refine ⟨⟨scheduled, dropped ++ [tagged], blocked, ?_, hscheduled, ?_, hblocked⟩, h.scheduled_le⟩
    · rw [← Multiset.coe_add, ← Multiset.coe_add, ← hsum, ← add_assoc, add_right_comm]
    · exact List.rel_append hdropped (.cons ⟨reason, hreason, rfl⟩ .nil)
  · rw [hplace]
    refine ⟨⟨scheduled, dropped, blocked ++ [tagged], ?_, hscheduled, hdropped, ?_⟩, h.scheduled_le⟩
    · rw [← Multiset.coe_add, ← Multiset.coe_add, ← hsum]
      exact (add_assoc _ _ _).symm
    · rw [List.length_append, hblocked]
      rfl
  · rw [hplace]
    refine ⟨⟨scheduled ++ [tagged], dropped, blocked, ?_, ?_, hdropped, hblocked⟩, ?_⟩
    · rw [← Multiset.coe_add, ← Multiset.coe_add, ← hsum,
        add_right_comm (scheduled : Multiset (ι × MediaCandidate)), add_right_comm]
    · exact List.rel_append hscheduled (.cons ⟨sendAfterUs, rfl⟩ .nil)
    · have hle := h.scheduled_le
      simp only [List.length_append, List.length_singleton]
      omega

end Placed

/-- The plan after some candidates. -/
def placeAll (policy : MediaSendPolicy) (state : MediaScheduleState) (readyAtUs : UInt64)
    (capacity : ℕ) (candidates : List MediaCandidate) (plan : MediaSendPlan) : MediaSendPlan :=
  candidates.foldl (place policy state readyAtUs capacity) plan

variable (policy state readyAtUs capacity) in
/-- **All admitted candidates are accounted for**, from the empty plan on. -/
theorem placed_placeAll {ι : Type} {done : List (ι × MediaCandidate)} (limit : Bool)
    (hdone : done.length ≤ usizeMax) :
    Placed capacity done
      (placeAll policy state readyAtUs capacity (done.map Prod.snd) ⟨[], [], 0, limit⟩) := by
  induction done using List.reverseRecOn with
  | nil => exact ⟨⟨[], [], [], rfl, .nil, .nil, rfl⟩, Nat.zero_le _⟩
  | append_singleton done tagged ih =>
      rw [List.length_append, List.length_singleton] at hdone
      rw [placeAll, List.map_append, List.foldl_append]
      exact (ih (by omega)).place (by omega) tagged

variable (policy state readyAtUs capacity) in
/-- Whether a limit was reached has no influence on what is placed. -/
lemma place_limit (plan : MediaSendPlan) (candidate : MediaCandidate) (limit : Bool) :
    place policy state readyAtUs capacity { plan with planLimitReached := limit } candidate
      = { place policy state readyAtUs capacity plan candidate with planLimitReached := limit } := by
  rw [place, place]
  simp only
  split_ifs <;> rfl

variable (policy state readyAtUs capacity) in
lemma placeAll_limit (candidates : List MediaCandidate) (plan : MediaSendPlan) (limit : Bool) :
    placeAll policy state readyAtUs capacity candidates { plan with planLimitReached := limit }
      = { placeAll policy state readyAtUs capacity candidates plan with
          planLimitReached := limit } := by
  induction candidates generalizing plan with
  | nil => rfl
  | cons candidate candidates ih =>
      rw [placeAll, placeAll, List.foldl_cons, List.foldl_cons, place_limit]
      exact ih _

@[simp] lemma planLimitReached_placeAll (candidates : List MediaCandidate) (plan : MediaSendPlan) :
    (placeAll policy state readyAtUs capacity candidates plan).planLimitReached
      = plan.planLimitReached := by
  induction candidates generalizing plan with
  | nil => rfl
  | cons candidate candidates ih =>
      rw [placeAll, List.foldl_cons]
      refine (ih _).trans ?_
      rw [place]
      simp only
      split_ifs <;> rfl

/-! ## The loops -/

/-- The plan and the number of admitted candidates. -/
def view (self : MediaPlanState) : MediaSendPlan × ℕ := (self.plan, self.admitted)

/-- One more candidate is admitted. -/
def admitNext (policy : MediaSendPolicy) (state : MediaScheduleState) (readyAtUs : UInt64)
    (capacity : ℕ) (counted : MediaSendPlan × ℕ) (candidate : MediaCandidate) :
    MediaSendPlan × ℕ :=
  (place policy state readyAtUs capacity counted.1 candidate, counted.2 + 1)

/-- The limit is noted in the plan. -/
def noteLimit (counted : MediaSendPlan × ℕ) : MediaSendPlan × ℕ :=
  ({ counted.1 with planLimitReached := true }, counted.2)

lemma foldl_admit (candidates : List MediaCandidate) (counted : MediaSendPlan × ℕ) :
    candidates.foldl (admitNext policy state readyAtUs capacity) counted
      = (placeAll policy state readyAtUs capacity candidates counted.1,
        counted.2 + candidates.length) := by
  induction candidates generalizing counted with
  | nil => rfl
  | cons candidate candidates ih =>
      rw [List.foldl_cons, ih, List.length_cons]
      exact Prod.ext rfl (by rw [admitNext]; omega)

lemma visits_visitDatagram (group : MediaCandidateGroup) (block : EncodedMediaBlock)
    (self : MediaPlanState) (datagramIndex : ℕ) :
    Visits view (admitNext policy state readyAtUs capacity) noteLimit
      [group.candidate block datagramIndex] self
      (visitDatagram policy state readyAtUs capacity group block self datagramIndex) := by
  rw [visitDatagram]
  split_ifs
  · exact ⟨[], List.nil_prefix, rfl⟩
  · rfl

lemma visits_visitBlock (group : MediaCandidateGroup) (self : MediaPlanState)
    (block : EncodedMediaBlock) :
    Visits view (admitNext policy state readyAtUs capacity) noteLimit
      ((group.indices block).map (group.candidate block)) self
      (visitBlock policy state readyAtUs capacity group self block) := by
  rw [visitBlock]
  split_ifs
  · exact ⟨[], List.nil_prefix, rfl⟩
  · rw [List.map_eq_flatMap]
    exact Visits.foldlM (fun datagramIndex _ s =>
      visits_visitDatagram group block s datagramIndex) { self with
        blockVisits := self.blockVisits + 1 }

variable (policy state readyAtUs capacity) in
/-- **The loops visit the candidates one after the other**, up to some point. -/
theorem visits_visitGroups (groups : List MediaCandidateGroup) (self : MediaPlanState) :
    Visits view (admitNext policy state readyAtUs capacity) noteLimit
      (groups.flatMap MediaCandidateGroup.candidates) self
      (groups.foldlM (visitGroup policy state readyAtUs capacity) self) :=
  Visits.foldlM (fun group _ s =>
    Visits.foldlM (fun block _ s => visits_visitBlock group s block) s) self

variable (policy state readyAtUs capacity) in
/-- **At most the allowed candidates are admitted.** -/
theorem admitted_le (groups : List MediaCandidateGroup) {self : MediaPlanState}
    (h : self.admitted ≤ policy.maxDatagramsPerPlan) :
    (finalState (groups.foldlM (visitGroup policy state readyAtUs capacity) self)).admitted
      ≤ policy.maxDatagramsPerPlan := by
  have hdatagram : ∀ group block (s : MediaPlanState) index,
      s.admitted ≤ policy.maxDatagramsPerPlan →
      (finalState (visitDatagram policy state readyAtUs capacity group block s index)).admitted
        ≤ policy.maxDatagramsPerPlan := by
    intro group block s index hle
    rw [visitDatagram]
    split_ifs with hfull
    · exact hle
    · exact Nat.lt_of_le_of_ne hle hfull
  have hblock : ∀ group (s : MediaPlanState) block, s.admitted ≤ policy.maxDatagramsPerPlan →
      (finalState (visitBlock policy state readyAtUs capacity group s block)).admitted
        ≤ policy.maxDatagramsPerPlan := by
    intro group s block hle
    rw [visitBlock]
    split_ifs
    · exact hle
    · exact foldlM_keeps (fun index _ s hs => hdatagram group block s index hs) hle
  exact foldlM_keeps (fun group _ s hs =>
    foldlM_keeps (fun block _ s hs => hblock group s block hs) hs) h

end MediaPlanState

/-! ## The plan -/

/-- The time the first datagram of a plan is sent at. -/
def MediaScheduleState.readyAtUs (state : MediaScheduleState) : UInt64 :=
  satAdd state.nowUs state.queueDelayUs

/-- The number of datagrams that can be in flight in addition. -/
def MediaSendPolicy.capacity (policy : MediaSendPolicy) (state : MediaScheduleState) : ℕ :=
  policy.normalized.maxInFlightDatagrams - state.inFlightDatagrams

/-- The candidates of the frames that are scanned, in the order they are visited in. -/
def orderedCandidates (frames : List MediaFrameSchedule) (readyAtUs : UInt64) :
    List MediaCandidate :=
  (sortedGroups frames readyAtUs).flatMap MediaCandidateGroup.candidates

/-- **A plan places the candidates up to some point**, or all of them when no limit is reached. -/
theorem plan_eq (frames : List MediaFrameSchedule) (policy : MediaSendPolicy)
    (state : MediaScheduleState) :
    ∃ admitted limit, admitted <+: orderedCandidates frames state.readyAtUs ∧
      admitted.length ≤ policy.normalized.maxDatagramsPerPlan ∧
      planMediaDatagramsWithDeadlines frames policy state
        = MediaPlanState.placeAll policy.normalized state state.readyAtUs (policy.capacity state)
            admitted ⟨[], [], 0, limit⟩ ∧
      (limit = false → admitted = orderedCandidates frames state.readyAtUs ∧
        frames.length ≤ hardMaxFramesScannedPerPlan) := by
  set scanned : Bool := ! (frames.drop hardMaxFramesScannedPerPlan).isEmpty with hscanned
  set start : MediaPlanState := ⟨⟨[], [], 0, scanned⟩, 0, 0⟩ with hstart
  have hscan : scanned = false → frames.length ≤ hardMaxFramesScannedPerPlan := by
    intro h
    rw [hscanned, Bool.not_eq_false', List.isEmpty_iff] at h
    exact List.drop_eq_nil_iff.mp h
  have hvisits := MediaPlanState.visits_visitGroups policy.normalized state state.readyAtUs
    (policy.capacity state) (sortedGroups frames state.readyAtUs) start
  have hstarted : start.admitted ≤ policy.normalized.maxDatagramsPerPlan := Nat.zero_le _
  have hle := MediaPlanState.admitted_le policy.normalized state state.readyAtUs
    (policy.capacity state) (sortedGroups frames state.readyAtUs) hstarted
  have hplan : planMediaDatagramsWithDeadlines frames policy state
      = (finalState ((sortedGroups frames state.readyAtUs).foldlM (MediaPlanState.visitGroup
          policy.normalized state state.readyAtUs (policy.capacity state)) start)).plan := rfl
  rw [hplan]
  cases hresult : (sortedGroups frames state.readyAtUs).foldlM (MediaPlanState.visitGroup
      policy.normalized state state.readyAtUs (policy.capacity state)) start with
  | ok final =>
      rw [hresult] at hvisits hle
      have hview : final.view = _ := Eq.trans hvisits (MediaPlanState.foldl_admit _ _)
      have hcount : final.admitted = 0 + (orderedCandidates frames state.readyAtUs).length :=
        congrArg Prod.snd hview
      have hfinal : final.admitted ≤ policy.normalized.maxDatagramsPerPlan := hle
      exact ⟨orderedCandidates frames state.readyAtUs, scanned, List.prefix_rfl, by omega,
        congrArg Prod.fst hview, fun h => ⟨rfl, hscan h⟩⟩
  | error final =>
      rw [hresult] at hvisits hle
      obtain ⟨admitted, hprefix, hview⟩ := hvisits
      rw [MediaPlanState.foldl_admit] at hview
      have hcount : final.admitted = 0 + admitted.length := congrArg Prod.snd hview
      have hfinal : final.admitted ≤ policy.normalized.maxDatagramsPerPlan := hle
      refine ⟨admitted, true, hprefix, by omega, ?_, nofun⟩
      have hplace := MediaPlanState.placeAll_limit policy.normalized state state.readyAtUs
        (policy.capacity state) admitted start.plan true
      exact (congrArg Prod.fst hview).trans hplace.symm

/-! ## Candidates with their places -/

/-- The groups in the order of the plan, each with the place of its frame. -/
def taggedGroups (frames : List MediaFrameSchedule) (readyAtUs : UInt64) :
    List (ℕ × MediaCandidateGroup) :=
  ((frames.take hardMaxFramesScannedPerPlan).zipIdx.flatMap fun frame =>
    frame.1.groups.map fun group => (frame.2, group)).insertionSort
      fun a b => a.2.sortKey readyAtUs ≤ b.2.sortKey readyAtUs

/-- The candidates in the order of the plan, each with the place of its frame and its index. -/
def taggedCandidates (frames : List MediaFrameSchedule) (readyAtUs : UInt64) :
    List ((ℕ × ℕ) × MediaCandidate) :=
  (taggedGroups frames readyAtUs).flatMap fun group =>
    group.2.candidates.map fun candidate => ((group.1, candidate.datagramIndex), candidate)

section Tagged

variable (frames : List MediaFrameSchedule) (readyAtUs : UInt64)

lemma map_taggedGroups :
    (taggedGroups frames readyAtUs).map Prod.snd = sortedGroups frames readyAtUs := by
  have hfst : ((frames.take hardMaxFramesScannedPerPlan).zipIdx.map Prod.fst)
      = frames.take hardMaxFramesScannedPerPlan := List.zipIdx_map_fst 0 _
  rw [taggedGroups, sortedGroups, List.map_insertionSort _ (fun a b : MediaCandidateGroup =>
    a.sortKey readyAtUs ≤ b.sortKey readyAtUs) _ _ fun _ _ _ _ => Iff.rfl, List.map_flatMap]
  congr 1
  conv_rhs => rw [← hfst, List.flatMap_map]
  refine List.flatMap_congr fun frame _ => ?_
  rw [List.map_map]
  exact List.map_id _

lemma map_taggedCandidates :
    (taggedCandidates frames readyAtUs).map Prod.snd = orderedCandidates frames readyAtUs := by
  rw [taggedCandidates, orderedCandidates, ← map_taggedGroups, List.map_flatMap, List.flatMap_map]
  refine List.flatMap_congr fun group _ => ?_
  rw [List.map_map]
  exact List.map_id _

end Tagged

/-! ## Places of datagrams -/

/-- The candidate of the datagram at a place: of the frame at `place.1`, with index `place.2`. -/
def IsCandidate (frames : List MediaFrameSchedule) (place : ℕ × ℕ) (candidate : MediaCandidate) :
    Prop :=
  ∃ schedule group block, frames[place.1]? = some schedule ∧ group ∈ schedule.groups ∧
    block ∈ schedule.frame.blocks ∧ place.2 ∈ group.indices block ∧
    candidate = group.candidate block place.2

/-- The blocks of a frame have its datagrams. -/
def EncodedMediaFrame.Indexed (frame : EncodedMediaFrame) : Prop :=
  ((frame.blocks.flatMap fun block => block.sourceDatagramIndices)
    ++ frame.blocks.flatMap fun block => block.repairDatagramIndices).Perm
    (List.range frame.datagrams.length)

lemma MediaCandidateGroup.map_candidates (group : MediaCandidateGroup) (i : ℕ) :
    (group.candidates.map fun candidate => (i, candidate.datagramIndex))
      = (group.frame.blocks.flatMap group.indices).map (i, ·) := by
  rw [candidates, List.map_flatMap, List.map_flatMap]
  refine List.flatMap_congr fun block _ => ?_
  rw [List.map_map]
  rfl

/-- The candidates of a frame are its datagrams. -/
lemma MediaFrameSchedule.candidates_perm {schedule : MediaFrameSchedule}
    (h : schedule.frame.Indexed) (i : ℕ) :
    (schedule.groups.flatMap fun group =>
      group.candidates.map fun candidate => (i, candidate.datagramIndex)).Perm
      ((List.range schedule.frame.datagrams.length).map (i, ·)) := by
  simp only [MediaCandidateGroup.map_candidates]
  refine List.Perm.trans (List.Perm.of_eq ?_) (h.map (i, ·))
  rw [groups, List.map_cons, List.map_singleton, List.flatMap_cons, List.flatMap_singleton,
    List.map_append]
  rfl

section Tagged

variable {frames : List MediaFrameSchedule} {readyAtUs : UInt64}

/-- The places of the candidates, sorted by frames. -/
lemma places_perm (h : ∀ schedule ∈ frames, schedule.frame.Indexed) :
    ((taggedCandidates frames readyAtUs).map Prod.fst).Perm
      ((frames.take hardMaxFramesScannedPerPlan).zipIdx.flatMap fun frame =>
        (List.range frame.1.frame.datagrams.length).map (frame.2, ·)) := by
  have hfst : (taggedCandidates frames readyAtUs).map Prod.fst
      = (taggedGroups frames readyAtUs).flatMap fun group =>
          group.2.candidates.map fun candidate => (group.1, candidate.datagramIndex) := by
    rw [taggedCandidates, List.map_flatMap]
    refine List.flatMap_congr fun group _ => ?_
    rw [List.map_map]
    rfl
  rw [hfst]
  refine ((List.perm_insertionSort _ _).flatMap_right _).trans ?_
  rw [List.flatMap_assoc]
  refine List.Perm.flatMap_left _ fun frame hframe => ?_
  rw [List.flatMap_map]
  have hmem : frame.1 ∈ frames := by
    have htake := List.mem_of_getElem? (List.mem_zipIdx_iff_getElem?.mp hframe)
    exact List.mem_of_mem_take htake
  exact MediaFrameSchedule.candidates_perm (h _ hmem) frame.2

/-- **Each datagram has one place.** -/
theorem places_nodup (h : ∀ schedule ∈ frames, schedule.frame.Indexed) :
    ((taggedCandidates frames readyAtUs).map Prod.fst).Nodup := by
  refine (places_perm h).nodup_iff.mpr ?_
  exact nodup_flatMap_zipIdx (f := fun schedule : MediaFrameSchedule =>
    List.range schedule.frame.datagrams.length) fun _ _ => List.nodup_range

/-- The number of candidates is the number of datagrams of the frames that are scanned. -/
lemma length_orderedCandidates (h : ∀ schedule ∈ frames, schedule.frame.Indexed) :
    (orderedCandidates frames readyAtUs).length
      = ((frames.take hardMaxFramesScannedPerPlan).map
          fun schedule => schedule.frame.datagrams.length).sum := by
  have hlen : ((taggedCandidates frames readyAtUs).map Prod.fst).length = _ :=
    (places_perm h).length_eq
  rw [List.length_map, List.length_flatMap] at hlen
  rw [← map_taggedCandidates, List.length_map, hlen]
  simp only [List.length_map, List.length_range]
  conv_rhs => rw [← List.zipIdx_map_fst 0 (frames.take hardMaxFramesScannedPerPlan), List.map_map]
  rfl

/-- The tags are right. -/
lemma isCandidate_of_mem {tagged : (ℕ × ℕ) × MediaCandidate}
    (h : tagged ∈ taggedCandidates frames readyAtUs) : IsCandidate frames tagged.1 tagged.2 := by
  obtain ⟨group, hgroup, htagged⟩ := List.mem_flatMap.mp h
  obtain ⟨candidate, hcandidate, rfl⟩ := List.mem_map.mp htagged
  obtain ⟨block, hblock, hmap⟩ := List.mem_flatMap.mp hcandidate
  obtain ⟨index, hindex, rfl⟩ := List.mem_map.mp hmap
  obtain ⟨frame, hframe, hgroups⟩ := List.mem_flatMap.mp ((List.mem_insertionSort _).mp hgroup)
  obtain ⟨inner, hinner, rfl⟩ := List.mem_map.mp hgroups
  have hget := List.mem_zipIdx_iff_getElem?.mp hframe
  have hframe' : frames[frame.2]? = some frame.1 := by
    rw [List.getElem?_take] at hget
    split_ifs at hget
    exact hget
  have hsame : inner.frame = frame.1.frame := by
    obtain ⟨role, -, rfl⟩ := List.mem_map.mp hinner
    rfl
  exact ⟨frame.1, inner, block, hframe', hinner, hsame ▸ hblock, hindex, rfl⟩

/-- What relates candidates to the entries of a plan relates their places to them. -/
lemma forall₂_places {β : Type} {R : MediaCandidate → β → Prop}
    {tagged : List ((ℕ × ℕ) × MediaCandidate)} {entries : List β}
    (h : List.Forall₂ (fun candidate entry => R candidate.2 entry) tagged entries)
    (hmem : ∀ candidate ∈ tagged, IsCandidate frames candidate.1 candidate.2) :
    List.Forall₂ (fun place entry => ∃ candidate, IsCandidate frames place candidate ∧
      R candidate entry) (tagged.map Prod.fst) entries := by
  induction h with
  | nil => exact .nil
  | cons hentry _ ih =>
      obtain ⟨hfirst, hrest⟩ := List.forall_mem_cons.mp hmem
      exact .cons ⟨_, hfirst, hentry⟩ (ih hrest)

end Tagged

/-! ## Accounting -/

/-- The plan accounts for the datagrams of the frames. -/
structure Accounts (frames : List MediaFrameSchedule) (policy : MediaSendPolicy)
    (state : MediaScheduleState) (plan : MediaSendPlan) : Prop where
  /-- Every datagram is scheduled, dropped, or blocked at most once. -/
  once : ∃ scheduledAt droppedAt blockedAt : List (ℕ × ℕ),
    (scheduledAt ++ droppedAt ++ blockedAt).Nodup ∧
    List.Forall₂ (fun place entry => ∃ candidate, IsCandidate frames place candidate ∧
      ∃ sendAfterUs, entry = candidate.scheduled sendAfterUs) scheduledAt plan.scheduled ∧
    List.Forall₂ (fun place entry => ∃ candidate, IsCandidate frames place candidate ∧
      ∃ reason, reason ≠ .inFlightLimit ∧ entry = candidate.dropped reason)
      droppedAt plan.dropped ∧
    (∀ place ∈ blockedAt, ∃ candidate, IsCandidate frames place candidate) ∧
    blockedAt.length = plan.blockedByInFlight
  total_le : plan.scheduled.length + plan.dropped.length + plan.blockedByInFlight
    ≤ min (max policy.maxDatagramsPerPlan 1) 65536
  scheduled_le : plan.scheduled.length
    ≤ min policy.maxInFlightDatagrams (min (max policy.maxDatagramsPerPlan 1) 65536)
      - state.inFlightDatagrams
  reasons : ∀ entry ∈ plan.dropped, entry.reason ≠ .inFlightLimit
  complete : plan.planLimitReached = false →
    plan.scheduled.length + plan.dropped.length + plan.blockedByInFlight
      = (frames.map fun schedule => schedule.frame.datagrams.length).sum

/-- **Exact accounting**: every datagram of the frames is scheduled, dropped, blocked, or behind a
limit, and only one of them. -/
theorem plan_accounts {X : Crates} (code : X.Systematic) (frames : List MediaFrameSchedule)
    (hframes : ∀ schedule ∈ frames, ∃ encoder frame pool encoder' pool',
      MediaFecEncoder.encodeFrameWithOptionalPool X encoder frame pool
        = some (.ok schedule.frame, encoder', pool'))
    (policy : MediaSendPolicy) (state : MediaScheduleState) :
    Accounts frames policy state (planMediaDatagramsWithDeadlines frames policy state) := by
  have hindexed : ∀ schedule ∈ frames, schedule.frame.Indexed := by
    intro schedule hschedule
    obtain ⟨encoder, frame, pool, encoder', pool', haccepts⟩ := hframes schedule hschedule
    obtain ⟨T, hsent⟩ := MediaFecEncoder.encodeFrameWithOptionalPool_sent code haccepts
    exact hsent.indices_perm
  obtain ⟨admitted, limit, hprefix, hadmitted, hplan, hcomplete⟩ := plan_eq frames policy state
  have hlimit : policy.normalized.maxDatagramsPerPlan ≤ 65536 := Nat.min_le_right _ _
  have hmax : 65536 ≤ usizeMax := by decide
  -- the candidates that are admitted, with their places
  set done := (taggedCandidates frames state.readyAtUs).take admitted.length with hdone
  have hdone_admitted : done.map Prod.snd = admitted := by
    rw [hdone, List.map_take, map_taggedCandidates]
    exact (List.prefix_iff_eq_take.mp hprefix).symm
  have hlength : done.length = admitted.length := by
    rw [← hdone_admitted, List.length_map]
  have hmem : ∀ tagged ∈ done, IsCandidate frames tagged.1 tagged.2 := fun tagged htagged =>
    isCandidate_of_mem (List.mem_of_mem_take htagged)
  have hnodup : (done.map Prod.fst).Nodup := by
    rw [hdone, List.map_take]
    exact (places_nodup hindexed).sublist (List.take_sublist _ _)
  have hplaced := MediaPlanState.placed_placeAll policy.normalized state state.readyAtUs
    (policy.capacity state) limit (show done.length ≤ usizeMax by omega)
  rw [hdone_admitted, ← hplan] at hplaced
  set plan := planMediaDatagramsWithDeadlines frames policy state with hplandef
  have htotal := hplaced.length_eq
  obtain ⟨scheduled, dropped, blocked, hsum, hscheduled, hdropped, hblocked⟩ := hplaced.parts
  have hparts : (scheduled ++ dropped ++ blocked).Perm done := Multiset.coe_eq_coe.mp hsum
  have hcandidates : ∀ tagged ∈ scheduled ++ dropped ++ blocked,
      IsCandidate frames tagged.1 tagged.2 := fun tagged htagged =>
    hmem tagged (hparts.subset htagged)
  obtain ⟨hfirst, hlast⟩ := List.forall_mem_append.mp hcandidates
  obtain ⟨hscheduledAt, hdroppedAt⟩ := List.forall_mem_append.mp hfirst
  refine ⟨⟨scheduled.map Prod.fst, dropped.map Prod.fst, blocked.map Prod.fst, ?_,
    forall₂_places hscheduled hscheduledAt, forall₂_places hdropped hdroppedAt, ?_, ?_⟩, ?_,
    hplaced.scheduled_le, ?_, ?_⟩
  · rw [← List.map_append, ← List.map_append]
    exact (hparts.map Prod.fst).nodup_iff.mpr hnodup
  · intro place hplace
    obtain ⟨tagged, htagged, rfl⟩ := List.mem_map.mp hplace
    exact ⟨tagged.2, hlast tagged htagged⟩
  · rw [List.length_map, hblocked]
  · rw [htotal, hlength]
    exact hadmitted
  · refine forall_of_forall₂ hdropped ?_
    rintro tagged entry ⟨reason, hreason, rfl⟩
    exact hreason
  · intro hreached
    rw [hplan, MediaPlanState.planLimitReached_placeAll] at hreached
    obtain ⟨hall, hscan⟩ := hcomplete hreached
    rw [htotal, hlength, hall, length_orderedCandidates hindexed, List.take_of_length_le hscan]

/-- A frame that is given twice, with a deadline it meets and with one that is over. -/
theorem plan_accounts_sample :
    ∃ frame : EncodedMediaFrame, frame.datagrams.length = 6 ∧
      Accounts [⟨frame, ⟨1000⟩⟩, ⟨frame, ⟨5⟩⟩] MediaSendPolicy.default ⟨10, 0, 0⟩
        (planMediaDatagramsWithDeadlines [⟨frame, ⟨1000⟩⟩, ⟨frame, ⟨5⟩⟩] MediaSendPolicy.default
          ⟨10, 0, 0⟩) := by
  obtain ⟨encoded, encoder', pool', haccepts, hsent⟩ := sample_accepts [1, 2, 3] (by decide)
  refine ⟨encoded, ?_, plan_accounts repetitionIdeal.toSystematic _ (fun schedule hschedule => ?_)
    _ _⟩
  · rw [hsent.datagrams_eq, Transmission.length_flatMap_blockDatagrams]
    rfl
  · have hframe : schedule.frame = encoded := by
      rcases List.mem_pair.mp hschedule with rfl | rfl <;> rfl
    rw [hframe]
    exact ⟨_, _, none, encoder', pool', haccepts⟩

end RaptorFec
