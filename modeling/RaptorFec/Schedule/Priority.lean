import RaptorFec.Schedule.Outcomes

/-!
# Send plans respect priority

The groups are sorted before they are expanded into candidates, and expiry, staleness, pacing and
capacity are applied to the candidates in that order.

**Order.**  `MediaCandidate.priority` is the order of the plan in exact integers; the candidates of
a plan are in this order (`pairwise_taggedCandidates`), and those of one frame and role are in the
order of the frame (`filter_taggedCandidates`), which for the frames of an encoder is the order of
their datagrams (`pairwise_of_encoded`).

**Priority.**  `plan_prioritized` puts the order and the outcomes together: what is scheduled is
sorted, and what has to wait is behind all of it.
-/

namespace RaptorFec

/-! ## The order of a plan -/

/-- The rank of a datagram at the time the plan starts to send. -/
def MediaScheduleState.rank (state : MediaScheduleState) (role : MediaDatagramRole)
    (objectKind : MediaObjectKind) (deadline : MediaDeadline) : ℕ :=
  let readyAtUs := state.nowUs.toNat + state.queueDelayUs.toNat
  if role = .source ∧ objectKind.important then 0
  else if role = .repair ∧ objectKind.important ∧ readyAtUs + 1 ≤ deadline.expiresAtUs.toNat ∧
      deadline.expiresAtUs.toNat ≤ readyAtUs + 5000 then 1
  else if role = .source then 2
  else 3

/-- The place of a datagram in the order: rank, kind, deadline, stream, frame, role. -/
def MediaScheduleState.priority (state : MediaScheduleState) (role : MediaDatagramRole)
    (objectKind : MediaObjectKind) (deadline : MediaDeadline) (streamId frameSequence : UInt64) :
    ℕ ×ₗ ℕ ×ₗ ℕ ×ₗ ℕ ×ₗ ℕ ×ₗ ℕ :=
  toLex (state.rank role objectKind deadline, toLex (objectKind.rank,
    toLex (deadline.expiresAtUs.toNat, toLex (streamId.toNat, toLex (frameSequence.toNat,
      roleRank role)))))

def MediaCandidate.priority (state : MediaScheduleState) (candidate : MediaCandidate) :
    ℕ ×ₗ ℕ ×ₗ ℕ ×ₗ ℕ ×ₗ ℕ ×ₗ ℕ :=
  state.priority candidate.role candidate.objectKind candidate.deadline candidate.streamId
    candidate.frameSequence

def MediaScheduledDatagram.priority (state : MediaScheduleState) (entry : MediaScheduledDatagram) :
    ℕ ×ₗ ℕ ×ₗ ℕ ×ₗ ℕ ×ₗ ℕ ×ₗ ℕ :=
  state.priority entry.role entry.objectKind entry.deadline entry.streamId entry.frameSequence

/-- The saturating rank of the scheduler is the exact one. -/
lemma schedulingRank_eq (state : MediaScheduleState) (role : MediaDatagramRole)
    (objectKind : MediaObjectKind) (deadline : MediaDeadline) :
    schedulingRank role objectKind deadline state.readyAtUs
      = state.rank role objectKind deadline := by
  have hready : state.readyAtUs.toNat
      = min (state.nowUs.toNat + state.queueDelayUs.toNat) (2 ^ 64 - 1) := toNat_satAdd _ _
  have hmax := deadline.expiresAtUs.toNat_lt
  have hwindow : urgentRepairWindowUs.toNat = 5000 := rfl
  rw [MediaScheduleState.rank]
  cases role with
  | source => simp [schedulingRank]
  | repair =>
      by_cases hlive : state.readyAtUs < deadline.expiresAtUs
      · have hsub := UInt64.toNat_sub_of_le _ _ (UInt64.le_of_lt hlive)
        rw [UInt64.lt_iff_toNat_lt] at hlive
        have hurgent : deadline.expiresAtUs - state.readyAtUs ≤ urgentRepairWindowUs ↔
            state.nowUs.toNat + state.queueDelayUs.toNat + 1 ≤ deadline.expiresAtUs.toNat ∧
            deadline.expiresAtUs.toNat
              ≤ state.nowUs.toNat + state.queueDelayUs.toNat + 5000 := by
          rw [UInt64.le_iff_toNat_le, hsub]
          omega
        rw [← UInt64.lt_iff_toNat_lt] at hlive
        simp [schedulingRank, MediaDeadline.remainingUsAt, hlive, hurgent]
      · have hexpired : ¬ state.nowUs.toNat + state.queueDelayUs.toNat + 1
            ≤ deadline.expiresAtUs.toNat := by
          rw [UInt64.lt_iff_toNat_lt] at hlive
          omega
        simp [schedulingRank, MediaDeadline.remainingUsAt, hlive, hexpired]

/-- All candidates of a group have the place of the group. -/
lemma MediaCandidateGroup.priority_candidates {group : MediaCandidateGroup}
    (state : MediaScheduleState) {candidate : MediaCandidate} (h : candidate ∈ group.candidates) :
    candidate.priority state = group.sortKey state.readyAtUs := by
  obtain ⟨block, -, hindex⟩ := List.mem_flatMap.mp h
  obtain ⟨index, -, rfl⟩ := List.mem_map.mp hindex
  rw [MediaCandidateGroup.sortKey, schedulingRank_eq]
  rfl

lemma MediaCandidateGroup.role_candidates {group : MediaCandidateGroup} {candidate : MediaCandidate}
    (h : candidate ∈ group.candidates) : candidate.role = group.role := by
  obtain ⟨block, -, hindex⟩ := List.mem_flatMap.mp h
  obtain ⟨index, -, rfl⟩ := List.mem_map.mp hindex
  rfl

section Order

variable (frames : List MediaFrameSchedule) (state : MediaScheduleState)

/-- The candidates of a plan are sorted. -/
theorem pairwise_taggedCandidates : (taggedCandidates frames state.readyAtUs).Pairwise
    fun a b => a.2.priority state ≤ b.2.priority state := by
  let r (a b : ℕ × MediaCandidateGroup) : Prop :=
    a.2.sortKey state.readyAtUs ≤ b.2.sortKey state.readyAtUs
  have : Std.Total r := ⟨fun a b => le_total _ _⟩
  have : IsTrans _ r := ⟨fun _ _ _ => le_trans⟩
  have hgroups : (taggedGroups frames state.readyAtUs).Pairwise r := List.pairwise_insertionSort r _
  refine List.pairwise_flatMap.mpr ⟨fun group _ => ?_, hgroups.imp fun {group group'} hle => ?_⟩
  · refine List.pairwise_map.mpr (List.pairwise_of_forall_mem_list fun a ha b hb => ?_)
    rw [group.2.priority_candidates state ha, group.2.priority_candidates state hb]
  · intro a ha b hb
    obtain ⟨candidate, hcandidate, rfl⟩ := List.mem_map.mp ha
    obtain ⟨candidate', hcandidate', rfl⟩ := List.mem_map.mp hb
    rw [group.2.priority_candidates state hcandidate, group'.2.priority_candidates state hcandidate']
    exact hle

/-- No two groups are of the same frame and role. -/
lemma nodup_taggedGroups (readyAtUs : UInt64) :
    ((taggedGroups frames readyAtUs).map fun group => (group.1, group.2.role)).Nodup := by
  have hperm := (List.perm_insertionSort (fun a b : ℕ × MediaCandidateGroup =>
    a.2.sortKey readyAtUs ≤ b.2.sortKey readyAtUs) ((frames.take
      hardMaxFramesScannedPerPlan).zipIdx.flatMap fun frame =>
        frame.1.groups.map fun group => (frame.2, group))).map fun group => (group.1, group.2.role)
  refine hperm.nodup_iff.mpr ?_
  rw [List.map_flatMap]
  exact nodup_flatMap_zipIdx (f := fun _ => [MediaDatagramRole.source, .repair]) fun _ _ => by decide

variable {frames} in
/-- The candidates of one frame and role are in the order of the frame. -/
theorem filter_taggedCandidates (hlen : frames.length ≤ hardMaxFramesScannedPerPlan) {i : ℕ}
    {schedule : MediaFrameSchedule} (hi : frames[i]? = some schedule) {group : MediaCandidateGroup}
    (hgroup : group ∈ schedule.groups) (readyAtUs : UInt64) :
    ((taggedCandidates frames readyAtUs).filter fun tagged =>
      (tagged.1.1, tagged.2.role) = (i, group.role)).map Prod.snd = group.candidates := by
  have hmem : (i, group) ∈ taggedGroups frames readyAtUs := by
    refine (List.mem_insertionSort _).mpr (List.mem_flatMap.mpr ⟨(schedule, i), ?_, ?_⟩)
    · rw [List.take_of_length_le hlen]
      exact List.mem_zipIdx_iff_getElem?.mpr hi
    · exact List.mem_map_of_mem hgroup
  have hone := filter_eq_singleton (nodup_taggedGroups frames readyAtUs) hmem
  have hfilter : ∀ tagged : ℕ × MediaCandidateGroup,
      ((tagged.2.candidates.map fun candidate =>
          ((tagged.1, candidate.datagramIndex), candidate)).filter fun place =>
        (place.1.1, place.2.role) = (i, group.role)).map Prod.snd
        = if (tagged.1, tagged.2.role) = (i, group.role) then tagged.2.candidates else [] := by
    intro tagged
    split_ifs with heq
    · rw [List.filter_eq_self.mpr ?_, List.map_map]
      · exact List.map_id _
      · intro place hplace
        obtain ⟨candidate, hcandidate, rfl⟩ := List.mem_map.mp hplace
        simpa [tagged.2.role_candidates hcandidate] using heq
    · rw [List.filter_eq_nil_iff.mpr ?_, List.map_nil]
      intro place hplace
      obtain ⟨candidate, hcandidate, rfl⟩ := List.mem_map.mp hplace
      simpa [tagged.2.role_candidates hcandidate] using heq
  rw [taggedCandidates, List.filter_flatMap, List.map_flatMap]
  simp only [hfilter]
  rw [flatMap_ite
    (fun tagged : ℕ × MediaCandidateGroup => (tagged.1, tagged.2.role) = (i, group.role)),
    hone, List.flatMap_singleton]

end Order

/-! ## Encoded order -/

/-- The blocks of a frame are one behind the other. -/
def EncodedMediaFrame.Consecutive (frame : EncodedMediaFrame) : Prop :=
  frame.blocks.Pairwise fun a b => a.firstDatagramIndex + a.datagramCount ≤ b.firstDatagramIndex

/-- The indices of a block. -/
lemma MediaCandidateGroup.mem_indices {group : MediaCandidateGroup} {block : EncodedMediaBlock}
    {index : ℕ} (h : index ∈ group.indices block) :
    block.firstDatagramIndex ≤ index ∧ index < block.firstDatagramIndex + block.datagramCount := by
  rw [MediaCandidateGroup.indices] at h
  split at h
  all_goals
    simp only [EncodedMediaBlock.sourceDatagramIndices, EncodedMediaBlock.repairDatagramIndices,
      rangeIndices, List.mem_range'_1, satAddUsize] at h
    omega

lemma MediaCandidateGroup.pairwise_indices (group : MediaCandidateGroup)
    (block : EncodedMediaBlock) : (group.indices block).Pairwise (· < ·) := by
  rw [MediaCandidateGroup.indices]
  split
  all_goals exact List.pairwise_lt_range'

/-- Then the candidates of a group are in the order of their indices. -/
lemma MediaCandidateGroup.pairwise_candidates {group : MediaCandidateGroup}
    (h : group.frame.Consecutive) :
    group.candidates.Pairwise fun a b => a.datagramIndex < b.datagramIndex := by
  refine List.pairwise_flatMap.mpr ⟨fun block _ => ?_, h.imp fun {block block'} hle => ?_⟩
  · exact List.pairwise_map.mpr (group.pairwise_indices block)
  · intro a ha b hb
    obtain ⟨index, hindex, rfl⟩ := List.mem_map.mp ha
    obtain ⟨index', hindex', rfl⟩ := List.mem_map.mp hb
    have hfirst := MediaCandidateGroup.mem_indices hindex
    have hsecond := MediaCandidateGroup.mem_indices hindex'
    change index < index'
    omega

/-- The encoder puts the blocks one behind the other. -/
lemma Transmission.IsSent.consecutive {X : Crates} {code : X.Systematic} {T : Transmission}
    {encoder : MediaFecEncoder} {frame : MediaFrame} {encoded : EncodedMediaFrame}
    (h : T.IsSent code encoder frame encoded) : encoded.Consecutive := by
  rw [EncodedMediaFrame.Consecutive, h.blocks_eq]
  refine List.pairwise_map.mpr (List.pairwise_lt_range.imp fun {i j} hlt => ?_)
  change T.first i + T.emitted i ≤ T.first j
  rw [← T.first_succ]
  have hmono : Monotone T.first := monotone_nat_of_le_succ fun k => by
    rw [T.first_succ]
    exact Nat.le_add_right _ _
  exact hmono hlt

/-- **The datagrams of an encoded frame are planned in the order of the frame**, those of each role,
whatever is planned between them. -/
theorem pairwise_of_encoded {X : Crates} (code : X.Systematic) {frames : List MediaFrameSchedule}
    (hframes : frames.length ≤ hardMaxFramesScannedPerPlan) {i : ℕ} {schedule : MediaFrameSchedule}
    (hi : frames[i]? = some schedule) {encoder encoder' : MediaFecEncoder} {frame : MediaFrame}
    {pool pool' : Option DatagramBufferPool}
    (hencode : encoder.encodeFrameWithOptionalPool X frame pool
      = some (.ok schedule.frame, encoder', pool'))
    {group : MediaCandidateGroup} (hgroup : group ∈ schedule.groups) (readyAtUs : UInt64) :
    ((taggedCandidates frames readyAtUs).filter fun tagged =>
      (tagged.1.1, tagged.2.role) = (i, group.role)).Pairwise
        fun a b => a.2.datagramIndex < b.2.datagramIndex := by
  obtain ⟨T, hsent⟩ := MediaFecEncoder.encodeFrameWithOptionalPool_sent code hencode
  have hordered : group.candidates.Pairwise fun a b => a.datagramIndex < b.datagramIndex := by
    refine MediaCandidateGroup.pairwise_candidates ?_
    obtain ⟨role, -, rfl⟩ := List.mem_map.mp hgroup
    exact hsent.consecutive
  rw [← filter_taggedCandidates hframes hi hgroup readyAtUs, List.pairwise_map] at hordered
  exact hordered

/-! ## Priority -/

/-- The plan respects the priority of the datagrams. -/
structure Prioritized (frames : List MediaFrameSchedule) (state : MediaScheduleState)
    (plan : MediaSendPlan) : Prop where
  /-- What is scheduled is sorted. -/
  sorted : plan.scheduled.Pairwise fun a b => a.priority state ≤ b.priority state
  /-- All datagrams of the frames with their places, in one order, and what becomes of them. -/
  ordered : ∃ (ordered : List ((ℕ × ℕ) × MediaCandidate)) (log : List MediaOutcome),
    (ordered.Pairwise fun a b => a.2.priority state ≤ b.2.priority state) ∧
    (∀ tagged ∈ ordered, IsCandidate frames tagged.1 tagged.2) ∧
    (∀ i schedule, frames[i]? = some schedule → ∀ group ∈ schedule.groups,
      (ordered.filter fun tagged => (tagged.1.1, tagged.2.role) = (i, group.role)).map Prod.snd
        = group.candidates ∧
      (schedule.frame.Consecutive →
        group.candidates.Pairwise fun a b => a.datagramIndex < b.datagramIndex)) ∧
    plan.scheduled
      = ((ordered.map Prod.snd).zip log).filterMap MediaOutcome.scheduledEntry ∧
    plan.dropped = ((ordered.map Prod.snd).zip log).filterMap MediaOutcome.droppedEntry ∧
    plan.blockedByInFlight = log.count .blocked ∧
    (log.length < ordered.length → plan.planLimitReached = true) ∧
    -- what is blocked, or behind the limit, is behind all that is scheduled
    ∀ (p q : ℕ) sendAfterUs, log[p]? = some (MediaOutcome.scheduled sendAfterUs) →
      (log[q]? = some MediaOutcome.blocked ∨ log[q]? = none) → p < q

/-- **Plans respect priority.** -/
theorem plan_prioritized (frames : List MediaFrameSchedule) (hframes : frames.length ≤ 4096)
    (policy : MediaSendPolicy) (state : MediaScheduleState) :
    Prioritized frames state (planMediaDatagramsWithDeadlines frames policy state) := by
  obtain ⟨admitted, limit, hprefix, hcomplete, -, hplan⟩ := plan_outcomes frames policy state
  set ordered := taggedCandidates frames state.readyAtUs with hordered
  set log := outcomes policy.normalized state state.readyAtUs (policy.capacity state) 0 admitted
    with hlog
  have hmap : ordered.map Prod.snd = orderedCandidates frames state.readyAtUs :=
    map_taggedCandidates frames state.readyAtUs
  have hlength : log.length = admitted.length := length_outcomes ..
  have hzip : (ordered.map Prod.snd).zip log = admitted.zip log := by
    obtain ⟨rest, hrest⟩ := hprefix
    rw [hmap, ← hrest, List.zip_eq_zip_take_min, hlength, List.length_append,
      Nat.min_eq_right (Nat.le_add_right _ _), List.take_left,
      List.take_of_length_le (Nat.le_of_eq hlength)]
  have hpairwise := pairwise_taggedCandidates frames state
  have hsorted : admitted.Pairwise fun a b => a.priority state ≤ b.priority state := by
    refine List.Pairwise.sublist hprefix.sublist ?_
    rw [← hmap]
    exact List.pairwise_map.mpr hpairwise
  rw [hplan]
  refine ⟨?_, ordered, log, hpairwise, fun tagged => isCandidate_of_mem, ?_, ?_, ?_, rfl, ?_, ?_⟩
  · refine List.pairwise_filterMap.mpr ?_
    have hfst : (admitted.zip log).Pairwise fun a b => a.1.priority state ≤ b.1.priority state := by
      rw [← List.map_fst_zip (Nat.le_of_eq hlength.symm)] at hsorted
      have hunzipped := List.pairwise_map.mp hsorted
      exact hunzipped
    refine hfst.imp fun {a b} hle entry hentry entry' hentry' => ?_
    obtain ⟨candidate, outcome⟩ := a
    obtain ⟨candidate', outcome'⟩ := b
    cases outcome <;> cases outcome' <;>
      simp only [MediaOutcome.scheduledEntry, Option.some.injEq, reduceCtorEq] at hentry hentry'
    subst hentry hentry'
    exact hle
  · intro i schedule hi group hgroup
    refine ⟨filter_taggedCandidates hframes hi hgroup state.readyAtUs, fun hconsecutive => ?_⟩
    refine MediaCandidateGroup.pairwise_candidates ?_
    obtain ⟨role, -, rfl⟩ := List.mem_map.mp hgroup
    exact hconsecutive
  · rw [hzip]
  · rw [hzip]
  · intro hlt
    cases limit with
    | true => rfl
    | false =>
        have hall := congrArg List.length (hcomplete rfl)
        have hcount := congrArg List.length hmap
        rw [List.length_map] at hcount
        omega
  · rintro p q sendAfterUs hp (hq | hq)
    · exact scheduled_before_blocked hp hq
    · have hlt := (List.getElem?_eq_some_iff.mp hp).1
      have hge := List.getElem?_eq_none_iff.mp hq
      omega

/-- A frame of one block, of two source datagrams and a repair datagram. -/
def sampleSchedule (metadata : MediaFrameMetadata) (expiresAtUs : UInt64) : MediaFrameSchedule :=
  { frame :=
      { sequence := metadata.sequence
        metadata := metadata
        priority := metadata.priority
        fragmentCount := 1
        decision := ⟨DatagramFecConfig.default, 0.5, 2, 3⟩
        blocks := [⟨0, 0, 2, 1, 0, 3, 20⟩]
        datagrams := [[], [], []] }
    deadline := ⟨expiresAtUs⟩ }

/-- The repair of an audio frame, soon expiring, is ahead of the data frame given before it. -/
theorem plan_prioritized_sample :
    (planMediaDatagramsWithDeadlines
      [sampleSchedule ⟨1, 7, 0, none, 0, .data, ⟨0⟩⟩ 9000,
        sampleSchedule ⟨2, 8, 0, none, 0, .opus, ⟨0⟩⟩ 4000]
      { MediaSendPolicy.default with maxInFlightDatagrams := 4 } ⟨10, 0, 0⟩).scheduled.map
        (fun entry => (entry.streamId, entry.datagramIndex)) = [(2, 0), (2, 1), (2, 2), (1, 0)] ∧
    Prioritized
      [sampleSchedule ⟨1, 7, 0, none, 0, .data, ⟨0⟩⟩ 9000,
        sampleSchedule ⟨2, 8, 0, none, 0, .opus, ⟨0⟩⟩ 4000] ⟨10, 0, 0⟩
      (planMediaDatagramsWithDeadlines
        [sampleSchedule ⟨1, 7, 0, none, 0, .data, ⟨0⟩⟩ 9000,
          sampleSchedule ⟨2, 8, 0, none, 0, .opus, ⟨0⟩⟩ 4000]
        { MediaSendPolicy.default with maxInFlightDatagrams := 4 } ⟨10, 0, 0⟩) :=
  ⟨by decide +kernel, plan_prioritized _ (by decide) _ _⟩

end RaptorFec
