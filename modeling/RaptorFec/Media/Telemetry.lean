import RaptorFec.Media.Layout

/-!
# Loss counted at the sender

Given the indices of the datagrams that were lost, an encoded frame says how many source and repair
datagrams that is, and how many blocks cannot be decoded.

**`lossOutcome`** puts the indices in a set and counts, block by block, those of its two ranges
that are in it: a loss that is reported twice counts once (`lossOutcome_counts`).

**`lostDatagramRoles`** looks the role of every reported index up and counts the reports; it agrees
with `lossOutcome` exactly as long as no datagram is reported twice (`lostDatagramRoles_eq_iff`).
-/

namespace RaptorFec

structure MediaFecLossOutcome where
  lostSourceDatagrams : ℕ
  lostRepairDatagrams : ℕ
  repairedSourceDatagrams : ℕ
  unusedRepairDatagrams : ℕ
  failedBlocks : ℕ
  decoded : Bool
  decodeDeadlineMissed : Bool
  deriving DecidableEq, Repr

namespace EncodedMediaBlock

variable (self : EncodedMediaBlock) (dropped : Finset ℕ)

/-- The source datagrams of the block among the dropped ones. -/
def lostSource : ℕ := (self.sourceDatagramIndices.filter (· ∈ dropped)).length

/-- The repair datagrams of the block among the dropped ones. -/
def lostRepair : ℕ := (self.repairDatagramIndices.filter (· ∈ dropped)).length

/-- The repair symbols that are left. -/
def availableRepair : ℕ := self.repairSymbols.toNat - self.lostRepair dropped

end EncodedMediaBlock

/-- One pass of the loop of `loss_outcome`. -/
def MediaFecLossOutcome.addBlock (dropped : Finset ℕ) (outcome : MediaFecLossOutcome)
    (block : EncodedMediaBlock) : MediaFecLossOutcome :=
  let lostSource := block.lostSource dropped
  let availableRepair := block.availableRepair dropped
  { outcome with
    lostSourceDatagrams := outcome.lostSourceDatagrams + lostSource
    lostRepairDatagrams := outcome.lostRepairDatagrams + block.lostRepair dropped
    failedBlocks := if availableRepair < lostSource then outcome.failedBlocks + 1
      else outcome.failedBlocks
    repairedSourceDatagrams := if outcome.decoded then outcome.repairedSourceDatagrams + lostSource
      else outcome.repairedSourceDatagrams
    unusedRepairDatagrams :=
      if outcome.decoded then outcome.unusedRepairDatagrams + (availableRepair - lostSource)
      else outcome.unusedRepairDatagrams }

namespace EncodedMediaFrame

variable (self : EncodedMediaFrame) (droppedDatagramIndices : List ℕ)

/-- `loss_outcome`. -/
def lossOutcome (decoded decodeDeadlineMissed : Bool) : MediaFecLossOutcome :=
  self.blocks.foldl (MediaFecLossOutcome.addBlock droppedDatagramIndices.toFinset)
    ⟨0, 0, 0, 0, 0, decoded, decodeDeadlineMissed⟩

/-- `datagram_loss_outcome`. -/
def datagramLossOutcome (decoded : Bool) : MediaFecLossOutcome :=
  self.lossOutcome droppedDatagramIndices decoded false

/-- `lost_datagram_roles`: the numbers of source and of repair datagrams. -/
def lostDatagramRoles : ℕ × ℕ :=
  droppedDatagramIndices.foldl (fun counts index =>
    match self.datagramRole index with
    | some .source => (counts.1 + 1, counts.2)
    | some .repair => (counts.1, counts.2 + 1)
    | none => counts) (0, 0)

end EncodedMediaFrame

/-! ## The two loops as sums -/

/-- The loop over the blocks. -/
lemma foldl_addBlock (dropped : Finset ℕ) (blocks : List EncodedMediaBlock)
    (outcome : MediaFecLossOutcome) :
    let result := blocks.foldl (MediaFecLossOutcome.addBlock dropped) outcome
    result.lostSourceDatagrams = outcome.lostSourceDatagrams
        + (blocks.map fun block => block.lostSource dropped).sum ∧
      result.lostRepairDatagrams = outcome.lostRepairDatagrams
        + (blocks.map fun block => block.lostRepair dropped).sum ∧
      result.failedBlocks = outcome.failedBlocks
        + blocks.countP fun block => block.availableRepair dropped < block.lostSource dropped := by
  induction blocks generalizing outcome with
  | nil => simp
  | cons block blocks ih =>
      obtain ⟨hsource, hrepair, hfailed⟩ := ih (outcome.addBlock dropped block)
      refine ⟨hsource.trans ?_, hrepair.trans ?_, hfailed.trans ?_⟩
      · rw [List.map_cons, List.sum_cons, ← Nat.add_assoc]
        rfl
      · rw [List.map_cons, List.sum_cons, ← Nat.add_assoc]
        rfl
      · simp only [MediaFecLossOutcome.addBlock, List.countP_cons, decide_eq_true_eq]
        split_ifs <;> omega

/-- The loop over the reported indices. -/
lemma EncodedMediaFrame.lostDatagramRoles_eq (frame : EncodedMediaFrame) (dropped : List ℕ) :
    frame.lostDatagramRoles dropped
      = (dropped.countP fun j => frame.datagramRole j = some .source,
        dropped.countP fun j => frame.datagramRole j = some .repair) := by
  have hloop : ∀ counts : ℕ × ℕ, dropped.foldl (fun counts index =>
      match frame.datagramRole index with
      | some .source => (counts.1 + 1, counts.2)
      | some .repair => (counts.1, counts.2 + 1)
      | none => counts) counts
      = (counts.1 + dropped.countP fun j => frame.datagramRole j = some .source,
        counts.2 + dropped.countP fun j => frame.datagramRole j = some .repair) := by
    induction dropped with
    | nil => simp
    | cons j dropped ih =>
        intro counts
        rw [List.foldl_cons, ih, List.countP_cons, List.countP_cons]
        cases hrole : frame.datagramRole j with
        | none => simp
        | some role =>
            cases role with
            | source => simp [← Nat.add_assoc, Nat.add_right_comm]
            | repair => simp [← Nat.add_assoc, Nat.add_right_comm]
  rw [lostDatagramRoles, hloop]
  simp

/-! ## Counting by role -/

/-- The indices of one role. -/
def EncodedMediaBlock.roleIndices (block : EncodedMediaBlock) : MediaDatagramRole → List ℕ
  | .source => block.sourceDatagramIndices
  | .repair => block.repairDatagramIndices

lemma EncodedMediaBlock.Fits.mem_roleIndices {block : EncodedMediaBlock} (h : block.Fits)
    {role : MediaDatagramRole} {j : ℕ} :
    j ∈ block.roleIndices role ↔ block.datagramRole j = some role := by
  have hcount := h.count_eq
  cases role with
  | source =>
      rw [h.datagramRole_source, roleIndices, h.sourceDatagramIndices_eq, List.mem_range'_1]
  | repair =>
      rw [h.datagramRole_repair, roleIndices, h.repairDatagramIndices_eq, List.mem_range'_1]
      omega

namespace EncodedMediaFrame.LaidOut

variable {frame : EncodedMediaFrame} (h : frame.LaidOut)

include h

lemma mem_roleIndices {role : MediaDatagramRole} {j : ℕ} :
    (j ∈ frame.blocks.flatMap fun block => block.roleIndices role) ↔
      frame.datagramRole j = some role := by
  rw [List.mem_flatMap]
  constructor
  · rintro ⟨block, hblock, hj⟩
    have hfits := h.fits block hblock
    have hrole := hfits.mem_roleIndices.mp hj
    have hin : j ∈ block.datagramIndices := by
      rw [← hfits.isSome_datagramRole, hrole]
      rfl
    rw [h.datagramRole_eq hblock hin, hrole]
  · intro hrole
    obtain ⟨block, hblock, hin⟩ := List.exists_of_findSome?_eq_some hrole
    exact ⟨block, hblock, (h.fits block hblock).mem_roleIndices.mpr hin⟩

lemma nodup_roleIndices (role : MediaDatagramRole) :
    (frame.blocks.flatMap fun block => block.roleIndices role).Nodup := by
  have hmap : (frame.blocks.flatMap fun block => block.roleIndices role)
      = (frame.blocks.flatMap fun block => block.sendEntries role).map (·.datagramIndex) := by
    rw [List.map_flatMap]
    refine List.flatMap_congr fun block _ => ?_
    rw [Transmission.map_sendEntries]
    cases role <;> rfl
  rw [hmap]
  exact (List.pairwise_map.mpr (pairwise_sendEntries h.follow h.fits role)).imp Nat.ne_of_lt

/-- Summed over the blocks, the lost indices of a role are those of the frame. -/
lemma sum_lost (dropped : Finset ℕ) (role : MediaDatagramRole) :
    (frame.blocks.map fun block => ((block.roleIndices role).filter (· ∈ dropped)).length).sum
      = (dropped.filter fun j => frame.datagramRole j = some role).card := by
  have hset : (dropped.filter fun j => frame.datagramRole j = some role)
      = ((frame.blocks.flatMap fun block => block.roleIndices role).filter
          (· ∈ dropped)).toFinset := by
    ext j
    rw [List.mem_toFinset, List.mem_filter, h.mem_roleIndices, Finset.mem_filter,
      decide_eq_true_eq, and_comm]
  rw [hset, List.toFinset_card_of_nodup ((h.nodup_roleIndices role).filter _), List.filter_flatMap,
    List.length_flatMap]

/-- Each datagram has one of the two roles. -/
lemma card_roles (dropped : Finset ℕ) :
    (dropped.filter fun j => frame.datagramRole j = some .source).card
      + (dropped.filter fun j => frame.datagramRole j = some .repair).card
      = (dropped.filter fun j => j < frame.datagrams.length).card := by
  rw [← Finset.card_union_of_disjoint, ← Finset.filter_or]
  · congr 1
    refine Finset.filter_congr fun j _ => ?_
    rw [← h.isSome_datagramRole]
    cases frame.datagramRole j with
    | none => simp
    | some role => cases role <;> simp
  · refine Finset.disjoint_filter.mpr fun j _ hsource hrepair => ?_
    rw [hsource] at hrepair
    cases hrepair

end EncodedMediaFrame.LaidOut

/-! ## Blocks that cannot be decoded -/

/-- The repair budget is exceeded exactly when fewer datagrams survive than the block has source
symbols. -/
lemma EncodedMediaBlock.Fits.failed_iff {block : EncodedMediaBlock} (h : block.Fits)
    (dropped : Finset ℕ) :
    block.availableRepair dropped < block.lostSource dropped ↔
      (block.datagramIndices.filter (· ∉ dropped)).length < block.sourceSymbols.toNat := by
  have hlost : (block.datagramIndices.filter (· ∈ dropped)).length
      = block.lostSource dropped + block.lostRepair dropped := by
    rw [← h.source_append_repair, List.filter_append, List.length_append, lostSource, lostRepair]
  have hsplit := List.length_eq_length_filter_add (l := block.datagramIndices)
    (fun j => decide (j ∈ dropped))
  have hle : block.lostRepair dropped ≤ block.repairSymbols.toNat := by
    refine (List.length_filter_le _ _).trans (Nat.le_of_eq ?_)
    rw [h.repairDatagramIndices_eq, List.length_range']
  have hcount := h.count_eq
  rw [block.length_datagramIndices, hlost] at hsplit
  simp only [← decide_not] at hsplit
  rw [availableRepair]
  omega

/-! ## The outcome -/

/-- The two counts of `loss_outcome`: the distinct datagrams of each role. -/
lemma EncodedMediaFrame.LaidOut.lossOutcome_lost {frame : EncodedMediaFrame} (h : frame.LaidOut)
    (dropped : List ℕ) (decoded decodeDeadlineMissed : Bool) :
    let outcome := frame.lossOutcome dropped decoded decodeDeadlineMissed
    outcome.lostSourceDatagrams
        = (dropped.toFinset.filter fun j => frame.datagramRole j = some .source).card ∧
      outcome.lostRepairDatagrams
        = (dropped.toFinset.filter fun j => frame.datagramRole j = some .repair).card := by
  obtain ⟨hsource, hrepair, -⟩ := foldl_addBlock dropped.toFinset frame.blocks
    ⟨0, 0, 0, 0, 0, decoded, decodeDeadlineMissed⟩
  exact ⟨hsource.trans ((Nat.zero_add _).trans (h.sum_lost dropped.toFinset .source)),
    hrepair.trans ((Nat.zero_add _).trans (h.sum_lost dropped.toFinset .repair))⟩

/-- **What `loss_outcome` counts.**  For a frame the encoder produced and whatever is reported as
dropped: the distinct datagrams of each role, together the distinct indices below the number of
datagrams, and the blocks of which fewer datagrams survive than they have source symbols. -/
theorem lossOutcome_counts {X : Crates} (code : X.Systematic) {encoder encoder' : MediaFecEncoder}
    {frame : MediaFrame} {encoded : EncodedMediaFrame}
    (h : encoder.encodeFrame X frame = some (.ok encoded, encoder')) (dropped : List ℕ)
    (decoded decodeDeadlineMissed : Bool) :
    let outcome := encoded.lossOutcome dropped decoded decodeDeadlineMissed
    outcome.lostSourceDatagrams
        = (dropped.toFinset.filter fun j => encoded.datagramRole j = some .source).card ∧
      outcome.lostRepairDatagrams
        = (dropped.toFinset.filter fun j => encoded.datagramRole j = some .repair).card ∧
      outcome.lostSourceDatagrams + outcome.lostRepairDatagrams
        = (dropped.toFinset.filter fun j => j < encoded.datagrams.length).card ∧
      outcome.failedBlocks = encoded.blocks.countP fun block =>
        (block.datagramIndices.filter (· ∉ dropped)).length < block.sourceSymbols.toNat := by
  obtain ⟨T, hsent⟩ := MediaFecEncoder.encodeFrame_sent code h
  have hlaid := hsent.laidOut
  obtain ⟨hsource, hrepair⟩ := hlaid.lossOutcome_lost dropped decoded decodeDeadlineMissed
  obtain ⟨-, -, hfailed⟩ := foldl_addBlock dropped.toFinset encoded.blocks
    ⟨0, 0, 0, 0, 0, decoded, decodeDeadlineMissed⟩
  refine ⟨hsource, hrepair, ?_, ?_⟩
  · rw [hsource, hrepair]
    exact hlaid.card_roles dropped.toFinset
  · refine hfailed.trans ((Nat.zero_add _).trans (List.countP_congr fun block hblock => ?_))
    have hiff := (hlaid.fits block hblock).failed_iff dropped.toFinset
    simp only [List.mem_toFinset] at hiff
    simpa using hiff

/-- A source datagram that is reported twice, and an index no datagram has. -/
theorem lossOutcome_counts_sample : ∃ encoded : EncodedMediaFrame,
    (encoded.lossOutcome [0, 0, 9] true false).lostSourceDatagrams
      + (encoded.lossOutcome [0, 0, 9] true false).lostRepairDatagrams = 1 := by
  obtain ⟨encoded, encoder', haccepts, hlength, -⟩ := sample_encodeFrame
  refine ⟨encoded, ?_⟩
  obtain ⟨-, -, hsum, -⟩ := lossOutcome_counts repetitionIdeal.toSystematic haccepts [0, 0, 9]
    true false
  rw [hsum, hlength]
  rfl

/-! ## Repeated reports -/

/-- Counting reports and counting datagrams is the same exactly when no datagram is reported
twice. -/
lemma EncodedMediaFrame.LaidOut.countP_eq_card_iff {frame : EncodedMediaFrame} (h : frame.LaidOut)
    (dropped : List ℕ) :
    (∀ role, (dropped.countP fun j => frame.datagramRole j = some role)
      = (dropped.toFinset.filter fun j => frame.datagramRole j = some role).card) ↔
    (dropped.filter fun j => j < frame.datagrams.length).Nodup := by
  have hset : ∀ p : ℕ → Prop, ∀ _ : DecidablePred p,
      (dropped.toFinset.filter p).card = (dropped.filter p).toFinset.card := by
    intro p _
    congr 1
    ext j
    simp
  have hone : ∀ j, (if frame.datagramRole j = some .source then 1 else 0)
      + (if frame.datagramRole j = some .repair then 1 else 0)
      = if j < frame.datagrams.length then 1 else 0 := by
    intro j
    simp only [← h.isSome_datagramRole]
    cases frame.datagramRole j with
    | none => rfl
    | some role => cases role <;> rfl
  have hroles : (dropped.countP fun j => frame.datagramRole j = some .source)
      + (dropped.countP fun j => frame.datagramRole j = some .repair)
      = (dropped.filter fun j => j < frame.datagrams.length).length := by
    rw [← List.countP_eq_length_filter]
    clear hset
    induction dropped with
    | nil => rfl
    | cons j dropped ih =>
        have hj := hone j
        simp only [List.countP_cons, decide_eq_true_eq]
        omega
  constructor
  · intro hcount
    have hcard := h.card_roles dropped.toFinset
    rw [← hcount .source, ← hcount .repair, hroles, hset] at hcard
    exact Multiset.toFinset_card_eq_card_iff_nodup.mp hcard.symm
  · intro hnodup role
    rw [hset, List.countP_eq_length_filter, List.toFinset_card_of_nodup]
    have hsub : (dropped.filter fun j => frame.datagramRole j = some role)
        = (dropped.filter fun j => j < frame.datagrams.length).filter
            fun j => frame.datagramRole j = some role := by
      rw [List.filter_filter]
      refine List.filter_congr fun j _ => ?_
      have hj := h.isSome_datagramRole (j := j)
      by_cases hrole : frame.datagramRole j = some role
      · rw [hrole] at hj
        simp [hrole, hj.mp rfl]
      · simp [hrole]
    rw [hsub]
    exact hnodup.filter _

/-- **When the two counts agree.**  For a frame the encoder produced, `lost_datagram_roles` returns
the counts of `loss_outcome` exactly when no datagram of the frame is reported twice. -/
theorem lostDatagramRoles_eq_iff {X : Crates} (code : X.Systematic)
    {encoder encoder' : MediaFecEncoder} {frame : MediaFrame} {encoded : EncodedMediaFrame}
    (h : encoder.encodeFrame X frame = some (.ok encoded, encoder')) (dropped : List ℕ)
    (decoded decodeDeadlineMissed : Bool) :
    let outcome := encoded.lossOutcome dropped decoded decodeDeadlineMissed
    encoded.lostDatagramRoles dropped
        = (outcome.lostSourceDatagrams, outcome.lostRepairDatagrams) ↔
      (dropped.filter fun j => j < encoded.datagrams.length).Nodup := by
  obtain ⟨T, hsent⟩ := MediaFecEncoder.encodeFrame_sent code h
  have hlaid := hsent.laidOut
  obtain ⟨hsource, hrepair⟩ := hlaid.lossOutcome_lost dropped decoded decodeDeadlineMissed
  intro outcome
  rw [← hlaid.countP_eq_card_iff, encoded.lostDatagramRoles_eq, Prod.mk.injEq]
  constructor
  · rintro ⟨hs, hr⟩ role
    cases role with
    | source => exact hs.trans hsource
    | repair => exact hr.trans hrepair
  · intro hcount
    exact ⟨(hcount .source).trans hsource.symm, (hcount .repair).trans hrepair.symm⟩

/-- Two losses, one of them reported with an index no datagram has. -/
theorem lostDatagramRoles_eq_iff_sample : ∃ encoded : EncodedMediaFrame,
    encoded.lostDatagramRoles [0, 9, 9, 2]
      = ((encoded.lossOutcome [0, 9, 9, 2] true false).lostSourceDatagrams,
        (encoded.lossOutcome [0, 9, 9, 2] true false).lostRepairDatagrams) := by
  obtain ⟨encoded, encoder', haccepts, hlength, -⟩ := sample_encodeFrame
  refine ⟨encoded, ?_⟩
  refine (lostDatagramRoles_eq_iff repetitionIdeal.toSystematic haccepts [0, 9, 9, 2]
    true false).mpr ?_
  rw [hlength]
  decide

/-- One source datagram is lost and reported twice: `lost_datagram_roles` counts two. -/
theorem lostDatagramRoles_repeats :
    ¬ ∀ (encoder encoder' : MediaFecEncoder) (frame : MediaFrame) (encoded : EncodedMediaFrame),
      encoder.encodeFrame repetition frame = some (.ok encoded, encoder') →
      ∀ (dropped : List ℕ) (decoded decodeDeadlineMissed : Bool),
        encoded.lostDatagramRoles dropped
          = ((encoded.lossOutcome dropped decoded decodeDeadlineMissed).lostSourceDatagrams,
            (encoded.lossOutcome dropped decoded decodeDeadlineMissed).lostRepairDatagrams) := by
  intro hall
  obtain ⟨encoded, encoder', haccepts, hlength, -⟩ := sample_encodeFrame
  obtain ⟨T, hsent⟩ := MediaFecEncoder.encodeFrame_sent repetitionIdeal.toSystematic haccepts
  have hlaid := hsent.laidOut
  have heq := hall _ _ _ _ haccepts [0, 0] true false
  obtain ⟨hsource, hrepair⟩ := hlaid.lossOutcome_lost [0, 0] true false
  rw [encoded.lostDatagramRoles_eq, hsource, hrepair, Prod.mk.injEq] at heq
  have hnodup := (hlaid.countP_eq_card_iff [0, 0]).mp fun role => by
    cases role with
    | source => exact heq.1
    | repair => exact heq.2
  rw [hlength] at hnodup
  exact absurd hnodup (by decide)

end RaptorFec
