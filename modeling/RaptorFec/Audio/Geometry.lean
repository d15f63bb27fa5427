import RaptorFec.Audio.ShardHeader
import Mathlib.Data.List.Sort

/-!
# The geometry of an audio epoch

All channel groups of an epoch are cut into fragments of one size, which is chosen so that the
source datagrams of the epoch have as few bytes as possible.  The candidates are the largest
size the datagram budget allows and, for each group and each number of fragments, the smallest
size that cuts the group into that many fragments.

`geometryForGroups_fits` says what a geometry that was chosen satisfies.
-/

namespace RaptorFec

/-! ## Ordered collections -/

/-- `sort_by_key`: a stable sort in ascending order of the keys. -/
def sortByKey {α : Type} (key : α → ℕ) (xs : List α) : List α :=
  xs.insertionSort fun a b => key a ≤ key b

/-- A `BTreeSet` with the given elements, in the order it is iterated in. -/
def btreeSet (xs : List ℕ) : List ℕ := xs.dedup.insertionSort (· ≤ ·)

lemma mem_btreeSet {x : ℕ} {xs : List ℕ} : x ∈ btreeSet xs ↔ x ∈ xs := by
  rw [btreeSet, List.mem_insertionSort, List.mem_dedup]

/-! ## Configuration -/

structure MultichannelAudioFecConfig where
  /-- Maximum complete transport message, including any transport prefix. -/
  maxDatagramSize : ℕ
  /-- Bytes added outside the datagram, such as a stream id. -/
  transportOverhead : ℕ
  repairSymbols : UInt32
  maxSourceSymbols : UInt16
  deriving DecidableEq, Repr

/-- `MultichannelAudioFecConfig::default`. -/
def MultichannelAudioFecConfig.default : MultichannelAudioFecConfig := ⟨1200, 0, 4, 256⟩

structure MultichannelAudioGroup where
  groupId : UInt16
  channelStart : UInt16
  channelCount : UInt16
  payloadKind : AudioPayloadKind
  sampleFormat : AudioSampleFormat
  flags : UInt8
  payload : Bytes
  deriving DecidableEq, Repr

structure MultichannelAudioFecGeometry where
  symbolSize : UInt16
  fragmentPayload : ℕ
  sourceSymbols : UInt16
  sourceWireBytes : ℕ
  deriving DecidableEq, Repr

/-- The number of fragments of the group: an empty payload has one. -/
def MultichannelAudioGroup.fragmentCount (group : MultichannelAudioGroup)
    (fragmentPayload : ℕ) : ℕ :=
  max group.payload.length 1 ⌈/⌉ fragmentPayload

namespace MultichannelAudioFecConfig

variable (config : MultichannelAudioFecConfig)

/-- `framing_size`. -/
def framingSize : Except MultichannelAudioFecError ℕ :=
  match checkedAddUsize config.transportOverhead
    (headerLen + encodingPacketHeaderLen + datagramAudioSessionIdLen) with
  | some framing => .ok framing
  | none => .error (.datagramBudgetTooSmall config.maxDatagramSize usizeMax)

/-- `symbol_size`. -/
def symbolSize : Except MultichannelAudioFecError UInt16 := do
  let framing ← config.framingSize
  let required := framing + multichannelAudioShardHeaderLen + 1
  if config.maxDatagramSize < required then
    .error (.datagramBudgetTooSmall config.maxDatagramSize required)
  else
    let symbolSize := config.maxDatagramSize - framing
    if 2 ^ 16 ≤ symbolSize then .error (.symbolSizeTooLarge symbolSize)
    else .ok (UInt16.ofNat symbolSize)

/-- `max_fragment_payload`. -/
def maxFragmentPayload : Except MultichannelAudioFecError ℕ := do
  let symbolSize ← config.symbolSize
  .ok (symbolSize.toNat - multichannelAudioShardHeaderLen)

/-- The sizes that cut a group into a given number of fragments, for every number from the
smallest possible to the largest allowed. -/
def groupCandidates (maxPayload : ℕ) (group : MultichannelAudioGroup) : List ℕ :=
  let payloadLen := max group.payload.length 1
  let minimumFragments := payloadLen ⌈/⌉ maxPayload
  let fragmentCounts :=
    List.range' minimumFragments (config.maxSourceSymbols.toNat + 1 - minimumFragments)
  fragmentCounts.filterMap fun fragments =>
    let candidate := payloadLen ⌈/⌉ fragments
    if candidate ≤ maxPayload then some (max candidate 1) else none

/-- The source bytes on the wire, the source symbols and the fragment size of a candidate, or
nothing when it needs too many symbols. -/
def score (framingSize : ℕ) (groups : List MultichannelAudioGroup) (fragmentPayload : ℕ) :
    Option (ℕ × ℕ × ℕ) := do
  let sourceSymbols ← groups.foldlM
    (fun total group => checkedAddUsize total (group.fragmentCount fragmentPayload)) 0
  if sourceSymbols = 0 ∨ config.maxSourceSymbols.toNat < sourceSymbols ∨
      2 ^ 16 - 1 < sourceSymbols then none
  else
    let datagramSize := framingSize + multichannelAudioShardHeaderLen + fragmentPayload
    some (satMulUsize sourceSymbols datagramSize, sourceSymbols, fragmentPayload)

/-- The order of triples. -/
def ScoreLt (a b : ℕ × ℕ × ℕ) : Prop :=
  a.1 < b.1 ∨ a.1 = b.1 ∧ (a.2.1 < b.2.1 ∨ a.2.1 = b.2.1 ∧ a.2.2 < b.2.2)

instance (a b : ℕ × ℕ × ℕ) : Decidable (ScoreLt a b) := inferInstanceAs (Decidable (_ ∨ _))

/-- One turn of the loop over the candidates. -/
def keepBest (framingSize : ℕ) (groups : List MultichannelAudioGroup)
    (best : Option (ℕ × ℕ × ℕ)) (fragmentPayload : ℕ) : Option (ℕ × ℕ × ℕ) :=
  match config.score framingSize groups fragmentPayload with
  | none => best
  | some score => if best.all fun current => ScoreLt score current then some score else best

/-- `geometry_for_groups`. -/
def geometryForGroups (groups : List MultichannelAudioGroup) :
    Except MultichannelAudioFecError MultichannelAudioFecGeometry :=
  if groups = [] then .error .emptyEpoch
  else do
    let framingSize ← config.framingSize
    let maxPayload ← config.maxFragmentPayload
    let candidates := btreeSet (maxPayload :: groups.flatMap (config.groupCandidates maxPayload))
    match candidates.foldl (config.keepBest framingSize groups) none with
    | none =>
        .error (.tooManySourceSymbols
          ((groups.map fun group => group.fragmentCount maxPayload).sum) config.maxSourceSymbols)
    | some (sourceWireBytes, sourceSymbols, fragmentPayload) =>
        .ok
          { symbolSize := UInt16.ofNat (multichannelAudioShardHeaderLen + fragmentPayload)
            fragmentPayload := fragmentPayload
            sourceSymbols := UInt16.ofNat sourceSymbols
            sourceWireBytes := sourceWireBytes }

end MultichannelAudioFecConfig

/-! ## What a geometry satisfies -/

/-- The geometry cuts the groups into as many fragments as it says, and a datagram of it keeps
within the budget. -/
structure MultichannelAudioFecGeometry.Fits (geometry : MultichannelAudioFecGeometry)
    (config : MultichannelAudioFecConfig) (groups : List MultichannelAudioGroup) : Prop where
  fragmentPayload_pos : 0 < geometry.fragmentPayload
  symbolSize_eq : geometry.symbolSize.toNat
    = multichannelAudioShardHeaderLen + geometry.fragmentPayload
  sourceSymbols_pos : 0 < geometry.sourceSymbols.toNat
  sourceSymbols_eq : geometry.sourceSymbols.toNat
    = (groups.map fun group => group.fragmentCount geometry.fragmentPayload).sum
  sourceSymbols_le : geometry.sourceSymbols.toNat ≤ config.maxSourceSymbols.toNat
  within_budget : config.transportOverhead + headerLen + encodingPacketHeaderLen
    + datagramAudioSessionIdLen + geometry.symbolSize.toNat ≤ config.maxDatagramSize

namespace MultichannelAudioFecConfig

variable {config : MultichannelAudioFecConfig}

/-- The sum that is computed with an overflow check. -/
lemma sum_of_foldlM {fragmentPayload : ℕ} {groups : List MultichannelAudioGroup} {start total : ℕ}
    (h : groups.foldlM
      (fun total group => checkedAddUsize total (group.fragmentCount fragmentPayload)) start
        = some total) :
    total = start + (groups.map fun group => group.fragmentCount fragmentPayload).sum := by
  induction groups generalizing start with
  | nil => simpa using h.symm
  | cons group groups ih =>
      rw [List.foldlM_cons] at h
      obtain ⟨next, hnext, hrest⟩ := Option.bind_eq_some_iff.mp h
      rw [checkedAddUsize] at hnext
      split_ifs at hnext with hle
      obtain rfl := Option.some.inj hnext
      rw [ih hrest, List.map_cons, List.sum_cons, Nat.add_assoc]

/-- The score of a candidate is about that candidate. -/
lemma score_eq_some {framing fragmentPayload : ℕ} {groups : List MultichannelAudioGroup}
    {score : ℕ × ℕ × ℕ} (h : config.score framing groups fragmentPayload = some score) :
    score.2.2 = fragmentPayload ∧ 0 < score.2.1 ∧ score.2.1 < 2 ^ 16 ∧
      score.2.1 ≤ config.maxSourceSymbols.toNat ∧
      score.2.1 = (groups.map fun group => group.fragmentCount fragmentPayload).sum := by
  obtain ⟨sourceSymbols, hsum, hrest⟩ := Option.bind_eq_some_iff.mp h
  have htotal := sum_of_foldlM hsum
  rw [Nat.zero_add] at htotal
  simp only at hrest
  split_ifs at hrest with hlimits
  obtain rfl := Option.some.inj hrest
  refine ⟨rfl, ?_, ?_, ?_, htotal⟩ <;> simp only <;> omega

/-- The score that is kept is that of a candidate. -/
lemma keepBest_foldl {framing : ℕ} {groups : List MultichannelAudioGroup} {candidates : List ℕ}
    {best : Option (ℕ × ℕ × ℕ)} {score : ℕ × ℕ × ℕ}
    (h : candidates.foldl (config.keepBest framing groups) best = some score) :
    best = some score ∨
      ∃ candidate ∈ candidates, config.score framing groups candidate = some score := by
  induction candidates generalizing best with
  | nil => exact Or.inl h
  | cons candidate candidates ih =>
      rcases ih h with hbest | ⟨other, hmem, hscore⟩
      · rw [keepBest] at hbest
        cases hscore : config.score framing groups candidate with
        | none =>
            rw [hscore] at hbest
            exact Or.inl hbest
        | some score' =>
            rw [hscore] at hbest
            simp only at hbest
            split_ifs at hbest
            · exact Or.inr ⟨candidate, List.mem_cons_self, hscore.trans hbest⟩
            · exact Or.inl hbest
      · exact Or.inr ⟨other, List.mem_cons_of_mem _ hmem, hscore⟩

/-- The candidates are positive and within the largest size. -/
lemma mem_groupCandidates {maxPayload candidate : ℕ} {group : MultichannelAudioGroup}
    (hmax : 0 < maxPayload) (h : candidate ∈ config.groupCandidates maxPayload group) :
    0 < candidate ∧ candidate ≤ maxPayload := by
  rw [groupCandidates] at h
  obtain ⟨fragments, -, hsome⟩ := List.mem_filterMap.mp h
  simp only at hsome
  split_ifs at hsome with hle
  obtain rfl := Option.some.inj hsome
  omega

/-- What the budget leaves for a fragment. -/
lemma maxFragmentPayload_ok {framing maxPayload : ℕ} (hframing : config.framingSize = .ok framing)
    (h : config.maxFragmentPayload = .ok maxPayload) :
    0 < maxPayload ∧ framing + multichannelAudioShardHeaderLen + maxPayload
        ≤ config.maxDatagramSize ∧
      multichannelAudioShardHeaderLen + maxPayload < 2 ^ 16 ∧
      framing = config.transportOverhead + headerLen + encodingPacketHeaderLen
        + datagramAudioSessionIdLen := by
  obtain ⟨symbolSize, hsymbol, hpayload⟩ := bind_eq_ok_iff.mp h
  obtain rfl := Except.ok.inj hpayload
  rw [MultichannelAudioFecConfig.symbolSize, hframing, ok_bind] at hsymbol
  simp only at hsymbol
  split_ifs at hsymbol with hbudget hlarge
  obtain rfl := Except.ok.inj hsymbol
  have hframing' : framing = config.transportOverhead + (headerLen + encodingPacketHeaderLen
      + datagramAudioSessionIdLen) := by
    rw [framingSize, checkedAddUsize] at hframing
    split_ifs at hframing
    exact (Except.ok.inj hframing).symm
  rw [UInt16.toNat_ofNat_of_lt' (by simp only [UInt16.size]; omega)]
  omega

/-- **What a chosen geometry satisfies.** -/
theorem geometryForGroups_fits {groups : List MultichannelAudioGroup}
    {geometry : MultichannelAudioFecGeometry}
    (h : config.geometryForGroups groups = .ok geometry) : geometry.Fits config groups := by
  rw [geometryForGroups] at h
  split_ifs at h
  obtain ⟨framing, hframing, h⟩ := bind_eq_ok_iff.mp h
  obtain ⟨maxPayload, hmax, h⟩ := bind_eq_ok_iff.mp h
  obtain ⟨hpos, hbudget, hsmall, hframing_eq⟩ := maxFragmentPayload_ok hframing hmax
  simp only at h
  cases hbest : (btreeSet (maxPayload ::
      groups.flatMap (config.groupCandidates maxPayload))).foldl
      (config.keepBest framing groups) none with
  | none =>
      rw [hbest] at h
      cases h
  | some score =>
      rw [hbest] at h
      obtain rfl := Except.ok.inj h
      rcases keepBest_foldl hbest with hnone | ⟨candidate, hmem, hscore⟩
      · cases hnone
      obtain ⟨rfl, hsymbols_pos, hsymbols_lt, hsymbols_le, hsymbols_eq⟩ := score_eq_some hscore
      have hcandidate : 0 < score.2.2 ∧ score.2.2 ≤ maxPayload := by
        rcases List.mem_cons.mp (mem_btreeSet.mp hmem) with heq | hgroup
        · omega
        · obtain ⟨group, -, hgroup⟩ := List.mem_flatMap.mp hgroup
          exact mem_groupCandidates hpos hgroup
      have hsize : (UInt16.ofNat (multichannelAudioShardHeaderLen + score.2.2)).toNat
          = multichannelAudioShardHeaderLen + score.2.2 :=
        UInt16.toNat_ofNat_of_lt' (by simp only [UInt16.size]; omega)
      have hcount : (UInt16.ofNat score.2.1).toNat = score.2.1 :=
        UInt16.toNat_ofNat_of_lt' (by simp only [UInt16.size]; omega)
      refine ⟨hcandidate.1, hsize, Nat.lt_of_lt_of_eq hsymbols_pos hcount.symm,
        hcount.trans hsymbols_eq, hcount.trans_le hsymbols_le, ?_⟩
      simp only
      rw [hsize]
      omega

end MultichannelAudioFecConfig

end RaptorFec
