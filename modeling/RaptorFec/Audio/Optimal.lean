import RaptorFec.Audio.Geometry
import RaptorFec.Library.Pieces

/-!
# The chosen geometry is a cheapest one

`geometryForGroups` tries the largest fragment size and, for each group and each number of fragments,
the smallest size that cuts the group into that many.  No other size is cheaper.

* `totalFragments` — the number of fragments of all groups, the `pieces` of their lengths;
* `score_eq` — the score of a size, for the sizes that need at most the allowed symbols;
* `AtMost` — the best score is not above some bytes on the wire: kept by the loop over the
  candidates (`AtMost.foldl`), and reached for every candidate;
* `tight_mem_candidates` — the sizes that are tight for a group are candidates;
* `geometryForGroups_optimal` — when a geometry is chosen, and that it is a cheapest one.
-/

namespace RaptorFec

/-- The number of fragments of all groups. -/
def totalFragments (groups : List MultichannelAudioGroup) (fragmentPayload : ℕ) : ℕ :=
  (groups.map fun group => group.fragmentCount fragmentPayload).sum

/-- The lengths that are cut: an empty payload counts for one byte. -/
def payloadLens (groups : List MultichannelAudioGroup) : List ℕ :=
  groups.map fun group => max group.payload.length 1

section Total

variable {groups : List MultichannelAudioGroup}

lemma totalFragments_eq (fragmentPayload : ℕ) :
    totalFragments groups fragmentPayload = pieces (payloadLens groups) fragmentPayload := by
  rw [totalFragments, pieces, payloadLens, List.map_map]
  rfl

lemma payloadLens_pos {length : ℕ} (h : length ∈ payloadLens groups) : 0 < length := by
  obtain ⟨group, -, rfl⟩ := List.mem_map.mp h
  exact Nat.lt_of_lt_of_le Nat.one_pos (Nat.le_max_right _ _)

lemma totalFragments_pos (hne : groups ≠ []) {fragmentPayload : ℕ} (hpos : 0 < fragmentPayload) :
    0 < totalFragments groups fragmentPayload := by
  obtain ⟨group, hgroup⟩ := List.exists_mem_of_ne_nil groups hne
  have hmem : max group.payload.length 1 ∈ payloadLens groups := List.mem_map_of_mem hgroup
  rw [totalFragments_eq]
  exact Nat.lt_of_lt_of_le (ceilDiv_pos hpos (payloadLens_pos hmem)) (ceilDiv_le_pieces hmem)

end Total

namespace MultichannelAudioFecConfig

variable {config : MultichannelAudioFecConfig} {groups : List MultichannelAudioGroup}
  {framing fragmentPayload maxPayload : ℕ}

/-! ## Scores -/

/-- The sum that is computed with an overflow check does not overflow. -/
lemma foldlM_of_sum {start : ℕ} (h : start + totalFragments groups fragmentPayload ≤ usizeMax) :
    groups.foldlM
      (fun total group => checkedAddUsize total (group.fragmentCount fragmentPayload)) start
        = some (start + totalFragments groups fragmentPayload) := by
  induction groups generalizing start with
  | nil => rfl
  | cons group groups ih =>
      have hsum : totalFragments (group :: groups) fragmentPayload
          = group.fragmentCount fragmentPayload + totalFragments groups fragmentPayload := by
        rw [totalFragments, List.map_cons, List.sum_cons, totalFragments]
      rw [hsum, ← Nat.add_assoc] at h ⊢
      rw [List.foldlM_cons, checkedAddUsize,
        if_pos (Nat.le_trans (Nat.le_add_right _ _) h)]
      exact ih h

/-- The score of a size that needs at most the allowed symbols. -/
lemma score_eq (hne : groups ≠ []) (hpos : 0 < fragmentPayload)
    (hle : totalFragments groups fragmentPayload ≤ config.maxSourceSymbols.toNat) :
    config.score framing groups fragmentPayload
      = some (satMulUsize (totalFragments groups fragmentPayload)
          (framing + multichannelAudioShardHeaderLen + fragmentPayload),
        totalFragments groups fragmentPayload, fragmentPayload) := by
  have hmax : config.maxSourceSymbols.toNat < 2 ^ 16 := config.maxSourceSymbols.toNat_lt
  have htotal := totalFragments_pos hne hpos
  have hfits : 0 + totalFragments groups fragmentPayload ≤ usizeMax := by
    rw [usizeMax]
    omega
  have hsum := foldlM_of_sum hfits
  rw [Nat.zero_add] at hsum
  rw [score, hsum]
  exact if_neg (by omega)

/-! ## The best score -/

/-- The best score so far is not above some source bytes on the wire. -/
def AtMost (best : Option (ℕ × ℕ × ℕ)) (bytes : ℕ) : Prop := ∃ current ∈ best, current.1 ≤ bytes

/-- A score that is lower in the order of triples has no more bytes. -/
lemma ScoreLt.le {a b : ℕ × ℕ × ℕ} (h : ScoreLt a b) : a.1 ≤ b.1 := by
  rcases h with hlt | ⟨heq, -⟩
  · exact Nat.le_of_lt hlt
  · exact Nat.le_of_eq heq

lemma le_of_not_scoreLt {a b : ℕ × ℕ × ℕ} (h : ¬ ScoreLt a b) : b.1 ≤ a.1 :=
  Nat.le_of_not_lt fun hlt => h (Or.inl hlt)

section Best

variable {best : Option (ℕ × ℕ × ℕ)} {bytes candidate : ℕ} {candidates : List ℕ}

/-- A turn of the loop keeps the best score, or lowers it. -/
lemma AtMost.keepBest (h : AtMost best bytes) :
    AtMost (config.keepBest framing groups best candidate) bytes := by
  obtain ⟨current, hcurrent, hle⟩ := h
  rw [Option.mem_def] at hcurrent
  subst hcurrent
  rw [MultichannelAudioFecConfig.keepBest]
  cases config.score framing groups candidate with
  | none => exact ⟨current, rfl, hle⟩
  | some score =>
      simp only [Option.all_some, decide_eq_true_eq]
      split_ifs with hlt
      · exact ⟨score, rfl, Nat.le_trans hlt.le hle⟩
      · exact ⟨current, rfl, hle⟩

/-- A turn of the loop takes the candidate into account. -/
lemma atMost_keepBest {score : ℕ × ℕ × ℕ}
    (h : config.score framing groups candidate = some score) :
    AtMost (config.keepBest framing groups best candidate) score.1 := by
  rw [keepBest, h]
  cases best with
  | none => exact ⟨score, rfl, Nat.le_refl _⟩
  | some current =>
      simp only [Option.all_some, decide_eq_true_eq]
      split_ifs with hlt
      · exact ⟨score, rfl, Nat.le_refl _⟩
      · exact ⟨current, rfl, le_of_not_scoreLt hlt⟩

lemma AtMost.foldl (h : AtMost best bytes) :
    AtMost (candidates.foldl (config.keepBest framing groups) best) bytes := by
  induction candidates generalizing best with
  | nil => exact h
  | cons candidate candidates ih => exact ih h.keepBest

/-- **The loop over the candidates** ends with a score that is not above that of any of them. -/
theorem atMost_foldl {score : ℕ × ℕ × ℕ} (hmem : candidate ∈ candidates)
    (h : config.score framing groups candidate = some score) :
    AtMost (candidates.foldl (config.keepBest framing groups) best) score.1 := by
  induction candidates generalizing best with
  | nil => cases hmem
  | cons first candidates ih =>
      rcases List.mem_cons.mp hmem with rfl | hmem
      · exact (atMost_keepBest h).foldl
      · exact ih hmem

end Best

/-! ## The candidates -/

/-- The sizes that are tried. -/
def candidates (config : MultichannelAudioFecConfig) (maxPayload : ℕ)
    (groups : List MultichannelAudioGroup) : List ℕ :=
  btreeSet (maxPayload :: groups.flatMap (config.groupCandidates maxPayload))

lemma maxPayload_mem_candidates : maxPayload ∈ config.candidates maxPayload groups :=
  mem_btreeSet.mpr List.mem_cons_self

/-- Candidates are positive and within the largest size. -/
lemma candidates_bounds {candidate : ℕ} (hmax : 0 < maxPayload)
    (h : candidate ∈ config.candidates maxPayload groups) :
    0 < candidate ∧ candidate ≤ maxPayload := by
  rcases List.mem_cons.mp (mem_btreeSet.mp h) with rfl | hgroup
  · exact ⟨hmax, Nat.le_refl _⟩
  · obtain ⟨group, -, hgroup⟩ := List.mem_flatMap.mp hgroup
    exact mem_groupCandidates hmax hgroup

/-- **A size that is tight for one of the groups is a candidate**, when the groups are cut into at
most the allowed fragments. -/
lemma tight_mem_candidates {length : ℕ} (hmem : length ∈ payloadLens groups)
    (hpos : 0 < fragmentPayload) (hle : fragmentPayload ≤ maxPayload)
    (htotal : totalFragments groups fragmentPayload ≤ config.maxSourceSymbols.toNat) :
    tight fragmentPayload length ∈ config.candidates maxPayload groups := by
  have hlength := payloadLens_pos hmem
  have htight_le : tight fragmentPayload length ≤ maxPayload :=
    Nat.le_trans (tight_le hpos hlength) hle
  have htight_pos := tight_pos hpos hlength
  have hminimum : length ⌈/⌉ maxPayload ≤ length ⌈/⌉ fragmentPayload := ceilDiv_anti hpos hle
  have hcount : length ⌈/⌉ fragmentPayload ≤ config.maxSourceSymbols.toNat :=
    Nat.le_trans (ceilDiv_le_pieces hmem) ((totalFragments_eq _).symm.trans_le htotal)
  obtain ⟨group, hgroup, rfl⟩ := List.mem_map.mp hmem
  refine mem_btreeSet.mpr (List.mem_cons_of_mem _ (List.mem_flatMap.mpr ⟨group, hgroup, ?_⟩))
  refine List.mem_filterMap.mpr ⟨max group.payload.length 1 ⌈/⌉ fragmentPayload, ?_, ?_⟩
  · rw [List.mem_range'_1]
    omega
  · change (if tight fragmentPayload _ ≤ maxPayload then some (max (tight fragmentPayload _) 1)
      else none) = _
    rw [if_pos htight_le, Nat.max_eq_left htight_pos]

/-! ## The chosen geometry -/

/-- What `geometry_for_groups` returns: the geometry of the best score. -/
lemma geometryForGroups_eq_ok_iff {geometry : MultichannelAudioFecGeometry} :
    config.geometryForGroups groups = .ok geometry ↔
      groups ≠ [] ∧ ∃ framing maxPayload score, config.framingSize = .ok framing ∧
        config.maxFragmentPayload = .ok maxPayload ∧
        (config.candidates maxPayload groups).foldl (config.keepBest framing groups) none
          = some score ∧
        geometry = ⟨UInt16.ofNat (multichannelAudioShardHeaderLen + score.2.2), score.2.2,
          UInt16.ofNat score.2.1, score.1⟩ := by
  rw [geometryForGroups]
  constructor
  · intro h
    split_ifs at h with hempty
    obtain ⟨framing, hframing, h⟩ := bind_eq_ok_iff.mp h
    obtain ⟨maxPayload, hmax, h⟩ := bind_eq_ok_iff.mp h
    simp only at h
    split at h
    · cases h
    · rename_i bytes symbols payload hbest
      exact ⟨hempty, framing, maxPayload, _, hframing, hmax, hbest, (Except.ok.inj h).symm⟩
  · rintro ⟨hne, framing, maxPayload, score, hframing, hmax, hbest, rfl⟩
    rw [candidates] at hbest
    rw [if_neg hne, hframing, ok_bind, hmax, ok_bind]
    simp only [hbest]

/-- The sizes of the configuration keep the source bytes on the wire below `usize::MAX`. -/
def SizesFit (config : MultichannelAudioFecConfig) : Prop :=
  config.maxSourceSymbols.toNat * config.maxDatagramSize ≤ usizeMax

instance (config : MultichannelAudioFecConfig) : Decidable config.SizesFit :=
  inferInstanceAs (Decidable (_ ≤ _))

/-- The source bytes on the wire of a size. -/
def wireBytes (framing : ℕ) (groups : List MultichannelAudioGroup) (fragmentPayload : ℕ) : ℕ :=
  totalFragments groups fragmentPayload
    * (framing + multichannelAudioShardHeaderLen + fragmentPayload)

/-- No multiplication saturates. -/
lemma satMulUsize_eq (hsizes : config.SizesFit)
    (hbudget : framing + multichannelAudioShardHeaderLen + maxPayload ≤ config.maxDatagramSize)
    (hle : fragmentPayload ≤ maxPayload)
    (htotal : totalFragments groups fragmentPayload ≤ config.maxSourceSymbols.toNat) :
    satMulUsize (totalFragments groups fragmentPayload)
        (framing + multichannelAudioShardHeaderLen + fragmentPayload)
      = wireBytes framing groups fragmentPayload := by
  refine Nat.min_eq_left (Nat.le_trans (Nat.mul_le_mul htotal ?_) hsizes)
  omega

/-- The geometry cuts the groups into fragments of a size that is within the largest one and needs
at most the allowed symbols, and no such size takes fewer source bytes on the wire. -/
structure Optimal (config : MultichannelAudioFecConfig) (groups : List MultichannelAudioGroup)
    (framing maxPayload : ℕ) (geometry : MultichannelAudioFecGeometry) : Prop where
  one_le : 1 ≤ geometry.fragmentPayload
  le_max : geometry.fragmentPayload ≤ maxPayload
  sourceSymbols_eq : geometry.sourceSymbols.toNat
    = totalFragments groups geometry.fragmentPayload
  sourceSymbols_le : geometry.sourceSymbols.toNat ≤ config.maxSourceSymbols.toNat
  sourceWireBytes_eq : geometry.sourceWireBytes = geometry.sourceSymbols.toNat
    * (framing + multichannelAudioShardHeaderLen + geometry.fragmentPayload)
  least : ∀ fragmentPayload, 1 ≤ fragmentPayload → fragmentPayload ≤ maxPayload →
    totalFragments groups fragmentPayload ≤ config.maxSourceSymbols.toNat →
    geometry.sourceWireBytes ≤ wireBytes framing groups fragmentPayload

/-- Some candidate is not above the bytes of a size that needs at most the allowed symbols. -/
lemma exists_candidate_le (framing : ℕ) (hne : groups ≠ []) (hpos : 0 < fragmentPayload)
    (hle : fragmentPayload ≤ maxPayload)
    (htotal : totalFragments groups fragmentPayload ≤ config.maxSourceSymbols.toNat) :
    ∃ candidate ∈ config.candidates maxPayload groups, 0 < candidate ∧ candidate ≤ maxPayload ∧
      totalFragments groups candidate ≤ config.maxSourceSymbols.toNat ∧
      wireBytes framing groups candidate ≤ wireBytes framing groups fragmentPayload := by
  have hlens : payloadLens groups ≠ [] := fun hnil => hne (List.map_eq_nil_iff.mp hnil)
  obtain ⟨length, hmem, htight, hpieces⟩ :=
    exists_tight hlens (fun _ hlength => payloadLens_pos hlength) hpos
  have hsame : totalFragments groups (tight fragmentPayload length)
      = totalFragments groups fragmentPayload := by
    rw [totalFragments_eq, totalFragments_eq, hpieces]
  refine ⟨_, tight_mem_candidates hmem hpos hle htotal, tight_pos hpos (payloadLens_pos hmem),
    Nat.le_trans htight hle, hsame ▸ htotal, ?_⟩
  rw [wireBytes, wireBytes, hsame]
  exact Nat.mul_le_mul_left _ (Nat.add_le_add_left htight _)

/-- A geometry that was chosen is a cheapest one. -/
lemma optimal_of_ok (hsizes : config.SizesFit) {geometry : MultichannelAudioFecGeometry}
    (h : config.geometryForGroups groups = .ok geometry) :
    ∃ framing maxPayload, config.framingSize = .ok framing ∧
      config.maxFragmentPayload = .ok maxPayload ∧
      config.Optimal groups framing maxPayload geometry := by
  obtain ⟨hne, framing, maxPayload, score, hframing, hmax, hbest, rfl⟩ :=
    geometryForGroups_eq_ok_iff.mp h
  obtain ⟨hmax_pos, hbudget, -, -⟩ := maxFragmentPayload_ok hframing hmax
  obtain ⟨candidate, hmem, hscore⟩ := (keepBest_foldl hbest).resolve_left (by simp)
  obtain ⟨rfl, -, hsymbols_lt, hsymbols_le, hsymbols_eq⟩ := score_eq_some hscore
  obtain ⟨hpos, hle⟩ := candidates_bounds hmax_pos hmem
  have htotal : totalFragments groups score.2.2 ≤ config.maxSourceSymbols.toNat :=
    hsymbols_eq.symm.trans_le hsymbols_le
  have hcount : (UInt16.ofNat score.2.1).toNat = score.2.1 := UInt16.toNat_ofNat_of_lt' hsymbols_lt
  have hbytes : score.1 = wireBytes framing groups score.2.2 := by
    rw [score_eq hne hpos htotal, satMulUsize_eq hsizes hbudget hle htotal] at hscore
    exact (congrArg Prod.fst (Option.some.inj hscore)).symm
  refine ⟨framing, maxPayload, hframing, hmax, hpos, hle, hcount.trans hsymbols_eq,
    hcount.trans_le hsymbols_le, ?_, fun fragmentPayload hone hfragment hsymbols => ?_⟩
  · change score.1 = (UInt16.ofNat score.2.1).toNat * _
    rw [hcount, hbytes, hsymbols_eq]
    rfl
  · obtain ⟨other, hother, hother_pos, hother_le, hother_total, hcheaper⟩ :=
      exists_candidate_le framing hne hone hfragment hsymbols
    have hloop : AtMost ((config.candidates maxPayload groups).foldl
        (config.keepBest framing groups) none) _ :=
      atMost_foldl hother (score_eq hne hother_pos hother_total)
    obtain ⟨best, hbest', hatMost⟩ := hloop
    rw [hbest, Option.mem_def] at hbest'
    obtain rfl := Option.some.inj hbest'
    rw [satMulUsize_eq hsizes hbudget hother_le hother_total] at hatMost
    exact Nat.le_trans hatMost hcheaper

/-- A geometry is chosen exactly when the largest size needs at most the allowed symbols. -/
lemma geometryForGroups_isOk_iff (hne : groups ≠ []) :
    (∃ geometry, config.geometryForGroups groups = .ok geometry) ↔
      ∃ symbolSize maxPayload, config.symbolSize = .ok symbolSize ∧
        config.maxFragmentPayload = .ok maxPayload ∧
        totalFragments groups maxPayload ≤ config.maxSourceSymbols.toNat := by
  constructor
  · rintro ⟨geometry, h⟩
    obtain ⟨-, framing, maxPayload, score, hframing, hmax, hbest, -⟩ :=
      geometryForGroups_eq_ok_iff.mp h
    obtain ⟨hmax_pos, -⟩ := maxFragmentPayload_ok hframing hmax
    obtain ⟨symbolSize, hsymbol, -⟩ := bind_eq_ok_iff.mp hmax
    obtain ⟨candidate, hmem, hscore⟩ := (keepBest_foldl hbest).resolve_left (by simp)
    obtain ⟨-, -, -, hsymbols_le, hsymbols_eq⟩ := score_eq_some hscore
    obtain ⟨hpos, hle⟩ := candidates_bounds hmax_pos hmem
    refine ⟨symbolSize, maxPayload, hsymbol, hmax, Nat.le_trans ?_ hsymbols_le⟩
    rw [hsymbols_eq]
    change _ ≤ totalFragments groups candidate
    rw [totalFragments_eq, totalFragments_eq]
    exact pieces_anti hpos hle
  · rintro ⟨symbolSize, maxPayload, hsymbol, hmax, htotal⟩
    obtain ⟨framing, hframing, -⟩ := bind_eq_ok_iff.mp hsymbol
    obtain ⟨hmax_pos, -⟩ := maxFragmentPayload_ok hframing hmax
    have hloop : AtMost ((config.candidates maxPayload groups).foldl
        (config.keepBest framing groups) none) _ :=
      atMost_foldl maxPayload_mem_candidates (score_eq hne hmax_pos htotal)
    obtain ⟨score, hbest, -⟩ := hloop
    exact ⟨_, geometryForGroups_eq_ok_iff.mpr
      ⟨hne, framing, maxPayload, score, hframing, hmax, hbest, rfl⟩⟩

/-- **A geometry is chosen exactly when the largest fragments need at most the allowed symbols, and
then it is a cheapest one.** -/
theorem geometryForGroups_optimal (config : MultichannelAudioFecConfig)
    (groups : List MultichannelAudioGroup) (hne : groups ≠ []) (hsizes : config.SizesFit) :
    ((∃ geometry, config.geometryForGroups groups = .ok geometry) ↔
      ∃ symbolSize maxPayload, config.symbolSize = .ok symbolSize ∧
        config.maxFragmentPayload = .ok maxPayload ∧
        totalFragments groups maxPayload ≤ config.maxSourceSymbols.toNat) ∧
    ∀ geometry, config.geometryForGroups groups = .ok geometry →
      ∃ framing maxPayload, config.framingSize = .ok framing ∧
        config.maxFragmentPayload = .ok maxPayload ∧
        config.Optimal groups framing maxPayload geometry :=
  ⟨geometryForGroups_isOk_iff hne, fun _ h => optimal_of_ok hsizes h⟩

/-- Three bytes of one channel and five of another. -/
def sampleGroups : List MultichannelAudioGroup :=
  [⟨9, 0, 1, .pcm, .s16Le, 0, [1, 2, 3]⟩, ⟨10, 1, 1, .pcm, .s16Le, 0, [1, 2, 3, 4, 5]⟩]

/-- Fragments have at most four bytes, and there are at most eight. -/
def sampleConfig : MultichannelAudioFecConfig := ⟨120, 0, 1, 8⟩

/-- The groups are cut into three fragments, which is within the limit. -/
theorem geometryForGroups_optimal_sample :
    ∃ geometry, sampleConfig.geometryForGroups sampleGroups = .ok geometry ∧
      ∃ framing maxPayload, sampleConfig.framingSize = .ok framing ∧
        sampleConfig.maxFragmentPayload = .ok maxPayload ∧
        sampleConfig.Optimal sampleGroups framing maxPayload geometry := by
  have hoptimal := geometryForGroups_optimal sampleConfig sampleGroups (List.cons_ne_nil _ _)
    (by decide)
  obtain ⟨geometry, hgeometry⟩ := hoptimal.1.mpr ⟨76, 4, by decide, by decide, by decide⟩
  exact ⟨geometry, hgeometry, hoptimal.2 geometry hgeometry⟩

end MultichannelAudioFecConfig

end RaptorFec
