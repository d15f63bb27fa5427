import RaptorFec.Crates.Repetition
import RaptorFec.Media.Decoder

/-!
# The window of returned frames

A frame that is complete leaves `partial` and its key enters `completed`; of its stream, only keys
at most 128 sequence numbers before it are kept there.  Partial frames have no such rule: one that
never completes stays.

* `pushDatagram_cases` — everything a push can do to the two collections;
* `partials_held_iff`, `completed_held_iff` — the partial frames are those touched and not completed
  since, the completed keys those completed and not passed by more than 128 since;
* `stale_partials_iff` — a completed frame leaves no partial frame of its stream more than 128 before
  it, exactly when all of these had been completed;
* `returned_again` — between two returns of a frame a frame more than 128 after it is completed;
* `lossy_frame_stays` — a partial frame that is left behind.
-/

namespace RaptorFec

variable {X : Crates}

/-! ## What a push does -/

/-- The key lies more than 128 sequence numbers before another one of its stream. -/
def FrameKey.Behind (key current : FrameKey) : Prop :=
  key.1 = current.1 ∧ key.2.toNat + 128 < current.2.toNat

lemma FrameKey.Behind.ne {key current : FrameKey} (h : key.Behind current) : key ≠ current := by
  rintro rfl
  have hlt := h.2
  omega

/-- The push gets a fragment of a frame that is not remembered as returned. -/
structure MediaFecDecoder.Files (decoder : MediaFecDecoder X) (datagram : Bytes)
    (header : MediaFragmentHeader) (fragment : Bytes) : Prop where
  block : ∃ block, (decoder.fec.pushDatagram datagram).1 = .ok (some block) ∧
    mediaFrameHeaderLen ≤ block.length ∧
    MediaFragmentHeader.decode (block.take mediaFrameHeaderLen) = .ok header ∧
    fragment = block.drop mediaFrameHeaderLen
  index : ¬ (header.fragmentCount = 0 ∨ header.fragmentCount ≤ header.fragmentIndex)
  notCompleted : header.metadata.key ∉ decoder.completed

namespace MediaFecDecoder

variable (self : MediaFecDecoder X)

/-- The partial frame a fragment is filed in. -/
def entryFor (header : MediaFragmentHeader) : PartialFrame :=
  (self.partials.lookup header.metadata.key).getD
    (PartialFrame.new header.metadata header.fragmentCount header.accessUnitLen.toNat)

/-- The push gets to the partial frame with this key. -/
def Touches (datagram : Bytes) (key : FrameKey) : Prop :=
  ∃ header fragment, self.Files datagram header fragment ∧ header.metadata.key = key

/-- The frame with this key has all its fragments with the push. -/
def Completes (datagram : Bytes) (key : FrameKey) : Prop :=
  ∃ header fragment entry, self.Files datagram header fragment ∧ header.metadata.key = key ∧
    (self.entryFor header).insert header fragment = .ok entry ∧ entry.isComplete

/-- The push completes a frame of the stream that lies more than 128 sequence numbers after the
key. -/
def Passes (datagram : Bytes) (key : FrameKey) : Prop :=
  ∃ current, self.Completes datagram current ∧ key.Behind current

variable {self} {datagram : Bytes} {header header' : MediaFragmentHeader}
  {fragment fragment' : Bytes} {key key' : FrameKey}

lemma metadata_of_insert {entry entry' : PartialFrame}
    (h : entry.insert header fragment = .ok entry') : entry'.metadata = header.metadata := by
  rw [PartialFrame.insert] at h
  split_ifs at h with hmetadata hlen
  simp only at h
  split_ifs at h with hindex hempty
  · rw [← Except.ok.inj h]
    exact (not_not.mp hmetadata).symm
  · rw [← Except.ok.inj h]
    exact (not_not.mp hmetadata).symm

lemma metadata_of_finish {entry : PartialFrame} {frame : DecodedMediaFrame}
    (h : entry.finish = .ok frame) : frame.metadata = entry.metadata := by
  rw [PartialFrame.finish] at h
  cases hjoin : joinFragments entry.fragments with
  | error error =>
      rw [hjoin] at h
      cases h
  | ok payload =>
      rw [hjoin, ok_bind] at h
      split_ifs at h with hlen
      rw [← Except.ok.inj h]

lemma Files.unique (h : self.Files datagram header fragment)
    (h' : self.Files datagram header' fragment') : header = header' ∧ fragment = fragment' := by
  obtain ⟨block, hblock, -, hdecode, rfl⟩ := h.block
  obtain ⟨block', hblock', -, hdecode', rfl⟩ := h'.block
  obtain rfl := Option.some.inj (Except.ok.inj (hblock.symm.trans hblock'))
  exact ⟨Except.ok.inj (hdecode.symm.trans hdecode'), rfl⟩

lemma Completes.touches (h : self.Completes datagram key) : self.Touches datagram key := by
  obtain ⟨header, fragment, -, hfiles, hkey, -⟩ := h
  exact ⟨header, fragment, hfiles, hkey⟩

lemma touches_iff (h : self.Files datagram header fragment) :
    self.Touches datagram key ↔ header.metadata.key = key := by
  constructor
  · rintro ⟨header', fragment', h', rfl⟩
    rw [(h.unique h').1]
  · intro hkey
    exact ⟨header, fragment, h, hkey⟩

/-- A push completes one frame at most. -/
lemma Completes.unique (h : self.Completes datagram key) (h' : self.Completes datagram key') :
    key = key' := by
  obtain ⟨header, fragment, hfiles, rfl⟩ := h.touches
  exact (touches_iff hfiles).mp h'.touches

/-- A push that files nothing leaves both collections alone, and returns no frame. -/
lemma absorb_idle (hidle : ∀ header fragment, ¬ self.Files datagram header fragment) :
    (self.pushDatagram datagram).2.toFrameAssembly = self.toFrameAssembly ∧
      ∀ frame, (self.pushDatagram datagram).1 ≠ .ok (some frame) := by
  change (self.toFrameAssembly.absorb (self.fec.pushDatagram datagram).1).2 = _ ∧
    ∀ frame, (self.toFrameAssembly.absorb (self.fec.pushDatagram datagram).1).1 ≠ _
  cases hfec : (self.fec.pushDatagram datagram).1 with
  | error error => simp [FrameAssembly.absorb]
  | ok returned =>
      cases returned with
      | none => simp [FrameAssembly.absorb]
      | some block =>
          rw [FrameAssembly.absorb, FrameAssembly.absorbBlock]
          by_cases hshort : block.length < mediaFrameHeaderLen
          · simp [if_pos hshort]
          rw [if_neg hshort]
          cases hdecode : MediaFragmentHeader.decode (block.take mediaFrameHeaderLen) with
          | error error => simp
          | ok header =>
              by_cases hindex : header.fragmentCount = 0 ∨ header.fragmentCount ≤ header.fragmentIndex
              · simp [if_pos hindex]
              simp only [if_neg hindex]
              by_cases hcompleted : header.metadata.key ∈ self.completed
              · simp [FrameAssembly.absorbFragment, hcompleted]
              · exact absurd ⟨⟨block, hfec, Nat.not_lt.mp hshort, hdecode, rfl⟩, hindex, hcompleted⟩
                  (hidle header _)

/-- A push that files a fragment hands it to its partial frame. -/
lemma absorb_files (h : self.Files datagram header fragment) :
    (self.pushDatagram datagram).1 = (self.toFrameAssembly.absorbInto header.metadata.key
        (self.entryFor header) header fragment).1 ∧
      (self.pushDatagram datagram).2.toFrameAssembly
        = (self.toFrameAssembly.absorbInto header.metadata.key (self.entryFor header) header
            fragment).2 := by
  obtain ⟨block, hfec, hlong, hdecode, rfl⟩ := h.block
  change (self.toFrameAssembly.absorb (self.fec.pushDatagram datagram).1).1 = _ ∧
    (self.toFrameAssembly.absorb (self.fec.pushDatagram datagram).1).2 = _
  rw [hfec, FrameAssembly.absorb, FrameAssembly.absorbBlock, if_neg (Nat.not_lt.mpr hlong), hdecode]
  simp only [if_neg h.index]
  rw [FrameAssembly.absorbFragment]
  simp only [if_neg h.notCompleted]
  exact ⟨rfl, rfl⟩

/-- **What a push does to the two collections**: nothing, or it stores the partial frame of a
fragment, or it completes the frame. -/
theorem pushDatagram_cases (self : MediaFecDecoder X) (datagram : Bytes) :
    ((∀ key, ¬ self.Touches datagram key) ∧
      (self.pushDatagram datagram).2.toFrameAssembly = self.toFrameAssembly ∧
      ∀ frame, (self.pushDatagram datagram).1 ≠ .ok (some frame)) ∨
    (∃ key entry, (∀ key', self.Touches datagram key' ↔ key = key') ∧
      (∀ key', ¬ self.Completes datagram key') ∧
      (self.pushDatagram datagram).2.toFrameAssembly
        = { self.toFrameAssembly with partials := self.partials.insert key entry } ∧
      ∀ frame, (self.pushDatagram datagram).1 ≠ .ok (some frame)) ∨
    (∃ key, ∃ entry : PartialFrame, (∀ key', self.Touches datagram key' ↔ key = key') ∧
      (∀ key', self.Completes datagram key' ↔ key = key') ∧
      (self.pushDatagram datagram).2.toFrameAssembly
        = { partials := self.partials.erase key
            completed := pruneCompleted (insert key self.completed) key } ∧
      (self.pushDatagram datagram).1 = entry.finish.map some ∧ entry.metadata.key = key) := by
  by_cases hfiles : ∃ header fragment, self.Files datagram header fragment
  · obtain ⟨header, fragment, hfiles⟩ := hfiles
    obtain ⟨hresult, hstate⟩ := absorb_files hfiles
    have htouches : ∀ key', self.Touches datagram key' ↔ header.metadata.key = key' :=
      fun key' => touches_iff hfiles
    cases hinsert : (self.entryFor header).insert header fragment with
    | error error =>
        rw [FrameAssembly.absorbInto, hinsert] at hresult hstate
        refine Or.inr (Or.inl ⟨_, _, htouches, ?_, hstate, ?_⟩)
        · rintro key' ⟨header', fragment', entry, hfiles', -, hinsert', -⟩
          obtain ⟨rfl, rfl⟩ := hfiles.unique hfiles'
          cases hinsert.symm.trans hinsert'
        · simp [hresult]
    | ok entry =>
        rw [FrameAssembly.absorbInto, hinsert] at hresult hstate
        by_cases hcomplete : entry.isComplete
        · simp only [if_neg (not_not.mpr hcomplete)] at hresult hstate
          refine Or.inr (Or.inr ⟨_, entry, htouches, ?_, hstate, hresult, ?_⟩)
          · intro key'
            constructor
            · intro hcompletes
              exact (htouches key').mp hcompletes.touches
            · intro hkey
              exact ⟨header, fragment, entry, hfiles, hkey, hinsert, hcomplete⟩
          · rw [metadata_of_insert hinsert]
        · simp only [if_pos hcomplete] at hresult hstate
          refine Or.inr (Or.inl ⟨_, _, htouches, ?_, hstate, ?_⟩)
          · rintro key' ⟨header', fragment', entry', hfiles', -, hinsert', hcomplete'⟩
            obtain ⟨rfl, rfl⟩ := hfiles.unique hfiles'
            cases hinsert.symm.trans hinsert'
            exact hcomplete hcomplete'
          · simp [hresult]
  · push Not at hfiles
    obtain ⟨hstate, hresult⟩ := absorb_idle hfiles
    refine Or.inl ⟨?_, hstate, hresult⟩
    rintro key ⟨header, fragment, h, -⟩
    exact hfiles header fragment h

/-- A push that returns a frame completes it. -/
lemma completes_of_returns {frame : DecodedMediaFrame}
    (h : (self.pushDatagram datagram).1 = .ok (some frame)) :
    self.Completes datagram frame.metadata.key := by
  rcases self.pushDatagram_cases datagram with ⟨-, -, hno⟩ | ⟨-, -, -, -, -, hno⟩ |
    ⟨key, entry, -, hcompletes, -, hresult, hkey⟩
  · exact absurd h (hno frame)
  · exact absurd h (hno frame)
  · rw [hresult] at h
    cases hfinish : entry.finish with
    | error error =>
        rw [hfinish] at h
        cases h
    | ok frame' =>
        rw [hfinish] at h
        obtain rfl := Option.some.inj (Except.ok.inj h)
        rw [hcompletes, metadata_of_finish hfinish, hkey]

/-- A partial frame is kept until it is completed. -/
lemma mem_partials_step (self : MediaFecDecoder X) (datagram : Bytes) (key : FrameKey) :
    key ∈ (self.pushDatagram datagram).2.partials ↔
      (key ∈ self.partials ∨ self.Touches datagram key) ∧ ¬ self.Completes datagram key := by
  rcases self.pushDatagram_cases datagram with ⟨htouches, hstate, -⟩ |
    ⟨key', entry, htouches, hcompletes, hstate, -⟩ | ⟨key', entry, htouches, hcompletes, hstate, -⟩
  · have hno : ¬ self.Completes datagram key := fun h => htouches key h.touches
    simp [hstate, htouches key, hno]
  · rw [hstate]
    simp [htouches key, hcompletes key, Finmap.mem_insert, or_comm, eq_comm]
  · rw [hstate]
    simp only [Finmap.mem_erase, htouches key, hcompletes key]
    constructor
    · rintro ⟨hne, hmem⟩
      exact ⟨Or.inl hmem, fun heq => hne heq.symm⟩
    · rintro ⟨hmem | heq, hne⟩
      · exact ⟨fun heq => hne heq.symm, hmem⟩
      · exact absurd heq hne

/-- What `prune_completed` keeps: all but the keys of the stream more than 128 before the new one. -/
lemma mem_pruneCompleted {completed : Finset FrameKey} {current : FrameKey} :
    key ∈ pruneCompleted completed current ↔
      key ∈ completed ∧ ¬ key.Behind current := by
  have hlt : current.2 < 128 ↔ current.2.toNat < 128 := UInt64.lt_iff_toNat_lt
  rw [pruneCompleted, Finset.mem_filter, hlt, FrameKey.Behind]
  refine and_congr_right fun _ => ?_
  by_cases hstream : key.1 = current.1
  · simp only [hstream, ne_eq, not_true, false_or, true_and]
    omega
  · simp [hstream]

/-- A completed key is kept until it is passed. -/
lemma mem_completed_step (self : MediaFecDecoder X) (datagram : Bytes) (key : FrameKey) :
    key ∈ (self.pushDatagram datagram).2.completed ↔
      (key ∈ self.completed ∨ self.Completes datagram key) ∧ ¬ self.Passes datagram key := by
  rcases self.pushDatagram_cases datagram with ⟨htouches, hstate, -⟩ |
    ⟨_, _, -, hcompletes, hstate, -⟩ | ⟨current, _, -, hcompletes, hstate, -⟩
  · have hno : ∀ key, ¬ self.Completes datagram key := fun key h => htouches key h.touches
    simp [hstate, Passes, hno]
  · rw [hstate]
    simp [Passes, hcompletes]
  · rw [hstate]
    simp only [mem_pruneCompleted, Finset.mem_insert, Passes, hcompletes]
    constructor
    · rintro ⟨hmem, hnot⟩
      refine ⟨hmem.symm.imp id Eq.symm, ?_⟩
      rintro ⟨current', rfl, hpassed⟩
      exact hnot hpassed
    · rintro ⟨hmem, hnot⟩
      exact ⟨hmem.symm.imp Eq.symm id, fun hpassed => hnot ⟨current, rfl, hpassed⟩⟩

/-! ## What a run keeps -/

/-- **The partial frames of a run** are those a push got to and no push completed since. -/
theorem partials_held_iff (datagrams : List Bytes) (key : FrameKey) :
    key ∈ (runState pushDatagram (new : MediaFecDecoder X) datagrams).partials ↔
      ∃ past datagram, past ++ [datagram] <+: datagrams ∧
        (runState pushDatagram (new : MediaFecDecoder X) past).Touches datagram key ∧
        ¬ HappensAfter pushDatagram (new : MediaFecDecoder X) past datagrams
          fun decoder datagram => decoder.Completes datagram key :=
  held_iff (fun decoder : MediaFecDecoder X => key ∈ decoder.partials)
    (fun decoder datagram => decoder.Touches datagram key)
    (fun decoder datagram => decoder.Completes datagram key) Finmap.notMem_empty
    (fun decoder datagram => decoder.mem_partials_step datagram key) datagrams

/-- **The completed keys of a run** are those a push completed and no push passed since. -/
theorem completed_held_iff (datagrams : List Bytes) (key : FrameKey) :
    key ∈ (runState pushDatagram (new : MediaFecDecoder X) datagrams).completed ↔
      ∃ past datagram, past ++ [datagram] <+: datagrams ∧
        (runState pushDatagram (new : MediaFecDecoder X) past).Completes datagram key ∧
        ¬ HappensAfter pushDatagram (new : MediaFecDecoder X) past datagrams
          fun decoder datagram => decoder.Passes datagram key :=
  held_iff (fun decoder : MediaFecDecoder X => key ∈ decoder.completed)
    (fun decoder datagram => decoder.Completes datagram key)
    (fun decoder datagram => decoder.Passes datagram key) (by simp [new, FrameAssembly.new])
    (fun decoder datagram => decoder.mem_completed_step datagram key) datagrams

/-- **When a completed frame leaves no stale partial frame.**  Along a run, after every push that
completes a frame no partial frame of its stream is left that lies more than 128 sequence numbers
before it, exactly when at every such push each of these frames that an earlier push got to was
completed since. -/
theorem stale_partials_iff (X : Crates) (datagrams : List Bytes) :
    (EveryStep pushDatagram (new : MediaFecDecoder X) datagrams fun _ decoder datagram =>
      ∀ current, decoder.Completes datagram current →
        ∀ key ∈ (decoder.pushDatagram datagram).2.partials, ¬ key.Behind current) ↔
    EveryStep pushDatagram (new : MediaFecDecoder X) datagrams fun past decoder datagram =>
      ∀ current, decoder.Completes datagram current →
        ∀ key : FrameKey, key.Behind current → ∀ before fragment, before ++ [fragment] <+: past →
          (runState pushDatagram (new : MediaFecDecoder X) before).Touches fragment key →
          HappensAfter pushDatagram (new : MediaFecDecoder X) before past
            fun decoder datagram => decoder.Completes datagram key := by
  refine forall_congr' fun past => forall_congr' fun datagram => imp_congr_right fun _ =>
    forall_congr' fun current => imp_congr_right fun hcompletes => forall_congr' fun key => ?_
  -- the push completes another frame, so it leaves this one as it was
  have hkept : key.Behind current →
      (key ∈ ((runState pushDatagram (new : MediaFecDecoder X) past).pushDatagram datagram).2.partials
        ↔ key ∈ (runState pushDatagram (new : MediaFecDecoder X) past).partials) := by
    intro hbehind
    have hother : ¬ (runState pushDatagram (new : MediaFecDecoder X) past).Touches datagram key := by
      intro htouches
      obtain ⟨header, fragment, hfiles, hkey⟩ := hcompletes.touches
      exact hbehind.ne (((touches_iff hfiles).mp htouches).symm.trans hkey)
    rw [mem_partials_step]
    exact ⟨fun h => h.1.resolve_right hother, fun h => ⟨Or.inl h, fun hc => hother hc.touches⟩⟩
  constructor
  · intro hclean hbehind before fragment hpre htouches
    by_contra hnever
    exact hclean ((hkept hbehind).mpr
      ((partials_held_iff past key).mpr ⟨before, fragment, hpre, htouches, hnever⟩)) hbehind
  · intro hcompleted hmem hbehind
    obtain ⟨before, fragment, hpre, htouches, hnever⟩ :=
      (partials_held_iff past key).mp ((hkept hbehind).mp hmem)
    exact hnever (hcompleted hbehind before fragment hpre htouches)

/-- A datagram that carries a whole block: a fragment without bytes of the frame of stream 1 with
this sequence number. -/
def fragmentDatagram (blockId : UInt32) (sequence : UInt64) (index count : UInt16) : Bytes :=
  let header : MediaFragmentHeader :=
    { metadata := ⟨1, sequence, 0, none, 0, .data, ⟨0⟩⟩
      fragmentIndex := index
      fragmentCount := count
      accessUnitLen := 0
      fragmentOffset := 0 }
  let payload := repetition.serialize ⟨0, 0, header.headerBytes noDtsDeltaMs⟩
  (DatagramFecHeader.sealed repetition blockId 44 0 1 44 payload).headerBytes ++ payload

/-- **A lossy frame stays.**  One of two fragments of frame 0 arrives, the other is lost; frame 129 is
complete. -/
theorem lossy_frame_stays :
    ¬ ∀ (X : Crates) (datagrams : List Bytes),
      EveryStep pushDatagram (new : MediaFecDecoder X) datagrams fun _ decoder datagram =>
        ∀ current, decoder.Completes datagram current →
          ∀ key ∈ (decoder.pushDatagram datagram).2.partials, ¬ key.Behind current := by
  intro hall
  have hstale : ∀ (decoder : MediaFecDecoder repetition) (datagram : Bytes)
      (frame : DecodedMediaFrame),
      (decoder.pushDatagram datagram).1 = .ok (some frame) →
      ((decoder.pushDatagram datagram).2.partials.lookup (1, 0)).isSome →
      FrameKey.Behind (1, 0) frame.metadata.key →
      ¬ ∀ current, decoder.Completes datagram current →
        ∀ key ∈ (decoder.pushDatagram datagram).2.partials, ¬ key.Behind current :=
    fun decoder datagram frame hreturns hmem hbehind hclean =>
      hclean _ (completes_of_returns hreturns) _ (Finmap.lookup_isSome.mp hmem) hbehind
  exact hstale (runState pushDatagram new [fragmentDatagram 0 0 0 2]) (fragmentDatagram 1 129 0 1)
    ⟨⟨1, 129, 0, none, 0, .data, ⟨0⟩⟩, []⟩ (by decide +kernel) (by decide +kernel)
    ⟨rfl, by decide⟩
    (hall repetition [fragmentDatagram 0 0 0 2, fragmentDatagram 1 129 0 1] _ _
      (List.prefix_refl _))

/-- **Between two returns of a frame** the frame is passed: some frame of its stream more than 128
sequence numbers after it received all its fragments. -/
theorem returned_again (X : Crates) (before between : List Bytes) (first second : Bytes)
    {frame frame' : DecodedMediaFrame}
    (hreturned : ((runState pushDatagram (new : MediaFecDecoder X) before).pushDatagram first).1
      = .ok (some frame))
    (hreturned' : ((runState pushDatagram (new : MediaFecDecoder X)
      (before ++ first :: between)).pushDatagram second).1 = .ok (some frame'))
    (hkey : frame.metadata.key = frame'.metadata.key) :
    ∃ mid datagram, mid ++ [datagram] <+: between ∧
      (runState pushDatagram (new : MediaFecDecoder X) (before ++ first :: mid)).Passes datagram
        frame.metadata.key := by
  have hfirst := completes_of_returns hreturned
  obtain ⟨header, fragment, hfiles, hheader⟩ := (completes_of_returns hreturned').touches
  have hforgot : frame.metadata.key
      ∉ (runState pushDatagram (new : MediaFecDecoder X) (before ++ first :: between)).completed := by
    rw [hkey, ← hheader]
    exact hfiles.notCompleted
  have hpre : before ++ [first] <+: before ++ first :: between := by simp
  by_contra hnever
  refine hforgot ((completed_held_iff _ _).mpr ⟨before, first, hpre, hfirst, ?_⟩)
  rintro ⟨mid, datagram, ⟨later, rfl⟩, hmid, hpasses⟩
  rw [List.append_assoc, List.prefix_append_right_inj] at hmid
  cases later with
  | nil =>
      -- the push that returns the frame completes no other frame
      obtain rfl : datagram = first := by simpa using hmid
      rw [List.append_nil] at hpasses
      obtain ⟨current, hcurrent, hbehind⟩ := hpasses
      exact hbehind.ne (hfirst.unique hcurrent)
  | cons datagram' later =>
      rw [List.cons_append, List.cons_prefix_cons] at hmid
      obtain ⟨rfl, hmid⟩ := hmid
      exact hnever ⟨later, datagram, hmid, hpasses⟩

/-- Frame 0 is returned, then frame 129, then frame 0 again. -/
theorem returned_again_passed :
    ∃ mid datagram, mid ++ [datagram] <+: [fragmentDatagram 1 129 0 1] ∧
      (runState pushDatagram (new : MediaFecDecoder repetition)
        ([] ++ fragmentDatagram 0 0 0 1 :: mid)).Passes datagram (1, 0) := by
  have hfirst : (pushDatagram (new : MediaFecDecoder repetition) (fragmentDatagram 0 0 0 1)).1
      = .ok (some ⟨⟨1, 0, 0, none, 0, .data, ⟨0⟩⟩, []⟩) := by decide +kernel
  have hsecond : ((runState pushDatagram (new : MediaFecDecoder repetition)
      ([] ++ fragmentDatagram 0 0 0 1 :: [fragmentDatagram 1 129 0 1])).pushDatagram
        (fragmentDatagram 2 0 0 1)).1 = .ok (some ⟨⟨1, 0, 0, none, 0, .data, ⟨0⟩⟩, []⟩) := by
    decide +kernel
  exact returned_again repetition [] [fragmentDatagram 1 129 0 1] (fragmentDatagram 0 0 0 1)
    (fragmentDatagram 2 0 0 1) hfirst hsecond rfl

end MediaFecDecoder

end RaptorFec
