import RaptorFec.Library.Tiles
import RaptorFec.Media.Recovery

/-!
# The layout of an encoded frame

An encoded frame lists its datagrams, and for each block where its datagrams are among them.  The
roles, the two sending plans and the statistics of a frame are computed from the blocks alone.

**Layout.**  `LaidOut` is what the blocks have to say for that to be right: each block starts where
the one before it ends, and has as many datagrams as source and repair symbols.  The indices, the
roles and the plans of a frame that is laid out follow by induction over its blocks.

**Contents.**  What the datagrams carry comes from the transmission that was sent
(`Transmission.IsSent`); `encodeFrame_layout` puts both together.
-/

namespace RaptorFec

structure MediaFecFrameStats where
  blockCount : ℕ
  sourceDatagrams : ℕ
  repairDatagrams : ℕ
  wireDatagrams : ℕ
  protectedBytes : ℕ
  wireBytes : ℕ
  recoverableSourceDatagrams : ℕ
  maxBlockDatagrams : ℕ
  deriving DecidableEq, Repr

namespace EncodedMediaBlock

variable (self : EncodedMediaBlock)

/-- `datagram_role`. -/
def datagramRole (datagramIndex : ℕ) : Option MediaDatagramRole :=
  if datagramIndex ∈ self.sourceDatagramIndices then some .source
  else if datagramIndex ∈ self.repairDatagramIndices then some .repair
  else none

/-- The indices of the datagrams of the block. -/
def datagramIndices : List ℕ := List.range' self.firstDatagramIndex self.datagramCount

/-- The block has a datagram for each of its symbols, and its indices are machine integers. -/
structure Fits (block : EncodedMediaBlock) : Prop where
  count_eq : block.datagramCount = block.sourceSymbols.toNat + block.repairSymbols.toNat
  le_max : block.firstDatagramIndex + block.datagramCount ≤ usizeMax

end EncodedMediaBlock

namespace EncodedMediaFrame

variable (self : EncodedMediaFrame)

/-- `stats`. -/
def stats : MediaFecFrameStats :=
  { blockCount := self.blocks.length
    sourceDatagrams := (self.blocks.map fun block => block.sourceSymbols.toNat).sum
    repairDatagrams := (self.blocks.map fun block => block.repairSymbols.toNat).sum
    wireDatagrams := self.datagrams.length
    protectedBytes := (self.blocks.map fun block => block.payloadLen).sum
    wireBytes := (self.datagrams.map fun datagram => datagram.length).sum
    recoverableSourceDatagrams := (self.blocks.map fun block => block.repairSymbols.toNat).sum
    maxBlockDatagrams := (self.blocks.map fun block => block.datagramCount).foldl max 0 }

/-- `datagram_role`. -/
def datagramRole (datagramIndex : ℕ) : Option MediaDatagramRole :=
  self.blocks.findSome? fun block => block.datagramRole datagramIndex

/-- The blocks are one behind the other, from the first datagram to the last one. -/
structure LaidOut (frame : EncodedMediaFrame) : Prop where
  fits : ∀ block ∈ frame.blocks, block.Fits
  follow : Follow EncodedMediaBlock.firstDatagramIndex EncodedMediaBlock.datagramIndices 0
    frame.blocks
  total : (frame.blocks.map fun block => block.datagramCount).sum = frame.datagrams.length

end EncodedMediaFrame

/-! ## One block -/

namespace EncodedMediaBlock

variable {block : EncodedMediaBlock}

@[simp] lemma length_datagramIndices (block : EncodedMediaBlock) :
    block.datagramIndices.length = block.datagramCount := List.length_range'

lemma mem_datagramIndices {j : ℕ} : j ∈ block.datagramIndices ↔
    block.firstDatagramIndex ≤ j ∧ j < block.firstDatagramIndex + block.datagramCount :=
  List.mem_range'_1

namespace Fits

lemma sourceDatagramIndices_eq (h : block.Fits) : block.sourceDatagramIndices
    = List.range' block.firstDatagramIndex block.sourceSymbols.toNat := by
  have hcount := h.count_eq
  have hle := h.le_max
  rw [sourceDatagramIndices, rangeIndices, satAddUsize, satAddUsize]
  congr 1
  omega

lemma repairDatagramIndices_eq (h : block.Fits) : block.repairDatagramIndices
    = List.range' (block.firstDatagramIndex + block.sourceSymbols.toNat)
        block.repairSymbols.toNat := by
  have hcount := h.count_eq
  have hle := h.le_max
  rw [repairDatagramIndices, rangeIndices, satAddUsize, satAddUsize]
  congr 1 <;> omega

/-- The source indices come first, and then the repair indices. -/
lemma source_append_repair (h : block.Fits) :
    block.sourceDatagramIndices ++ block.repairDatagramIndices = block.datagramIndices := by
  rw [h.sourceDatagramIndices_eq, h.repairDatagramIndices_eq, datagramIndices, h.count_eq,
    List.range'_append_1]

lemma datagramRole_eq (h : block.Fits) (j : ℕ) : block.datagramRole j =
    if block.firstDatagramIndex ≤ j ∧
        j < block.firstDatagramIndex + block.sourceSymbols.toNat then some .source
    else if block.firstDatagramIndex + block.sourceSymbols.toNat ≤ j ∧
        j < block.firstDatagramIndex + block.datagramCount then some .repair
    else none := by
  simp only [datagramRole, h.sourceDatagramIndices_eq, h.repairDatagramIndices_eq,
    List.mem_range'_1, h.count_eq, Nat.add_assoc]

lemma datagramRole_source (h : block.Fits) {j : ℕ} : block.datagramRole j = some .source ↔
    block.firstDatagramIndex ≤ j ∧ j < block.firstDatagramIndex + block.sourceSymbols.toNat := by
  rw [h.datagramRole_eq]
  split_ifs with hsource hrepair
  · simp [hsource]
  · simp only [Option.some.injEq, reduceCtorEq, false_iff]
    exact hsource
  · simp only [false_iff]
    exact hsource

lemma datagramRole_repair (h : block.Fits) {j : ℕ} : block.datagramRole j = some .repair ↔
    block.firstDatagramIndex + block.sourceSymbols.toNat ≤ j ∧
      j < block.firstDatagramIndex + block.datagramCount := by
  rw [h.datagramRole_eq]
  split_ifs with hsource hrepair
  · simp only [Option.some.injEq, reduceCtorEq, false_iff]
    omega
  · simp [hrepair]
  · simp only [false_iff]
    exact hrepair

/-- Every datagram of the block has a role, and no other. -/
lemma isSome_datagramRole (h : block.Fits) {j : ℕ} :
    (block.datagramRole j).isSome ↔ j ∈ block.datagramIndices := by
  have hcount := h.count_eq
  rw [h.datagramRole_eq, EncodedMediaBlock.mem_datagramIndices]
  split_ifs with hsource hrepair
  · simp only [Option.isSome_some, true_iff]
    omega
  · simp only [Option.isSome_some, true_iff]
    omega
  · simp only [Option.isSome_none, Bool.false_eq_true, false_iff]
    omega

/-- The entries of a role are the indices of that role. -/
lemma mem_sendEntries (h : block.Fits) {role : MediaDatagramRole} {entry : MediaDatagramSend} :
    entry ∈ block.sendEntries role ↔ entry.role = role ∧ entry.blockId = block.blockId ∧
      entry.fragmentIndex = block.fragmentIndex ∧
      block.datagramRole entry.datagramIndex = some role := by
  have hcount := h.count_eq
  rcases entry with ⟨index, blockId, fragmentIndex, role'⟩
  cases role with
  | source =>
      rw [h.datagramRole_source]
      simp only [sendEntries, h.sourceDatagramIndices_eq, List.mem_map, List.mem_range'_1,
        MediaDatagramSend.mk.injEq]
      grind
  | repair =>
      rw [h.datagramRole_repair]
      simp only [sendEntries, h.repairDatagramIndices_eq, List.mem_map, List.mem_range'_1,
        MediaDatagramSend.mk.injEq]
      grind

end Fits

end EncodedMediaBlock

/-! ## All blocks -/

section Blocks

variable {start : ℕ} {blocks : List EncodedMediaBlock}

/-- Blocks that follow each other have the indices from the first one on, in order. -/
lemma flatMap_datagramIndices
    (h : Follow EncodedMediaBlock.firstDatagramIndex EncodedMediaBlock.datagramIndices start
      blocks) :
    blocks.flatMap EncodedMediaBlock.datagramIndices
      = List.range' start (blocks.map fun block => block.datagramCount).sum := by
  induction blocks generalizing start with
  | nil => simp
  | cons block blocks ih =>
      obtain ⟨hfirst, hrest⟩ := h
      rw [EncodedMediaBlock.length_datagramIndices] at hrest
      rw [List.flatMap_cons, ih hrest, EncodedMediaBlock.datagramIndices, hfirst, List.map_cons,
        List.sum_cons, List.range'_append_1]

/-- The search for the role of a datagram finds it in the block the datagram is of. -/
lemma findSome_datagramRole
    (h : Follow EncodedMediaBlock.firstDatagramIndex EncodedMediaBlock.datagramIndices start
      blocks) (hfits : ∀ block ∈ blocks, block.Fits) {block : EncodedMediaBlock}
    (hblock : block ∈ blocks) {j : ℕ} (hj : j ∈ block.datagramIndices) :
    (blocks.findSome? fun block => block.datagramRole j) = block.datagramRole j := by
  induction blocks generalizing start with
  | nil => simp at hblock
  | cons first blocks ih =>
      obtain ⟨hfirst, hrest⟩ := h
      rw [List.findSome?_cons]
      rcases List.mem_cons.mp hblock with rfl | hblock
      · obtain ⟨role, hrole⟩ := Option.isSome_iff_exists.mp
          ((hfits block List.mem_cons_self).isSome_datagramRole.mpr hj)
        rw [hrole]
      · -- an earlier block ends before the datagram
        have hle := (hrest.found block hblock).1
        have hnot : ¬ (first.datagramRole j).isSome := by
          rw [(hfits first List.mem_cons_self).isSome_datagramRole]
          intro hin
          rw [EncodedMediaBlock.mem_datagramIndices] at hj hin
          rw [EncodedMediaBlock.length_datagramIndices] at hle
          omega
        rw [Option.not_isSome_iff_eq_none.mp hnot]
        exact ih hrest (fun block hmem => hfits block (List.mem_cons_of_mem _ hmem)) hblock

/-- The entries of one role are in the order of their indices. -/
lemma pairwise_sendEntries
    (h : Follow EncodedMediaBlock.firstDatagramIndex EncodedMediaBlock.datagramIndices start
      blocks) (hfits : ∀ block ∈ blocks, block.Fits) (role : MediaDatagramRole) :
    (blocks.flatMap fun block => block.sendEntries role).Pairwise fun a b =>
      a.datagramIndex < b.datagramIndex := by
  induction blocks generalizing start with
  | nil => simp
  | cons first blocks ih =>
      obtain ⟨hfirst, hrest⟩ := h
      have hentry : ∀ block ∈ first :: blocks, ∀ entry ∈ block.sendEntries role,
          entry.datagramIndex ∈ block.datagramIndices := by
        intro block hblock entry hentry
        have hfit := hfits block hblock
        rw [← hfit.isSome_datagramRole, (hfit.mem_sendEntries.mp hentry).2.2.2]
        rfl
      rw [List.flatMap_cons, List.pairwise_append]
      refine ⟨?_, ih hrest fun block hmem => hfits block (List.mem_cons_of_mem _ hmem), ?_⟩
      · cases role with
        | source => exact List.pairwise_map.mpr List.pairwise_lt_range'
        | repair => exact List.pairwise_map.mpr List.pairwise_lt_range'
      · intro a ha b hb
        obtain ⟨block, hblock, hb⟩ := List.mem_flatMap.mp hb
        have hle := (hrest.found block hblock).1
        have hfirst' := hentry first List.mem_cons_self a ha
        have hblock' := hentry block (List.mem_cons_of_mem _ hblock) b hb
        rw [EncodedMediaBlock.mem_datagramIndices] at hfirst' hblock'
        rw [EncodedMediaBlock.length_datagramIndices] at hle
        omega

end Blocks

namespace EncodedMediaFrame.LaidOut

variable {frame : EncodedMediaFrame} (h : frame.LaidOut)

include h

/-- The indices of the blocks are those of the datagrams. -/
lemma flatMap_indices : frame.blocks.flatMap EncodedMediaBlock.datagramIndices
    = List.range frame.datagrams.length := by
  rw [flatMap_datagramIndices h.follow, h.total, List.range_eq_range']

lemma exists_block {j : ℕ} (hj : j < frame.datagrams.length) :
    ∃ block ∈ frame.blocks, j ∈ block.datagramIndices := by
  rw [← List.mem_range, ← h.flatMap_indices] at hj
  exact List.mem_flatMap.mp hj

lemma lt_length {block : EncodedMediaBlock} (hblock : block ∈ frame.blocks) {j : ℕ}
    (hj : j ∈ block.datagramIndices) : j < frame.datagrams.length := by
  rw [← List.mem_range, ← h.flatMap_indices]
  exact List.mem_flatMap.mpr ⟨block, hblock, hj⟩

/-- The role of a datagram is the one it has in its block. -/
lemma datagramRole_eq {block : EncodedMediaBlock} (hblock : block ∈ frame.blocks) {j : ℕ}
    (hj : j ∈ block.datagramIndices) : frame.datagramRole j = block.datagramRole j :=
  findSome_datagramRole h.follow h.fits hblock hj

/-- The datagrams of the frame have a role, and no others. -/
lemma isSome_datagramRole {j : ℕ} :
    (frame.datagramRole j).isSome ↔ j < frame.datagrams.length := by
  constructor
  · intro hsome
    obtain ⟨role, hrole⟩ := Option.isSome_iff_exists.mp hsome
    obtain ⟨block, hblock, hin⟩ := List.exists_of_findSome?_eq_some hrole
    refine h.lt_length hblock ((h.fits block hblock).isSome_datagramRole.mp ?_)
    rw [hin]
    rfl
  · intro hj
    obtain ⟨block, hblock, hin⟩ := h.exists_block hj
    rw [h.datagramRole_eq hblock hin]
    exact (h.fits block hblock).isSome_datagramRole.mpr hin

/-- The entries of a plan, in whatever order: an entry of a block, with its role. -/
lemma mem_plan {order : MediaDatagramOrder} {entry : MediaDatagramSend}
    (hentry : entry ∈ frame.datagramSendPlan order) :
    ∃ block ∈ frame.blocks, entry ∈ block.sendEntries entry.role := by
  have hin : ∃ block ∈ frame.blocks, ∃ role, entry ∈ block.sendEntries role := by
    cases order with
    | encoded =>
        obtain ⟨block, hblock, hentry⟩ := List.mem_flatMap.mp hentry
        rcases List.mem_append.mp hentry with hentry | hentry
        · exact ⟨block, hblock, .source, hentry⟩
        · exact ⟨block, hblock, .repair, hentry⟩
    | sourceFirst =>
        rcases List.mem_append.mp hentry with hentry | hentry
        · obtain ⟨block, hblock, hentry⟩ := List.mem_flatMap.mp hentry
          exact ⟨block, hblock, .source, hentry⟩
        · obtain ⟨block, hblock, hentry⟩ := List.mem_flatMap.mp hentry
          exact ⟨block, hblock, .repair, hentry⟩
  obtain ⟨block, hblock, role, hentry⟩ := hin
  refine ⟨block, hblock, ?_⟩
  rw [((h.fits block hblock).mem_sendEntries.mp hentry).1]
  exact hentry

/-- **The encoded order** is that of the datagrams. -/
theorem map_encodedPlan : (frame.datagramSendPlan .encoded).map (·.datagramIndex)
    = List.range frame.datagrams.length := by
  rw [datagramSendPlan, List.map_flatMap, ← h.flatMap_indices]
  refine List.flatMap_congr fun block hblock => ?_
  rw [List.map_append, Transmission.map_sendEntries, Transmission.map_sendEntries]
  exact (h.fits block hblock).source_append_repair

/-- **The source-first order** has every datagram once. -/
theorem map_sourceFirstPlan_perm :
    ((frame.datagramSendPlan .sourceFirst).map (·.datagramIndex)).Perm
      (List.range frame.datagrams.length) := by
  rw [← h.map_encodedPlan]
  exact (List.flatMap_append_perm _ _ _).map _

/-- It has the source datagrams first, and within a role keeps their order. -/
theorem pairwise_sourceFirstPlan : (frame.datagramSendPlan .sourceFirst).Pairwise fun a b =>
    ¬ (a.role = .repair ∧ b.role = .source) ∧
      (a.role = b.role → a.datagramIndex < b.datagramIndex) := by
  have hrole : ∀ role, ∀ entry ∈ frame.blocks.flatMap fun block => block.sendEntries role,
      entry.role = role := by
    intro role entry hentry
    obtain ⟨block, hblock, hentry⟩ := List.mem_flatMap.mp hentry
    exact ((h.fits block hblock).mem_sendEntries.mp hentry).1
  have hsame : ∀ role, (frame.blocks.flatMap fun block => block.sendEntries role).Pairwise
      fun a b => ¬ (a.role = .repair ∧ b.role = .source) ∧
        (a.role = b.role → a.datagramIndex < b.datagramIndex) := by
    intro role
    refine List.Pairwise.imp_of_mem ?_ (pairwise_sendEntries h.follow h.fits role)
    intro a b ha hb hlt
    rw [hrole role a ha, hrole role b hb]
    refine ⟨?_, fun _ => hlt⟩
    rintro ⟨rfl, hsource⟩
    cases hsource
  rw [datagramSendPlan, List.pairwise_append]
  refine ⟨hsame .source, hsame .repair, ?_⟩
  intro a ha b hb
  rw [hrole .source a ha, hrole .repair b hb]
  simp

/-- The statistics count every datagram once. -/
theorem stats_wireDatagrams : frame.stats.sourceDatagrams + frame.stats.repairDatagrams
      = frame.stats.wireDatagrams ∧
    frame.stats.wireDatagrams = frame.datagrams.length := by
  refine ⟨?_, rfl⟩
  have hsum : ∀ blocks : List EncodedMediaBlock, (∀ block ∈ blocks, block.Fits) →
      (blocks.map fun block => block.sourceSymbols.toNat).sum
        + (blocks.map fun block => block.repairSymbols.toNat).sum
        = (blocks.map fun block => block.datagramCount).sum := by
    intro blocks hfits
    induction blocks with
    | nil => rfl
    | cons block blocks ih =>
        have hcount := (hfits block List.mem_cons_self).count_eq
        have hrest := ih fun block hmem => hfits block (List.mem_cons_of_mem _ hmem)
        simp only [List.map_cons, List.sum_cons]
        omega
  exact (hsum frame.blocks h.fits).trans h.total

end EncodedMediaFrame.LaidOut

/-! ## What the encoder lays out -/

/-- A receiver reads this header in the datagram, and this packet behind it. -/
structure ReadsAs (X : Crates) (datagram : Bytes) (header : DatagramFecHeader)
    (packet : EncodingPacket) : Prop where
  header_eq : DatagramFecHeader.decode datagram = .ok header
  packet_eq : ∃ payload, header.payload X datagram = .ok payload ∧ X.deserialize payload = packet

/-- The datagram at index `j` has the id of its block in its header and carries a symbol of the
block's object, whose media header has the fragment index; it is a source datagram if the id of
the symbol is below the source count of the header. -/
def EncodedMediaFrame.IsDatagramOf {X : Crates} (code : X.Systematic) (frame : EncodedMediaFrame)
    (j : ℕ) (blockId : UInt32) (fragmentIndex : UInt16) (role : MediaDatagramRole) : Prop :=
  ∃ datagram header packet object fragmentHeader, frame.datagrams[j]? = some datagram ∧
    ReadsAs X datagram header packet ∧ header.blockId = blockId ∧
    packet = code.packet object header.symbolSize packet.encodingSymbolId.toNat ∧
    MediaFragmentHeader.decode (object.take mediaFrameHeaderLen) = .ok fragmentHeader ∧
    fragmentHeader.fragmentIndex = fragmentIndex ∧
    (role = .source ↔ packet.encodingSymbolId.toNat < header.sourceSymbols.toNat)

namespace Transmission

variable {X : Crates} {code : X.Systematic} {T : Transmission} {encoder : MediaFecEncoder}
  {frame : MediaFrame} {encoded : EncodedMediaFrame}

/-- The blocks of a transmission from one on follow each other. -/
lemma follow_encodedBlocks (T : Transmission) (a k : ℕ) :
    Follow EncodedMediaBlock.firstDatagramIndex EncodedMediaBlock.datagramIndices (T.first a)
      ((List.range' a k).map T.encodedBlock) := by
  induction k generalizing a with
  | zero => trivial
  | succ k ih =>
      rw [List.range'_succ, List.map_cons]
      refine ⟨rfl, ?_⟩
      have hnext : T.first a + (T.encodedBlock a).datagramIndices.length = T.first (a + 1) := by
        rw [EncodedMediaBlock.length_datagramIndices, T.first_succ]
        rfl
      rw [hnext]
      exact ih (a + 1)

lemma fits_encodedBlock {i : ℕ} (hi : i < T.count) : (T.encodedBlock i).Fits where
  count_eq := by
    rw [toNat_sourceSymbols hi]
    rfl
  le_max := first_add_emitted_le hi

/-- **What is sent is laid out.** -/
theorem IsSent.laidOut (h : T.IsSent code encoder frame encoded) : encoded.LaidOut where
  fits block hblock := by
    obtain ⟨i, hi, rfl⟩ := h.mem_blocks.mp hblock
    exact fits_encodedBlock hi
  follow := by
    rw [h.blocks_eq, List.range_eq_range']
    exact T.follow_encodedBlocks 0 T.count
  total := by
    rw [h.blocks_eq, h.datagrams_eq, length_flatMap_blockDatagrams, List.map_map]
    rfl

/-- The datagram at an index of a block. -/
lemma IsSent.isDatagramOf (h : T.IsSent code encoder frame encoded) {block : EncodedMediaBlock}
    (hblock : block ∈ encoded.blocks) {j : ℕ} (hj : j ∈ block.datagramIndices) :
    ∃ role, encoded.datagramRole j = some role ∧
      encoded.IsDatagramOf code j block.blockId block.fragmentIndex role := by
  obtain ⟨i, hi, rfl⟩ := h.mem_blocks.mp hblock
  have hfits := T.fits_encodedBlock hi
  obtain ⟨role, hrole⟩ := Option.isSome_iff_exists.mp (hfits.isSome_datagramRole.mpr hj)
  refine ⟨role, ?_, ?_⟩
  · rw [h.laidOut.datagramRole_eq hblock hj, hrole]
  obtain ⟨hle, hlt⟩ := EncodedMediaBlock.mem_datagramIndices.mp hj
  change T.first i ≤ j at hle
  change j < T.first i + T.emitted i at hlt
  obtain ⟨e, rfl⟩ := Nat.exists_eq_add_of_le hle
  have he : e < T.emitted i := by omega
  obtain ⟨hesi, header, hdecode, hpayload, hannounces, -⟩ := carries code hi he
  have hlength : T.first i + e < encoded.datagrams.length := h.laidOut.lt_length hblock hj
  have hdatagram : encoded.datagrams[T.first i + e]? = some (T.datagram code i e) := by
    rw [List.getElem?_eq_getElem hlength, ← List.getD_eq_getElem _ [] hlength, h.datagrams_eq]
    exact congrArg some (getD_datagrams code hi he)
  have hid : (code.packet (T.block i).object (T.block i).symbolSize e).encodingSymbolId.toNat = e :=
    toNat_ofNat_esi hesi
  refine ⟨_, header, _, (T.block i).object, T.header i, hdatagram,
    ⟨hdecode, _, hpayload, code.deserialize_packet _ _ hesi⟩, ?_, ?_, ?_, rfl, ?_⟩
  · rw [hannounces.blockId, id_block hi]
    rfl
  · rw [hid, hannounces.symbolSize]
  · rw [object_block hi]
    exact T.decode_object i
  · rw [hid, hannounces.sourceSymbols, (T.block i).toNat_sourceSymbols, sourceSymbols_block hi]
    have hsource := hfits.datagramRole_source (j := T.first i + e)
    rw [hrole, toNat_sourceSymbols hi, Option.some.injEq] at hsource
    rw [hsource]
    change T.first i ≤ _ ∧ _ < T.first i + _ ↔ _
    omega

end Transmission

/-- The layout of an encoded frame, and what its datagrams carry. -/
structure EncodedMediaFrame.Layout {X : Crates} (code : X.Systematic)
    (encoded : EncodedMediaFrame) : Prop extends encoded.LaidOut where
  /-- The datagrams of a block carry its id. -/
  blocks : ∀ block ∈ encoded.blocks, ∀ j ∈ block.datagramIndices, ∃ role,
    encoded.datagramRole j = some role ∧
      encoded.IsDatagramOf code j block.blockId block.fragmentIndex role
  /-- The role of a datagram is that of the symbol it carries. -/
  role : ∀ j < encoded.datagrams.length, ∃ datagram header packet,
    encoded.datagrams[j]? = some datagram ∧ ReadsAs X datagram header packet ∧
      (encoded.datagramRole j = some .source ↔
        packet.encodingSymbolId.toNat < header.sourceSymbols.toNat)
  encodedPlan : (encoded.datagramSendPlan .encoded).map (·.datagramIndex)
    = List.range encoded.datagrams.length
  sourceFirstPlan : ((encoded.datagramSendPlan .sourceFirst).map (·.datagramIndex)).Perm
    (List.range encoded.datagrams.length)
  /-- No repair entry is before a source entry, and each role keeps the encoded order. -/
  sourceFirstOrder : (encoded.datagramSendPlan .sourceFirst).Pairwise fun a b =>
    ¬ (a.role = .repair ∧ b.role = .source) ∧
      (a.role = b.role → a.datagramIndex < b.datagramIndex)
  /-- The entries of both plans say what the datagrams are. -/
  entries : ∀ order, ∀ entry ∈ encoded.datagramSendPlan order,
    encoded.datagramRole entry.datagramIndex = some entry.role ∧
      encoded.IsDatagramOf code entry.datagramIndex entry.blockId entry.fragmentIndex entry.role
  stats : encoded.stats.sourceDatagrams + encoded.stats.repairDatagrams
      = encoded.stats.wireDatagrams ∧
    encoded.stats.wireDatagrams = encoded.datagrams.length

/-- A frame that `encode_frame` produces is a transmission. -/
lemma MediaFecEncoder.encodeFrame_sent {X : Crates} (code : X.Systematic)
    {encoder encoder' : MediaFecEncoder} {frame : MediaFrame} {encoded : EncodedMediaFrame}
    (h : encoder.encodeFrame X frame = some (.ok encoded, encoder')) :
    ∃ T : Transmission, T.IsSent code encoder frame encoded := by
  obtain ⟨⟨result, next, pool⟩, hresult, heq⟩ := Option.map_eq_some_iff.mp h
  obtain ⟨rfl, rfl⟩ := Prod.mk.inj heq
  exact encodeFrameWithOptionalPool_sent code hresult

/-- **The layout of the frames the encoder produces.**  Blocks, roles, plans and statistics agree
with what the datagrams carry, for any number and size of blocks. -/
theorem encodeFrame_layout {X : Crates} (code : X.Systematic) {encoder encoder' : MediaFecEncoder}
    {frame : MediaFrame} {encoded : EncodedMediaFrame}
    (h : encoder.encodeFrame X frame = some (.ok encoded, encoder')) : encoded.Layout code := by
  obtain ⟨T, hsent⟩ := MediaFecEncoder.encodeFrame_sent code h
  have hlaid := hsent.laidOut
  refine ⟨hlaid, fun block hblock j hj => hsent.isDatagramOf hblock hj, ?_, hlaid.map_encodedPlan,
    hlaid.map_sourceFirstPlan_perm, hlaid.pairwise_sourceFirstPlan, ?_, hlaid.stats_wireDatagrams⟩
  · intro j hj
    obtain ⟨block, hblock, hin⟩ := hlaid.exists_block hj
    obtain ⟨role, hrole, datagram, header, packet, -, -, hdatagram, hreads, -, -, -, -, hsource⟩ :=
      hsent.isDatagramOf hblock hin
    refine ⟨datagram, header, packet, hdatagram, hreads, ?_⟩
    rw [hrole, Option.some.injEq]
    exact hsource
  · intro order entry hentry
    obtain ⟨block, hblock, hentry⟩ := hlaid.mem_plan hentry
    have hfits := hlaid.fits block hblock
    obtain ⟨-, hid, hfragment, hrole⟩ := hfits.mem_sendEntries.mp hentry
    have hin : entry.datagramIndex ∈ block.datagramIndices := by
      rw [← hfits.isSome_datagramRole, hrole]
      rfl
    have hframe : encoded.datagramRole entry.datagramIndex = some entry.role := by
      rw [hlaid.datagramRole_eq hblock hin, hrole]
    obtain ⟨role, hrole', hdatagram⟩ := hsent.isDatagramOf hblock hin
    rw [hframe, Option.some.injEq] at hrole'
    rw [hid, hfragment, hrole']
    exact ⟨hframe.trans (congrArg some hrole'), hdatagram⟩

/-- Three bytes in two fragments, of two source and one repair datagram each. -/
lemma sample_encodeFrame : ∃ encoded encoder',
    (MediaFecEncoder.fixedFor (sampleTransmission [1, 2, 3] (by decide)) 2 1).encodeFrame repetition
      (sampleFrame [1, 2, 3]) = some (.ok encoded, encoder') ∧ encoded.datagrams.length = 6 ∧
      encoded.blocks = (List.range 2).map
        (sampleTransmission [1, 2, 3] (by decide)).encodedBlock := by
  obtain ⟨encoded, encoder', pool', haccepts, hsent⟩ := sample_accepts [1, 2, 3] (by decide)
  refine ⟨encoded, encoder', ?_, ?_, hsent.blocks_eq⟩
  · rw [MediaFecEncoder.encodeFrame, haccepts]
    rfl
  · rw [hsent.datagrams_eq, Transmission.length_flatMap_blockDatagrams]
    rfl

theorem encodeFrame_layout_sample : ∃ encoded : EncodedMediaFrame, encoded.datagrams.length = 6 ∧
    encoded.Layout repetitionIdeal.toSystematic := by
  obtain ⟨encoded, encoder', haccepts, hlength, -⟩ := sample_encodeFrame
  exact ⟨encoded, hlength, encodeFrame_layout repetitionIdeal.toSystematic haccepts⟩

end RaptorFec
