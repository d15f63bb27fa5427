import RaptorFec.Crates.Repetition
import RaptorFec.Datagram.Honest
import RaptorFec.Library.Words

/-!
# The block-id window

Block ids are assigned by an encoder whose counter wraps, so a decoder sees the ids of a window
of consecutive numbers modulo `2 ^ 32`.  While the window does not wrap, closing a block never
touches another block of the window.  Pruning compares ids as plain numbers, however: an id in
front of the wrap, when it is closed, drops every id behind the wrap.

* `step_cases` — everything one operation can do to the two maps;
* `Safe` — a closed id is neither delivered again nor given decoder state, and decoder state is
  dropped only by the block's own completion, expiry or geometry conflict;
* `safe_of_uncrossed` — every run inside a window of 64 ids is safe as long as no operation
  `CrossesWrap`, and `forgets_of_crossesWrap` — one that does forgets a block;
* `redelivered_across_wrap` — a run of three pushes that delivers a block twice.
-/

namespace RaptorFec

variable {X : Crates}

/-- The operations on a decoder. -/
inductive FecOp where
  | push (datagram : Bytes)
  | expire (blockId : UInt32)

/-- The block id an operation uses. -/
def FecOp.Uses (X : Crates) (id : UInt32) : FecOp → Prop
  | .push datagram => ∃ header packet, Opens X datagram header packet ∧ header.blockId = id
  | .expire blockId => blockId = id

namespace DatagramFecDecoder

variable (self : DatagramFecDecoder X)

/-- One operation, with its result. -/
def step : FecOp → Except DatagramFecError (Option Bytes) × DatagramFecDecoder X
  | .push datagram => self.pushDatagram datagram
  | .expire blockId => (.ok none, self.expireBlock blockId)

/-- The decoder has state for the block, or remembers that it was closed. -/
def TracksId (id : UInt32) : Prop := id ∈ self.blocks ∨ id ∈ self.completed

/-- The operation returns the object of the block. -/
def Delivers (op : FecOp) (id : UInt32) : Prop :=
  op.Uses X id ∧ ∃ decoded, (self.step op).1 = .ok (some decoded)

/-- The block ends with the operation: its object is returned, or it is expired. -/
def Ends (op : FecOp) (id : UInt32) : Prop := self.Delivers op id ∨ op = .expire id

/-- The operation closes the block: it expires it, or pushes a packet that completes it. -/
def Closes (id : UInt32) : FecOp → Prop
  | .push datagram => ∃ header packet, Opens X datagram header packet ∧ header.blockId = id ∧
      id ∉ self.completed ∧ self.Completes header packet
  | .expire blockId => blockId = id

variable {self}

lemma completes_observe (sequence : UInt32) {header : DatagramFecHeader}
    {packet : EncodingPacket} :
    (self.observe sequence).Completes header packet ↔ self.Completes header packet :=
  ⟨fun h => ⟨⟨h.sourceBlockNumber, h.length, h.agrees⟩, h.returns⟩,
    fun h => ⟨⟨h.sourceBlockNumber, h.length, h.agrees⟩, h.returns⟩⟩

lemma not_ends_push {datagram : Bytes}
    (h : ∀ decoded, (self.pushDatagram datagram).1 ≠ .ok (some decoded)) (id : UInt32) :
    ¬ self.Ends (.push datagram) id := by
  rintro (⟨-, decoded, hdecoded⟩ | hexpire)
  · exact h decoded hdecoded
  · cases hexpire

/-- **What one operation does to the two maps.**  It leaves them alone, drops a block that a
header conflicts with, stores the state of a block that is not closed, or closes a block. -/
theorem step_cases (self : DatagramFecDecoder X) (op : FecOp) :
    (((self.step op).2.blocks = self.blocks ∧ (self.step op).2.completed = self.completed) ∧
      ∀ id, ¬ self.Ends op id) ∨
    (∃ id, ((self.step op).2.blocks = self.blocks.erase id ∧
        (self.step op).2.completed = self.completed) ∧
      (self.step op).1 = .error (.inconsistentBlockGeometry id) ∧ ∀ id, ¬ self.Ends op id) ∨
    (∃ id block, ((self.step op).2.blocks = self.blocks.insert id block ∧
        (self.step op).2.completed = self.completed) ∧
      op.Uses X id ∧ id ∉ self.completed ∧ ∀ id, ¬ self.Ends op id) ∨
    (∃ id, ((self.step op).2.blocks = (self.expireBlock id).blocks ∧
        (self.step op).2.completed = (self.expireBlock id).completed) ∧
      op.Uses X id ∧ self.Closes id op ∧ ∀ id', self.Ends op id' ↔ id' = id) := by
  cases op with
  | expire blockId =>
      refine Or.inr (Or.inr (Or.inr ⟨blockId, ⟨rfl, rfl⟩, rfl, rfl, fun id' => ⟨?_, ?_⟩⟩))
      · rintro (⟨huses, -⟩ | hexpire)
        · exact huses.symm
        · exact (FecOp.expire.inj hexpire).symm
      · rintro rfl
        exact Or.inr rfl
  | push datagram =>
      rcases rejected_or_opens X datagram with ⟨header, packet, hopens⟩ | ⟨error, hreject⟩
      · have hpush := pushDatagram_of_opens self hopens
        have huses : (FecOp.push datagram).Uses X header.blockId :=
          ⟨header, packet, hopens, rfl⟩
        by_cases hclosed : header.blockId ∈ self.completed
        · rw [if_pos hclosed] at hpush
          exact Or.inl ⟨⟨by rw [step, hpush]; rfl, by rw [step, hpush]; rfl⟩,
            not_ends_push fun decoded h => by rw [hpush] at h; cases h⟩
        · rw [if_neg hclosed] at hpush
          rcases pushPacket_cases (self.observe header.packetSequence) header packet with
            ⟨error, hres⟩ | ⟨block, -, -, hres⟩ | ⟨block, hres⟩ | ⟨hcompletes, decoded, hres⟩
          · rw [hres] at hpush
            exact Or.inl ⟨⟨by rw [step, hpush]; rfl, by rw [step, hpush]; rfl⟩,
              not_ends_push fun decoded h => by rw [hpush] at h; cases h⟩
          · rw [hres] at hpush
            exact Or.inr (Or.inl ⟨header.blockId, ⟨by rw [step, hpush]; rfl,
              by rw [step, hpush]; rfl⟩, by rw [step, hpush],
              not_ends_push fun decoded h => by rw [hpush] at h; cases h⟩)
          · rw [hres] at hpush
            exact Or.inr (Or.inr (Or.inl ⟨header.blockId, block, ⟨by rw [step, hpush]; rfl,
              by rw [step, hpush]; rfl⟩, huses, hclosed,
              not_ends_push fun decoded h => by rw [hpush] at h; cases h⟩))
          · rw [hres] at hpush
            refine Or.inr (Or.inr (Or.inr ⟨header.blockId, ⟨by rw [step, hpush]; rfl,
              by rw [step, hpush]; rfl⟩, huses,
              ⟨header, packet, hopens, rfl, hclosed, (completes_observe _).mp hcompletes⟩,
              fun id' => ⟨?_, ?_⟩⟩))
            · rintro (⟨⟨header', packet', hopens', rfl⟩, -⟩ | hexpire)
              · rw [(hopens'.unique hopens).1]
              · cases hexpire
            · rintro rfl
              exact Or.inl ⟨huses, decoded, by rw [step, hpush]⟩
      · exact Or.inl ⟨⟨by rw [step, hreject self], by rw [step, hreject self]⟩,
          not_ends_push fun decoded h => by rw [hreject self] at h; cases h⟩

/-- A push that delivers a block closes it. -/
lemma closes_of_delivers {op : FecOp} {id : UInt32} (h : self.Delivers op id) :
    self.Closes id op := by
  have hends : self.Ends op id := Or.inl h
  rcases step_cases self op with ⟨-, hno⟩ | ⟨-, -, -, hno⟩ | ⟨-, -, -, -, -, hno⟩ |
    ⟨c, -, -, hcloses, hiff⟩
  · exact absurd hends (hno id)
  · exact absurd hends (hno id)
  · exact absurd hends (hno id)
  · obtain rfl := (hiff id).mp hends
    exact hcloses

end DatagramFecDecoder

/-! ## Closing within the window -/

/-- Inside a window of 64 ids, closing `c` drops `x` only across the wrap. -/
lemma retained_of_window {base c x : UInt32} (hc : ahead base c < 64)
    (hwrap : ¬ (base ≤ c ∧ x < base)) : Retained c x := by
  have hb := base.toNat_lt
  have hcn := c.toNat_lt
  rw [ahead_eq_mod] at hc
  rw [UInt32.le_iff_toNat_le, UInt32.lt_iff_toNat_lt] at hwrap
  rw [retained_iff]
  omega

/-- Across the wrap it does drop `x`. -/
lemma not_retained_of_wrap {base c x : UInt32} (hx : ahead base x < 64) (hle : base ≤ c)
    (hlt : x < base) : ¬ Retained c x := by
  have hb := base.toNat_lt
  have hxn := x.toNat_lt
  rw [ahead_eq_mod] at hx
  rw [UInt32.le_iff_toNat_le] at hle
  rw [UInt32.lt_iff_toNat_lt] at hlt
  rw [retained_iff]
  omega

namespace DatagramFecDecoder

variable (self : DatagramFecDecoder X)

/-- The operation closes an id in front of the wrap while an id behind it is tracked. -/
def CrossesWrap (base : UInt32) (op : FecOp) : Prop :=
  ∃ c x, self.Closes c op ∧ self.TracksId x ∧ base ≤ c ∧ x < base

/-- An earlier operation of the run delivered or expired the block. -/
def ClosedIn (X : Crates) (past : List FecOp) (id : UInt32) : Prop :=
  ∃ earlier op, earlier ++ [op] <+: past ∧
    (runState step (new : DatagramFecDecoder X) earlier).Ends op id

/-- **The duties of the window**, at one step of a run. -/
structure Safe (decoder : DatagramFecDecoder X) (past : List FecOp) (op : FecOp) : Prop where
  closed_not_created : ∀ id, ClosedIn X past id → id ∉ (decoder.step op).2.blocks
  closed_not_delivered : ∀ id, ClosedIn X past id → ¬ decoder.Delivers op id
  dropped_only : ∀ id, id ∈ decoder.blocks → id ∉ (decoder.step op).2.blocks →
    decoder.Delivers op id ∨ op = .expire id ∨
      (decoder.step op).1 = .error (.inconsistentBlockGeometry id)

/-- What holds along a run inside the window: closed blocks are remembered, and remembered
blocks have no decoder state. -/
structure Windowed (past : List FecOp) (decoder : DatagramFecDecoder X) : Prop where
  remembers : ∀ id, ClosedIn X past id → id ∈ decoder.completed
  disjoint : ∀ id ∈ decoder.completed, id ∉ decoder.blocks

variable {self} {base : UInt32} {past : List FecOp} {op : FecOp}

lemma windowed_new : Windowed [] (new : DatagramFecDecoder X) where
  remembers id := by
    rintro ⟨earlier, op, hpre, -⟩
    exact absurd (List.prefix_nil.mp hpre) (by simp)
  disjoint id hid := absurd hid (Finset.notMem_empty id)

/-- A block closed by the end of a step was closed before it or by it. -/
lemma closedIn_snoc {id : UInt32} (hself : self = runState step new past)
    (h : ClosedIn X (past ++ [op]) id) : ClosedIn X past id ∨ self.Ends op id := by
  obtain ⟨earlier, op', hpre, hends⟩ := h
  rcases List.prefix_concat_iff.mp hpre with heq | hpre'
  · obtain ⟨rfl, hop⟩ := List.append_inj' heq rfl
    cases hop
    exact Or.inr (hself ▸ hends)
  · exact Or.inl ⟨earlier, op', hpre', hends⟩

/-- The maps after closing an id that retains every tracked id. -/
lemma mem_expireBlock_blocks {c id : UInt32} (hretained : ∀ x, self.TracksId x → Retained c x) :
    id ∈ (self.expireBlock c).blocks ↔ id ≠ c ∧ id ∈ self.blocks := by
  rw [mem_blocks_expireBlock]
  exact ⟨fun h => ⟨h.1, h.2.2⟩, fun h => ⟨h.1, hretained id (Or.inl h.2), h.2⟩⟩

/-- An operation that ends no block keeps the invariant. -/
lemma Windowed.of_not_ends (h : Windowed past self) (hself : self = runState step new past)
    (hends : ∀ id, ¬ self.Ends op id)
    (hcompleted : (self.step op).2.completed = self.completed)
    (hstored : ∀ id, id ∈ (self.step op).2.blocks → id ∈ self.blocks ∨ id ∉ self.completed)
    (hdropped : ∀ id ∈ self.blocks, id ∉ (self.step op).2.blocks →
      (self.step op).1 = .error (.inconsistentBlockGeometry id)) :
    self.Safe past op ∧ Windowed (past ++ [op]) (self.step op).2 := by
  have hopen : ∀ id ∈ self.completed, id ∉ (self.step op).2.blocks := by
    intro id hid hmem
    rcases hstored id hmem with hmem | hno
    · exact h.disjoint id hid hmem
    · exact hno hid
  refine ⟨⟨?_, ?_, ?_⟩, ⟨?_, ?_⟩⟩
  · exact fun id hid => hopen id (h.remembers id hid)
  · exact fun id _ hdelivers => hends id (Or.inl hdelivers)
  · exact fun id hid hno => Or.inr (Or.inr (hdropped id hid hno))
  · intro id hid
    rw [hcompleted]
    rcases closedIn_snoc hself hid with hpast | hend
    · exact h.remembers id hpast
    · exact absurd hend (hends id)
  · rw [hcompleted]
    exact hopen

/-- A block that is delivered was not closed before. -/
lemma notMem_completed_of_delivers {id : UInt32} (hcloses : self.Closes id op)
    (hdelivers : self.Delivers op id) : id ∉ self.completed := by
  cases op with
  | push datagram =>
      obtain ⟨header, packet, -, -, hopen, -⟩ := hcloses
      exact hopen
  | expire blockId =>
      obtain ⟨-, decoded, hdecoded⟩ := hdelivers
      cases hdecoded

/-- An operation that closes a block and retains every tracked id keeps the invariant. -/
lemma Windowed.of_ends (h : Windowed past self) (hself : self = runState step new past)
    {c : UInt32} (hcloses : self.Closes c op) (hends : ∀ id, self.Ends op id ↔ id = c)
    (hblocks : (self.step op).2.blocks = (self.expireBlock c).blocks)
    (hcompleted : (self.step op).2.completed = (self.expireBlock c).completed)
    (hretained : ∀ x, self.TracksId x → Retained c x) :
    self.Safe past op ∧ Windowed (past ++ [op]) (self.step op).2 := by
  have hmemblocks : ∀ {id}, id ∈ (self.step op).2.blocks ↔ id ≠ c ∧ id ∈ self.blocks := by
    intro id
    rw [hblocks]
    exact mem_expireBlock_blocks hretained
  have hmemcompleted : ∀ {id}, id ∈ (self.step op).2.completed ↔ id = c ∨ id ∈ self.completed := by
    intro id
    rw [hcompleted, mem_expireBlock_completed]
    refine ⟨And.left, fun hid => ⟨hid, ?_⟩⟩
    rcases hid with rfl | hid
    · exact retained_self id
    · exact hretained id (Or.inr hid)
  refine ⟨⟨?_, ?_, ?_⟩, ⟨?_, ?_⟩⟩
  · exact fun id hid hmem => h.disjoint id (h.remembers id hid) (hmemblocks.mp hmem).2
  · intro id hid hdelivers
    obtain rfl := (hends id).mp (Or.inl hdelivers)
    exact notMem_completed_of_delivers hcloses hdelivers (h.remembers id hid)
  · intro id hid hno
    rw [hmemblocks, not_and'] at hno
    obtain rfl := not_not.mp (hno hid)
    exact ((hends id).mpr rfl).imp_right Or.inl
  · intro id hid
    rw [hmemcompleted]
    rcases closedIn_snoc hself hid with hpast | hend
    · exact Or.inr (h.remembers id hpast)
    · exact Or.inl ((hends id).mp hend)
  · intro id hid hmem
    rcases hmemcompleted.mp hid with rfl | hid
    · exact (hmemblocks.mp hmem).1 rfl
    · exact h.disjoint id hid (hmemblocks.mp hmem).2

/-- The step lemma: an operation inside the window that does not cross the wrap is safe, and
keeps the invariant. -/
theorem Windowed.step (h : Windowed past self) (hself : self = runState step new past)
    (huses : ∀ id, op.Uses X id → ahead base id < 64) (hcross : ¬ self.CrossesWrap base op) :
    self.Safe past op ∧ Windowed (past ++ [op]) (self.step op).2 := by
  rcases step_cases self op with ⟨⟨hblocks, hcompleted⟩, hends⟩ |
    ⟨c, ⟨hblocks, hcompleted⟩, herror, hends⟩ |
    ⟨c, block, ⟨hblocks, hcompleted⟩, -, hopen, hends⟩ |
    ⟨c, ⟨hblocks, hcompleted⟩, huse, hcloses, hends⟩
  · refine h.of_not_ends hself hends hcompleted ?_ ?_
    · exact fun id hmem => Or.inl (hblocks ▸ hmem)
    · exact fun id hid hno => absurd (hblocks ▸ hid) hno
  · refine h.of_not_ends hself hends hcompleted ?_ ?_
    · intro id hmem
      rw [hblocks, Finmap.mem_erase] at hmem
      exact Or.inl hmem.2
    · intro id hid hno
      rw [hblocks, Finmap.mem_erase, not_and'] at hno
      rw [herror, not_not.mp (hno hid)]
  · refine h.of_not_ends hself hends hcompleted ?_ ?_
    · intro id hmem
      rw [hblocks, Finmap.mem_insert] at hmem
      rcases hmem with rfl | hmem
      · exact Or.inr hopen
      · exact Or.inl hmem
    · intro id hid hno
      rw [hblocks, Finmap.mem_insert] at hno
      exact absurd (Or.inr hid) hno
  · refine h.of_ends hself hcloses hends hblocks hcompleted fun x hx => ?_
    exact retained_of_window (huses c huse)
      fun ⟨hle, hlt⟩ => hcross ⟨c, x, hcloses, hx, hle, hlt⟩

/-- A packet that completes its block delivers it. -/
lemma ends_of_closes {c : UInt32} (h : self.Closes c op) : self.Ends op c := by
  cases op with
  | expire blockId => exact Or.inr (congrArg FecOp.expire h)
  | push datagram =>
      obtain ⟨header, packet, hopens, rfl, hopen, hcompletes⟩ := h
      obtain ⟨decoded, -, hpush⟩ := pushPacket_completes
        ((completes_observe header.packetSequence).mpr hcompletes)
      refine Or.inl ⟨⟨header, packet, hopens, rfl⟩, decoded, ?_⟩
      rw [step, pushDatagram_of_opens self hopens, if_neg hopen, hpush]

/-- A push closes the block whose object it returns. -/
lemma closes_push_iff {id : UInt32} {datagram : Bytes} :
    self.Closes id (.push datagram) ↔ (FecOp.push datagram).Uses X id ∧
      ∃ decoded, (self.pushDatagram datagram).1 = .ok (some decoded) := by
  constructor
  · intro h
    rcases ends_of_closes h with hdelivers | hexpire
    · exact hdelivers
    · cases hexpire
  · exact closes_of_delivers

/-- An operation that crosses the wrap does forget another block of the window. -/
lemma forgets_of_crossesWrap (htracked : ∀ id, self.TracksId id → ahead base id < 64)
    (hcross : self.CrossesWrap base op) :
    ∃ x, self.TracksId x ∧ ¬ self.Ends op x ∧ ¬ (self.step op).2.TracksId x := by
  obtain ⟨c, x, hcloses, hx, hle, hlt⟩ := hcross
  have hend := ends_of_closes hcloses
  rcases step_cases self op with ⟨-, hends⟩ | ⟨-, -, -, hends⟩ | ⟨-, -, -, -, -, hends⟩ |
    ⟨c', ⟨hblocks, hcompleted⟩, -, -, hends⟩
  · exact absurd hend (hends c)
  · exact absurd hend (hends c)
  · exact absurd hend (hends c)
  · obtain rfl := (hends c).mp hend
    have hnot : ¬ Retained c x := not_retained_of_wrap (htracked x hx) hle hlt
    have hne : x ≠ c := by
      rintro rfl
      exact hnot (retained_self x)
    refine ⟨x, hx, fun hendx => hne ((hends x).mp hendx), ?_⟩
    rw [TracksId, hblocks, hcompleted, mem_expireBlock_completed, ← Finmap.lookup_isSome,
      lookup_expireBlock, if_pos (Or.inr hnot)]
    simp [hnot]

/-- **Safety inside the window.**  In every run whose block ids lie within 64 consecutive ids and
whose operations do not cross the wrap, every operation is safe. -/
theorem safe_of_uncrossed (X : Crates) (base : UInt32) (ops : List FecOp)
    (hwindow : ∀ op ∈ ops, ∀ id, op.Uses X id → ahead base id < 64)
    (huncrossed : EveryStep step (new : DatagramFecDecoder X) ops fun _ self op =>
      ¬ self.CrossesWrap base op) :
    EveryStep step (new : DatagramFecDecoder X) ops fun past self op => self.Safe past op := by
  intro past op hpre
  have hinv : runState step (new : DatagramFecDecoder X) past = runState step new past ∧
      Windowed past (runState step (new : DatagramFecDecoder X) past) := by
    refine run_invariant
      (fun past self => self = runState step new past ∧ Windowed past self)
      (fun _ self op => (∀ id, op.Uses X id → ahead base id < 64) ∧ ¬ self.CrossesWrap base op)
      ⟨rfl, windowed_new⟩ ?_ ?_
    · rintro past self op ⟨hself, h⟩ ⟨huses, hcross⟩
      exact ⟨by rw [runState_snoc, hself], (h.step hself huses hcross).2⟩
    · intro past' op' hpre'
      have hpre'' := (hpre'.trans (List.prefix_append past [op])).trans hpre
      exact ⟨hwindow op' (hpre''.subset (by simp)), huncrossed past' op' hpre''⟩
  exact (hinv.2.step rfl (hwindow op (hpre.subset (by simp))) (huncrossed past op hpre)).1

/-! ### Three datagrams -/

/-- A block of one byte. -/
def byteBlock (id : UInt32) : SourceBlock := ⟨id, [7], 1, ⟨by decide, by decide, by decide⟩⟩

/-- Its only source datagram. -/
def byteDatagram (id sequence : UInt32) : Bytes :=
  (byteBlock id).datagram repetitionIdeal.toSystematic sequence 0

lemma uses_byteDatagram (id sequence : UInt32) :
    (FecOp.push (byteDatagram id sequence)).Uses repetition id := by
  obtain ⟨header, hopens, hannounces, -⟩ := (carries_datagram repetitionIdeal.toSystematic
    (byteBlock id) sequence (by decide : 0 < esiLimit)).opens
  exact ⟨header, _, hopens, hannounces.blockId⟩

lemma eq_of_uses_byteDatagram {id id' sequence : UInt32}
    (h : (FecOp.push (byteDatagram id sequence)).Uses repetition id') : id' = id := by
  obtain ⟨header, packet, hopens, rfl⟩ := uses_byteDatagram id sequence
  obtain ⟨header', packet', hopens', rfl⟩ := h
  rw [(hopens'.unique hopens).1]

lemma eq_of_closes_byteDatagram {self : DatagramFecDecoder repetition} {id c sequence : UInt32}
    (h : self.Closes c (.push (byteDatagram id sequence))) : c = id := by
  obtain ⟨header, packet, hopens, hid, -⟩ := h
  exact eq_of_uses_byteDatagram ⟨header, packet, hopens, hid⟩

/-- A run inside a window that wraps: block 0 arrives behind the two blocks in front of the wrap, of
which one arrives again. -/
theorem safe_of_uncrossed_wrapping :
    EveryStep step (new : DatagramFecDecoder repetition)
      [.push (byteDatagram 4294967295 0), .expire 4294967291, .push (byteDatagram 0 1),
        .push (byteDatagram 4294967295 0)]
      fun past self op => self.Safe past op := by
  refine safe_of_uncrossed repetition 4294967290 _ ?_ ?_
  · intro op hop id huses
    simp only [List.mem_cons, List.not_mem_nil, or_false] at hop
    rcases hop with rfl | rfl | rfl | rfl
    · rw [eq_of_uses_byteDatagram huses]
      decide
    · obtain rfl : (4294967291 : UInt32) = id := huses
      decide
    · rw [eq_of_uses_byteDatagram huses]
      decide
    · rw [eq_of_uses_byteDatagram huses]
      decide
  · refine everyStep_cons.mpr ⟨?_, everyStep_cons.mpr ⟨?_, everyStep_cons.mpr ⟨?_,
      everyStep_cons.mpr ⟨?_, everyStep_nil⟩⟩⟩⟩
    · rintro ⟨c, x, -, hblock | hclosed, -, -⟩
      · exact absurd hblock Finmap.notMem_empty
      · exact absurd hclosed (Finset.notMem_empty x)
    · -- the only block that is tracked is in front of the wrap
      have hkeys : ((new : DatagramFecDecoder repetition).step
          (.push (byteDatagram 4294967295 0))).2.blocks.keys = ∅ := by
        decide +kernel
      have hcompleted : ((new : DatagramFecDecoder repetition).step
          (.push (byteDatagram 4294967295 0))).2.completed = {4294967295} := by
        decide +kernel
      rintro ⟨c, x, -, htracks, -, hlt⟩
      rw [TracksId, ← Finmap.mem_keys, hkeys, hcompleted, Finset.mem_singleton,
        or_iff_right (Finset.notMem_empty x)] at htracks
      rw [htracks] at hlt
      exact absurd hlt (by decide)
    · rintro ⟨c, x, hcloses, -, hle, -⟩
      obtain rfl := eq_of_closes_byteDatagram hcloses
      exact absurd hle (by decide)
    · -- the block in front of the wrap is not closed again
      rintro ⟨c, x, hcloses, -, -, -⟩
      obtain rfl := eq_of_closes_byteDatagram hcloses
      obtain ⟨header, packet, -, -, hopen, -⟩ := hcloses
      exact hopen (by decide +kernel)

/-- **Delivered twice.**  Blocks `2 ^ 32 - 1` and `0` are neighbours.  Block 0 arrives first, then
the late block in front of it, whose completion forgets that block 0 was closed. -/
theorem redelivered_across_wrap :
    ¬ ∀ (X : Crates) (base : UInt32) (ops : List FecOp),
      (∀ op ∈ ops, ∀ id, op.Uses X id → ahead base id < 64) →
      EveryStep step (new : DatagramFecDecoder X) ops fun past self op => self.Safe past op := by
  intro hall
  have hsafe := hall repetition 4294967295 [.push (byteDatagram 0 1),
    .push (byteDatagram 4294967295 0), .push (byteDatagram 0 1)] ?_
    [.push (byteDatagram 0 1), .push (byteDatagram 4294967295 0)] (.push (byteDatagram 0 1))
    (List.prefix_refl _)
  · refine hsafe.closed_not_delivered 0 ?_ ⟨uses_byteDatagram 0 1, [7], by decide +kernel⟩
    exact ⟨[], .push (byteDatagram 0 1), by simp,
      Or.inl ⟨uses_byteDatagram 0 1, [7], by decide +kernel⟩⟩
  · intro op hop id huses
    have hcases : op = .push (byteDatagram 0 1) ∨ op = .push (byteDatagram 4294967295 0) ∨
        op = .push (byteDatagram 0 1) := by simpa using hop
    rcases hcases with rfl | rfl | rfl
    · rw [eq_of_uses_byteDatagram huses]
      decide
    · rw [eq_of_uses_byteDatagram huses]
      decide
    · rw [eq_of_uses_byteDatagram huses]
      decide

end DatagramFecDecoder

end RaptorFec
