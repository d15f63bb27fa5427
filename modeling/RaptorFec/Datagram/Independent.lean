import RaptorFec.Datagram.Window
import RaptorFec.Library.Demux

/-!
# Blocks do not interfere

All blocks of a decoder share its two maps.  What happens to a block is nevertheless decided by the
datagrams of this block alone, and by the calls that expire it: the answers to them are those of a
decoder that is given nothing else, whatever the datagrams of other blocks contain.  The one thing
that can touch a block from outside is the pruning when a block that does not retain it is closed.

* `FecOp.about` — the block an operation is about, read off its bytes;
* `AgreesOn` — two decoders know the same of a block;
* `serves_block` — one operation: an operation about the block does the same to both, another one
  leaves what is known of the block alone; `fresh_step` — a block nothing is known of stays so;
* `blocks_independent` — the run.
-/

namespace RaptorFec

variable {X : Crates}

/-- The block an operation is about. -/
def FecOp.about (X : Crates) : FecOp → Option UInt32
  | .push datagram => (wireSymbol X datagram).map Prod.fst
  | .expire blockId => some blockId

/-- The operation itself, when it is about the block. -/
def FecOp.aboutBlock (X : Crates) (id : UInt32) (op : FecOp) : Option FecOp :=
  if op.about X = some id then some op else none

lemma about_of_opens {datagram : Bytes} {header : DatagramFecHeader} {packet : EncodingPacket}
    (h : Opens X datagram header packet) :
    (FecOp.push datagram).about X = some header.blockId := by
  obtain ⟨payload, hpayload, -, -⟩ := h.payload
  rw [FecOp.about, wireSymbol, h.decode]
  simp only [hpayload, Option.map_some]

lemma about_of_uses {id : UInt32} {op : FecOp} (h : op.Uses X id) : op.about X = some id := by
  cases op with
  | expire blockId => exact congrArg some h
  | push datagram =>
      obtain ⟨header, packet, hopens, rfl⟩ := h
      exact about_of_opens hopens

lemma isSome_aboutBlock {id : UInt32} {op : FecOp} :
    (op.aboutBlock X id).isSome ↔ op.about X = some id := by
  rw [FecOp.aboutBlock]
  split_ifs with h
  · exact iff_of_true rfl h
  · exact iff_of_false Bool.false_ne_true h

namespace DatagramFecDecoder

/-- Both decoders know the same of the block: its state, and whether it was closed. -/
structure AgreesOn (id : UInt32) (left right : DatagramFecDecoder X) : Prop where
  blocks : left.blocks.lookup id = right.blocks.lookup id
  completed : id ∈ left.completed ↔ id ∈ right.completed

variable {id : UInt32} {self other : DatagramFecDecoder X} {header : DatagramFecHeader}
  {packet : EncodingPacket}

lemma AgreesOn.observe (h : AgreesOn id self other) (sequence sequence' : UInt32) :
    AgreesOn id (self.observe sequence) (other.observe sequence') := ⟨h.blocks, h.completed⟩

/-- Closing the block does the same to both. -/
lemma AgreesOn.expire (h : AgreesOn id self other) :
    AgreesOn id (self.expireBlock id) (other.expireBlock id) where
  blocks := by rw [lookup_expireBlock, lookup_expireBlock, h.blocks]
  completed := by rw [mem_expireBlock_completed, mem_expireBlock_completed, h.completed]

/-- Closing another block that retains it leaves the block alone. -/
lemma AgreesOn.expire_other (h : AgreesOn id self other) {current : UInt32} (hne : id ≠ current)
    (hretained : Retained current id) : AgreesOn id (self.expireBlock current) other where
  blocks := by
    rw [lookup_expireBlock, if_neg (by rintro (heq | hdrop); exacts [hne heq, hdrop hretained])]
    exact h.blocks
  completed := by
    rw [mem_expireBlock_completed, ← h.completed]
    exact ⟨fun hin => hin.1.resolve_left hne, fun hin => ⟨Or.inr hin, hretained⟩⟩

/-- A packet of the block does the same to both. -/
lemma AgreesOn.pushPacket (h : AgreesOn id self other) (hid : header.blockId = id) :
    (self.pushPacket header packet).1 = (other.pushPacket header packet).1 ∧
      AgreesOn id (self.pushPacket header packet).2 (other.pushPacket header packet).2 := by
  subst hid
  simp only [DatagramFecDecoder.pushPacket, h.blocks]
  split_ifs with hnumber hlen hconflict
  · exact ⟨rfl, h⟩
  · exact ⟨rfl, h⟩
  · exact ⟨rfl, ⟨by rw [Finmap.lookup_erase, Finmap.lookup_erase], h.completed⟩⟩
  · -- the state of the block is the same, and so is what its decoder makes of the packet
    split
    · exact ⟨rfl, ⟨by rw [Finmap.lookup_insert, Finmap.lookup_insert], h.completed⟩⟩
    · exact ⟨rfl, h.expire⟩

/-- A packet of another block leaves the block alone, unless it closes one that drops it. -/
lemma AgreesOn.pushPacket_other (h : AgreesOn id self other) (hne : id ≠ header.blockId)
    (hretained : Retained header.blockId id) :
    AgreesOn id (self.pushPacket header packet).2 other := by
  rcases pushPacket_cases self header packet with
    ⟨_, hres⟩ | ⟨_, -, -, hres⟩ | ⟨_, hres⟩ | ⟨-, _, hres⟩ <;> rw [hres]
  · exact h
  · exact ⟨(Finmap.lookup_erase_ne hne).trans h.blocks, h.completed⟩
  · exact ⟨(Finmap.lookup_insert_of_ne _ hne).trans h.blocks, h.completed⟩
  · exact h.expire_other hne hretained

/-- An operation about the block does the same to both. -/
lemma AgreesOn.step {op : FecOp} (h : AgreesOn id self other) (hop : op.about X = some id) :
    (self.step op).1 = (other.step op).1 ∧ AgreesOn id (self.step op).2 (other.step op).2 := by
  cases op with
  | expire blockId =>
      obtain rfl := Option.some.inj hop
      exact ⟨rfl, h.expire⟩
  | push datagram =>
      rcases rejected_or_opens X datagram with ⟨header, packet, hopens⟩ | ⟨error, hreject⟩
      · have hid : header.blockId = id := Option.some.inj ((about_of_opens hopens).symm.trans hop)
        have hclosed : header.blockId ∈ self.completed ↔ header.blockId ∈ other.completed :=
          hid ▸ h.completed
        simp only [DatagramFecDecoder.step, pushDatagram_of_opens self hopens,
          pushDatagram_of_opens other hopens]
        by_cases hin : header.blockId ∈ other.completed
        · rw [if_pos hin, if_pos (hclosed.mpr hin)]
          exact ⟨rfl, h.observe _ _⟩
        · rw [if_neg hin, if_neg fun hself => hin (hclosed.mp hself)]
          exact (h.observe _ _).pushPacket hid
      · rw [DatagramFecDecoder.step, DatagramFecDecoder.step, hreject self, hreject other]
        exact ⟨rfl, h⟩

/-- An operation about another block leaves the block alone. -/
lemma AgreesOn.step_other {op : FecOp} (h : AgreesOn id self other) (hop : op.about X ≠ some id)
    (hretained : ∀ current, op.about X = some current → Retained current id) :
    AgreesOn id (self.step op).2 other := by
  cases op with
  | expire blockId =>
      exact h.expire_other (fun heq => hop (congrArg some heq.symm)) (hretained blockId rfl)
  | push datagram =>
      rcases rejected_or_opens X datagram with ⟨header, packet, hopens⟩ | ⟨error, hreject⟩
      · have habout := about_of_opens hopens
        have hne : id ≠ header.blockId := by
          rintro rfl
          exact hop habout
        simp only [DatagramFecDecoder.step, pushDatagram_of_opens self hopens]
        have hobserved : AgreesOn id (self.observe header.packetSequence) other :=
          ⟨h.blocks, h.completed⟩
        split_ifs
        · exact hobserved
        · exact hobserved.pushPacket_other hne (hretained _ habout)
      · rw [DatagramFecDecoder.step, hreject self]
        exact h

/-- **To each block the decoder is a decoder of its own**, as long as every block retains it. -/
lemma serves_block (X : Crates) (id : UInt32) :
    Serves (step (X := X)) (step (X := X)) (FecOp.aboutBlock X id) (· = ·) (AgreesOn id)
      (fun op => ∀ current, op.about X = some current → Retained current id) where
  mine self other op op' h _ hown := by
    rw [FecOp.aboutBlock] at hown
    split_ifs at hown with habout
    obtain rfl := Option.some.inj hown
    exact h.step habout
  others self other op h hok hown := by
    rw [FecOp.aboutBlock] at hown
    split_ifs at hown with habout
    exact h.step_other habout hok

/-- A fresh block stays fresh while the operations are about others. -/
lemma fresh_step {op : FecOp} (h : AgreesOn id self new) (hop : op.about X ≠ some id) :
    AgreesOn id (self.step op).2 new := by
  have hnone : self.blocks.lookup id = none := h.blocks
  have hopen : id ∉ self.completed := fun hin => Finset.notMem_empty id (h.completed.mp hin)
  rcases step_cases self op with ⟨⟨hblocks, hcompleted⟩, -⟩ | ⟨id', ⟨hblocks, hcompleted⟩, -⟩ |
    ⟨id', block, ⟨hblocks, hcompleted⟩, huses, -⟩ | ⟨id', ⟨hblocks, hcompleted⟩, huses, -⟩
  · exact ⟨by rw [hblocks]; exact h.blocks, by rw [hcompleted]; exact h.completed⟩
  · refine ⟨?_, by rw [hcompleted]; exact h.completed⟩
    rw [hblocks, HashMap.lookup_erase_eq, hnone, ite_self]
    rfl
  · refine ⟨?_, by rw [hcompleted]; exact h.completed⟩
    rw [hblocks, HashMap.lookup_insert_eq, if_neg, hnone]
    · rfl
    · rintro rfl
      exact hop (about_of_uses huses)
  · have hne : id ≠ id' := by
      rintro rfl
      exact hop (about_of_uses huses)
    refine ⟨?_, ?_⟩
    · rw [hblocks, lookup_expireBlock, hnone, ite_self]
      rfl
    · rw [hcompleted, mem_expireBlock_completed]
      exact iff_of_false (fun hin => hopen (hin.1.resolve_left hne)) (Finset.notMem_empty id)

/-- **Blocks do not interfere.**  However the datagrams and the expirations of many blocks are
interleaved, and whatever bytes they are: if every block that the run uses between two operations
about block `id` retains it, then the answers to the operations about block `id` are those of a
fresh decoder that is given only these. -/
theorem blocks_independent (X : Crates) (id : UInt32) (ops : List FecOp)
    (huncut : ∀ current,
      [id, current, id].Sublist (ops.filterMap (FecOp.about X)) → Retained current id) :
    ownOutputs (FecOp.aboutBlock X id) ops
        (runOutputs step (new : DatagramFecDecoder X) ops)
      = runOutputs step (new : DatagramFecDecoder X) (ops.filterMap (FecOp.aboutBlock X id)) := by
  refine (serves_block X id).outputs_eq_between ?_ (fun self => AgreesOn id self new)
    (fun _ h => h) ?_ ⟨rfl, Iff.rfl⟩ ?_
  · intro op _ hown current hcurrent
    rw [isSome_aboutBlock, hcurrent] at hown
    obtain rfl := Option.some.inj hown
    exact retained_self current
  · intro self op h hown
    exact fresh_step h fun habout => by
      rw [FecOp.aboutBlock, if_pos habout] at hown
      cases hown
  · intro first op last hfirst hlast hsub current hcurrent
    rw [isSome_aboutBlock] at hfirst hlast
    have hids := hsub.filterMap (FecOp.about X)
    rw [List.filterMap_cons_some hfirst, List.filterMap_cons_some hcurrent,
      List.filterMap_cons_some hlast] at hids
    exact huncut current hids

/-- The datagrams of block 7 between those of block 9, and bytes that are no datagram. -/
theorem blocks_independent_two :
    ownOutputs (FecOp.aboutBlock repetition 7)
        [.push (byteDatagram 9 0), .push (byteDatagram 7 1), .push [1, 2], .expire 9,
          .push (byteDatagram 7 1)]
        (runOutputs step (new : DatagramFecDecoder repetition)
          [.push (byteDatagram 9 0), .push (byteDatagram 7 1), .push [1, 2], .expire 9,
            .push (byteDatagram 7 1)])
      = [.ok (some [7]), .ok none] := by
  rw [blocks_independent repetition 7 _ ?_]
  · decide +kernel
  · intro current hsub
    have hids : [FecOp.push (byteDatagram 9 0), .push (byteDatagram 7 1), .push [1, 2], .expire 9,
        .push (byteDatagram 7 1)].filterMap (FecOp.about repetition) = [9, 7, 9, 7] := by
      decide +kernel
    rw [hids] at hsub
    have hmem : current ∈ [9, 7, 9, 7] := hsub.subset (by simp)
    have hall : ([9, 7, 9, 7].all fun current => Retained current 7) = true := by decide
    exact of_decide_eq_true (List.all_eq_true.mp hall current hmem)

end DatagramFecDecoder

end RaptorFec
