import RaptorFec.Datagram.Independent

/-!
# How many closed ids are remembered

Closing a block drops the ids that lie more than `COMPLETED_WINDOW` before it.  While blocks are
closed in ascending order that bounds the set of closed ids; nothing is dropped, however, by an id
that lies before the ones that are remembered, or below `COMPLETED_WINDOW`.

* `closedIds` — the ids that a run closes, in order;
* `Lasts`, `mem_completed_iff` — of these the decoder remembers the ones that every later one
  retains;
* `completed_bounded_iff` — the set of closed ids is bounded along a run exactly when the order in
  which the ids are closed never `Crowds` the window;
* `not_crowds_of_ascending` — ids that are closed in ascending order do not;
* `completed_grows_descending` — ids that are closed in descending order.
-/

namespace RaptorFec

variable {X : Crates}

/-! ## The order of the closed ids -/

/-- The id was closed, and every id closed after that retains it. -/
def Lasts (closed : List UInt32) (id : UInt32) : Prop :=
  ∃ before later, closed = before ++ id :: later ∧ ∀ current ∈ later, Retained current id

/-- More ids last than the window has room for. -/
def Crowds (closed : List UInt32) : Prop :=
  ∃ ids : Finset UInt32, completedWindow.toNat + 1 < ids.card ∧ ∀ id ∈ ids, Lasts closed id

section Order

variable {closed : List UInt32} {id current : UInt32}

lemma not_lasts_nil : ¬ Lasts [] id := by
  rintro ⟨before, later, hsplit, -⟩
  cases before <;> cases hsplit

/-- One more id is closed. -/
lemma lasts_snoc :
    Lasts (closed ++ [current]) id ↔ (id = current ∨ Lasts closed id) ∧ Retained current id := by
  constructor
  · rintro ⟨before, later, hsplit, hretains⟩
    cases later using List.reverseRecOn with
    | nil =>
        obtain ⟨-, hlast⟩ := List.append_inj' hsplit rfl
        obtain rfl := List.singleton_injective hlast
        exact ⟨Or.inl rfl, retained_self _⟩
    | append_singleton later last =>
        rw [← List.cons_append, ← List.append_assoc] at hsplit
        obtain ⟨rfl, hlast⟩ := List.append_inj' hsplit rfl
        obtain rfl := List.singleton_injective hlast
        exact ⟨Or.inr ⟨before, later, rfl, fun c hc => hretains c (List.mem_append_left _ hc)⟩,
          hretains current (by simp)⟩
  · rintro ⟨rfl | ⟨before, later, rfl, hretains⟩, hcurrent⟩
    · exact ⟨closed, [], rfl, by simp⟩
    · refine ⟨before, later ++ [current], by simp, fun c hc => ?_⟩
      rcases List.mem_append.mp hc with hc | hc
      · exact hretains c hc
      · rwa [List.mem_singleton.mp hc]

/-- **Ids in ascending order do not crowd the window**: those that last lie at most
`COMPLETED_WINDOW` before the last one. -/
theorem not_crowds_of_ascending (h : closed.Pairwise (· ≤ ·)) : ¬ Crowds closed := by
  rintro ⟨ids, hmany, hlasts⟩
  cases closed using List.reverseRecOn with
  | nil =>
      have hnone : ids = ∅ := Finset.eq_empty_of_forall_notMem fun id hid =>
        not_lasts_nil (hlasts id hid)
      rw [hnone, Finset.card_empty] at hmany
      omega
  | append_singleton closed last =>
      have hwindow : completedWindow.toNat = 64 := rfl
      have hrange : ids.image UInt32.toNat ⊆ Finset.Icc (last.toNat - 64) last.toNat := by
        intro n hn
        obtain ⟨id, hid, rfl⟩ := Finset.mem_image.mp hn
        obtain ⟨hfrom, hretained⟩ := lasts_snoc.mp (hlasts id hid)
        have hle : id ≤ last := by
          rcases hfrom with rfl | ⟨before, later, rfl, -⟩
          · exact UInt32.le_refl _
          · exact (List.pairwise_append.mp h).2.2 id (by simp) last (by simp)
        rw [Finset.mem_Icc]
        exact ⟨Nat.sub_le_iff_le_add.mpr (retained_iff.mp hretained), UInt32.le_iff_toNat_le.mp hle⟩
      have hcard := Finset.card_le_card hrange
      rw [Finset.card_image_of_injective _ fun _ _ => UInt32.toNat_inj.mp, Nat.card_Icc] at hcard
      omega

end Order

namespace DatagramFecDecoder

/-- The id that an operation closes. -/
def closedId (self : DatagramFecDecoder X) : FecOp → Option UInt32
  | .push datagram =>
      match (self.pushDatagram datagram).1 with
      | .ok (some _) => (FecOp.push datagram).about X
      | _ => none
  | .expire blockId => some blockId

/-- The ids that a run closes, in order. -/
def closedFrom (self : DatagramFecDecoder X) : List FecOp → List UInt32
  | [] => []
  | op :: ops => (self.closedId op).toList ++ closedFrom (self.step op).2 ops

/-- The ids that a run of a fresh decoder closes, in order. -/
def closedIds (X : Crates) (ops : List FecOp) : List UInt32 :=
  (new : DatagramFecDecoder X).closedFrom ops

section Remembered

variable {self : DatagramFecDecoder X} {op : FecOp}

lemma closedIds_snoc (X : Crates) (ops : List FecOp) (op : FecOp) :
    closedIds X (ops ++ [op]) = closedIds X ops
      ++ ((runState step (new : DatagramFecDecoder X) ops).closedId op).toList := by
  rw [closedIds, closedIds]
  generalize (new : DatagramFecDecoder X) = decoder
  induction ops generalizing decoder with
  | nil => exact List.append_nil _
  | cons first ops ih =>
      rw [List.cons_append, closedFrom, ih, closedFrom, runState_cons, List.append_assoc]

/-- An operation closes the block that ends with it. -/
lemma closedId_eq_some {id : UInt32} : self.closedId op = some id ↔ self.Ends op id := by
  cases op with
  | expire blockId =>
      constructor
      · intro h
        exact Or.inr (congrArg FecOp.expire (Option.some.inj h))
      · rintro (⟨huses, -⟩ | hexpire)
        · exact congrArg some huses
        · exact congrArg some (FecOp.expire.inj hexpire)
  | push datagram =>
      constructor
      · intro h
        rw [closedId] at h
        cases hresult : (self.pushDatagram datagram).1 with
        | error error =>
            rw [hresult] at h
            cases h
        | ok returned =>
            rw [hresult] at h
            cases returned with
            | none => cases h
            | some decoded =>
                rcases rejected_or_opens X datagram with ⟨header, packet, hopens⟩ | ⟨_, hreject⟩
                · obtain rfl := Option.some.inj ((about_of_opens hopens).symm.trans h)
                  exact Or.inl ⟨⟨header, packet, hopens, rfl⟩, decoded, hresult⟩
                · rw [hreject self] at hresult
                  cases hresult
      · rintro (⟨huses, decoded, hdecoded⟩ | hexpire)
        · rw [step] at hdecoded
          rw [closedId, hdecoded]
          exact about_of_uses huses
        · cases hexpire

/-- An operation closes one id at most, and otherwise leaves the closed ids alone. -/
lemma completed_step (self : DatagramFecDecoder X) (op : FecOp) :
    ((self.step op).2.completed = self.completed ∧ self.closedId op = none) ∨
      ∃ c, (self.step op).2.completed = (insert c self.completed).filter (Retained c) ∧
        self.closedId op = some c := by
  have hnone : (∀ c, ¬ self.Ends op c) → self.closedId op = none := fun hends =>
    Option.eq_none_iff_forall_ne_some.mpr fun c hc => hends c (closedId_eq_some.mp hc)
  rcases step_cases self op with ⟨⟨-, hcompleted⟩, hends⟩ | ⟨-, ⟨-, hcompleted⟩, -, hends⟩ |
    ⟨-, -, ⟨-, hcompleted⟩, -, -, hends⟩ | ⟨c, ⟨-, hcompleted⟩, -, -, hends⟩
  · exact Or.inl ⟨hcompleted, hnone hends⟩
  · exact Or.inl ⟨hcompleted, hnone hends⟩
  · exact Or.inl ⟨hcompleted, hnone hends⟩
  · exact Or.inr ⟨c, hcompleted, closedId_eq_some.mpr ((hends c).mpr rfl)⟩

/-- **What a decoder remembers**: the ids that last in the order in which they were closed. -/
theorem mem_completed_iff (X : Crates) (ops : List FecOp) (id : UInt32) :
    id ∈ (runState step (new : DatagramFecDecoder X) ops).completed ↔
      Lasts (closedIds X ops) id := by
  induction ops using List.reverseRecOn with
  | nil => exact iff_of_false (Finset.notMem_empty id) not_lasts_nil
  | append_singleton ops op ih =>
      rw [runState_snoc, closedIds_snoc]
      rcases completed_step (runState step new ops) op with ⟨hsame, hnone⟩ | ⟨c, hcompleted, hsome⟩
      · rw [hsame, hnone, Option.toList_none, List.append_nil]
        exact ih
      · rw [hcompleted, hsome, Option.toList_some, lasts_snoc, Finset.mem_filter,
          Finset.mem_insert, ih]

end Remembered

/-- **When the set of closed ids is bounded.**  Along a run it never holds more than
`COMPLETED_WINDOW + 1` ids exactly when the ids are closed in an order that never crowds the
window. -/
theorem completed_bounded_iff (X : Crates) (ops : List FecOp) :
    (EveryState step (new : DatagramFecDecoder X) ops fun _ decoder =>
      decoder.completed.card ≤ completedWindow.toNat + 1) ↔
    ∀ past, past <+: ops → ¬ Crowds (closedIds X past) :=
  forall₂_congr fun past _ => card_le_iff_of_mem (mem_completed_iff X past) _

/-- **Descending ids are all remembered.**  Of the ids from 65 down to 0, expired one by one, none
is forgotten. -/
theorem completed_grows_descending :
    ¬ ∀ (X : Crates) (ops : List FecOp),
      EveryState step (new : DatagramFecDecoder X) ops fun _ decoder =>
        decoder.completed.card ≤ completedWindow.toNat + 1 := by
  intro hall
  have hrun := hall repetition ((List.range 66).map fun i => .expire (UInt32.ofNat (65 - i))) _
    (List.prefix_refl _)
  exact absurd hrun (by decide +kernel)

end DatagramFecDecoder

end RaptorFec
