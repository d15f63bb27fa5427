import RaptorFec.Session.Receiver

/-!
# What the receiver does to its state

* `Sheds` — the receiver may have given up epochs in flight, and nothing else that it holds
  changed; every routine that limits the epochs in flight is of this kind;
* `pushShard_eq` — what becomes of one shard;
* `takeForPlayout_spec`, `expireBefore_spec` — the two other calls, in terms of the playout buffer;
* `step` — one call, for runs.
-/

namespace RaptorFec

/-- The counters of complete epochs: how many there were, and where they went. -/
@[ext]
structure EpochAccount where
  completed : UInt64
  played : UInt64
  duplicateOrLate : UInt64
  stale : UInt64

/-- The counters of complete epochs. -/
def MultichannelAudioSessionStats.account (stats : MultichannelAudioSessionStats) : EpochAccount :=
  ⟨stats.epochsCompleted, stats.exactEpochsPlayed, stats.duplicateOrLateEpochs,
    stats.staleEpochsDropped⟩

namespace MultichannelAudioReceiver

variable {X : Crates}

/-- The receiver may have given up epochs in flight, and nothing else it holds changed. -/
structure Sheds (receiver next : MultichannelAudioReceiver X) : Prop where
  decoder : next.decoder = receiver.decoder
  inflight : ∀ id assembly, next.inflight.lookup id = some assembly →
    receiver.inflight.lookup id = some assembly
  playout : next.playout = receiver.playout
  account : next.stats.account = receiver.stats.account

/-! ## Giving up epochs -/

section Sheds

variable {self next last : MultichannelAudioReceiver X} {blockId : UInt32}

lemma Sheds.refl (self : MultichannelAudioReceiver X) : Sheds self self :=
  ⟨rfl, fun _ _ h => h, rfl, rfl⟩

lemma Sheds.trans (h : Sheds self next) (h' : Sheds next last) : Sheds self last where
  decoder := h'.decoder.trans h.decoder
  inflight id assembly hlookup := h.inflight id assembly (h'.inflight id assembly hlookup)
  playout := h'.playout.trans h.playout
  account := h'.account.trans h.account

lemma Sheds.after (h' : Sheds next last) (h : Sheds self next) : Sheds self last := h.trans h'

/-- A block that is not in flight does not get there. -/
lemma Sheds.notMem (h : Sheds self next) (hnot : blockId ∉ self.inflight) :
    blockId ∉ next.inflight := by
  intro hmem
  obtain ⟨assembly, hlookup⟩ := Finmap.mem_iff.mp hmem
  exact hnot (Finmap.mem_iff.mpr ⟨assembly, h.inflight _ _ hlookup⟩)

lemma sheds_trimIgnored (order : List UInt32) (self : MultichannelAudioReceiver X) :
    Sheds self (trimIgnored order self) := by
  induction order generalizing self with
  | nil => exact Sheds.refl self
  | cons expired rest ih =>
      rw [trimIgnored]
      split_ifs
      · exact (ih _).after ⟨rfl, fun _ _ h => h, rfl, rfl⟩
      · exact .refl self

lemma sheds_rememberIgnored (self : MultichannelAudioReceiver X) (blockId : UInt32) :
    Sheds self (self.rememberIgnored blockId) := by
  rw [rememberIgnored]
  split_ifs
  · exact sheds_trimIgnored _ self
  · exact (sheds_trimIgnored _ _).after ⟨rfl, fun _ _ h => h, rfl, rfl⟩

/-- What is left of a map after an entry was erased was there before. -/
lemma lookup_of_erase {map : HashMap UInt32 EpochAssembly} {id : UInt32} {assembly : EpochAssembly}
    (h : (map.erase blockId).lookup id = some assembly) : map.lookup id = some assembly := by
  rw [HashMap.lookup_erase_eq] at h
  split_ifs at h
  exact h

lemma sheds_dropInflight (self : MultichannelAudioReceiver X) (blockId : UInt32) :
    Sheds self (self.dropInflight blockId) :=
  (sheds_rememberIgnored _ blockId).after ⟨rfl, fun _ _ h => lookup_of_erase h, rfl, rfl⟩

lemma sheds_countDropped (self : MultichannelAudioReceiver X) : Sheds self self.countDropped :=
  ⟨rfl, fun _ _ h => h, rfl, rfl⟩

lemma sheds_dropOldest (self : MultichannelAudioReceiver X) (oldest : UInt32)
    (rest : List UInt32) : Sheds self (self.dropOldest oldest rest) := by
  rw [dropOldest]
  split_ifs
  · exact (sheds_rememberIgnored _ oldest).after ⟨rfl, fun _ _ h => lookup_of_erase h, rfl, rfl⟩
  · exact ⟨rfl, fun _ _ h => h, rfl, rfl⟩

lemma sheds_dropWhileFull (order : List UInt32) (self : MultichannelAudioReceiver X) :
    Sheds self (dropWhileFull order self) := by
  induction order generalizing self with
  | nil => exact Sheds.refl self
  | cons oldest rest ih =>
      rw [dropWhileFull]
      split_ifs
      · exact (sheds_dropOldest self oldest rest).trans (ih _)
      · exact Sheds.refl self

lemma sheds_ensureInflightSlot (self : MultichannelAudioReceiver X) (blockId : UInt32) :
    Sheds self (self.ensureInflightSlot blockId) := by
  rw [ensureInflightSlot]
  split_ifs
  · exact Sheds.refl self
  · exact sheds_dropWhileFull _ self

lemma sheds_countShard (self : MultichannelAudioReceiver X) (recovery : MultichannelAudioRecovery) :
    Sheds self (self.countShard recovery) := by
  cases recovery <;> exact ⟨rfl, fun _ _ h => h, rfl, rfl⟩

lemma sheds_countGroup (self : MultichannelAudioReceiver X)
    (group : Option DecodedMultichannelAudioGroup) : Sheds self (self.countGroup group) := by
  cases group <;> exact ⟨rfl, fun _ _ h => h, rfl, rfl⟩

/-- Giving up one epoch after the other. -/
lemma sheds_foldl {drop : MultichannelAudioReceiver X → UInt32 → MultichannelAudioReceiver X}
    (hdrop : ∀ self blockId, Sheds self (drop self blockId)) (blockIds : List UInt32)
    (self : MultichannelAudioReceiver X) : Sheds self (blockIds.foldl drop self) := by
  induction blockIds generalizing self with
  | nil => exact Sheds.refl self
  | cons blockId blockIds ih => exact (hdrop self blockId).trans (ih _)

lemma sheds_abandonInflightThrough (self : MultichannelAudioReceiver X)
    (order : HashMap.Iteration UInt32 EpochAssembly) (ptsSamples : UInt64) :
    Sheds self (self.abandonInflightThrough order ptsSamples) :=
  sheds_foldl (fun self blockId =>
    (sheds_dropInflight self blockId).trans (sheds_countDropped _)) _ self

end Sheds

/-! ## Pushing a shard -/

section Push

variable (self : MultichannelAudioReceiver X) (shard : DecodedMultichannelAudioShard)

/-- The shard is of a block that is ignored, or too late. -/
def Ignores : Prop :=
  shard.blockId ∈ self.ignoredBlocks ∨ self.isLate shard.header.ptsSamples = true

/-- The assembly the shard is pushed into. -/
def assemblyFor : EpochAssembly :=
  (self.inflight.lookup shard.blockId).getD (EpochAssembly.new shard.blockId shard.header)

/-- The receiver with a slot for the block of the shard. -/
def withSlot : MultichannelAudioReceiver X :=
  (self.countShard shard.recovery).ensureInflightSlot shard.blockId

/-- The receiver after the shard was pushed into its assembly. -/
def filed : MultichannelAudioReceiver X :=
  { self.withSlot shard with
    inflight := (self.withSlot shard).inflight.insert shard.blockId
      ((self.assemblyFor shard).push shard).2
    inflightOrder :=
      if shard.blockId ∈ (self.withSlot shard).inflight then (self.withSlot shard).inflightOrder
      else (self.withSlot shard).inflightOrder ++ [shard.blockId] }

variable {self shard}

lemma sheds_withSlot : Sheds self (self.withSlot shard) :=
  (sheds_countShard self shard.recovery).trans (sheds_ensureInflightSlot _ shard.blockId)

@[simp] lemma inflight_countShard (recovery : MultichannelAudioRecovery) :
    (self.countShard recovery).inflight = self.inflight := by
  cases recovery <;> rfl

/-- A block in flight keeps its assembly when a slot for it is claimed. -/
lemma lookup_withSlot :
    (self.withSlot shard).inflight.lookup shard.blockId = self.inflight.lookup shard.blockId := by
  by_cases hmem : shard.blockId ∈ self.inflight
  · rw [withSlot, ensureInflightSlot, if_pos (by rwa [inflight_countShard]), inflight_countShard]
  · rw [Finmap.lookup_eq_none.mpr hmem, Finmap.lookup_eq_none.mpr (sheds_withSlot.notMem hmem)]

/-- A shard that is ignored is counted only. -/
lemma pushShard_of_ignores (h : self.Ignores shard) (outcome : MultichannelAudioReceiveOutcome) :
    self.pushShard outcome shard = (some (.ok outcome), self.countShard shard.recovery) := by
  have hcounted : shard.blockId ∈ (self.countShard shard.recovery).ignoredBlocks ∨
      (self.countShard shard.recovery).isLate shard.header.ptsSamples = true := by
    cases shard.recovery <;> exact h
  rw [pushShard]
  simp only [if_pos hcounted]

/-- What becomes of a shard that is not ignored. -/
theorem pushShard_eq (h : ¬ self.Ignores shard) (outcome : MultichannelAudioReceiveOutcome) :
    self.pushShard outcome shard =
      match ((self.assemblyFor shard).push shard).1 with
      | none => (none, self.filed shard)
      | some (.error error) => (some (.error error), self.filed shard)
      | some (.ok group) =>
          let outcome := { outcome with
            completedGroups := outcome.completedGroups ++ group.toList }
          if ((self.assemblyFor shard).push shard).2.isComplete then
            ((self.filed shard).countGroup group).completeEpoch shard.blockId
              ((self.assemblyFor shard).push shard).2 outcome
          else (some (.ok outcome), (self.filed shard).countGroup group) := by
  have hopen : (self.withSlot shard).openAssembly shard.blockId shard.header
      = (self.assemblyFor shard, { self.withSlot shard with
          inflightOrder :=
            if shard.blockId ∈ (self.withSlot shard).inflight then
              (self.withSlot shard).inflightOrder
            else (self.withSlot shard).inflightOrder ++ [shard.blockId] }) := by
    have hslot : (self.withSlot shard).inflight.lookup shard.blockId
        = self.inflight.lookup shard.blockId := lookup_withSlot
    rw [openAssembly, assemblyFor, hslot]
    cases hlookup : self.inflight.lookup shard.blockId with
    | none => rw [if_neg (Finmap.lookup_eq_none.mp (hslot.trans hlookup))]; rfl
    | some assembly =>
        rw [if_pos (Finmap.mem_iff.mpr ⟨assembly, hslot.trans hlookup⟩)]
        rfl
  have hcounted : ¬ (shard.blockId ∈ (self.countShard shard.recovery).ignoredBlocks ∨
      (self.countShard shard.recovery).isLate shard.header.ptsSamples = true) := by
    cases shard.recovery <;> exact h
  rw [pushShard]
  simp only [if_neg hcounted]
  rw [← withSlot, hopen]
  rfl

end Push

/-! ## Playing and expiring -/

section Playout

variable (self : MultichannelAudioReceiver X) (order : HashMap.Iteration UInt32 EpochAssembly)
  (ptsSamples : UInt64)

/-- The receiver has another playout buffer and other counters of complete epochs, and may have
given up epochs in flight. -/
structure Turns (receiver next : MultichannelAudioReceiver X)
    (playout : ExactMultichannelAudioPlayoutBuffer) (account : EpochAccount) : Prop where
  decoder : next.decoder = receiver.decoder
  inflight : ∀ id assembly, next.inflight.lookup id = some assembly →
    receiver.inflight.lookup id = some assembly
  playout : next.playout = playout
  account : next.stats.account = account

/-- What `take_for_playout` does: it reads the playout buffer, and gives up epochs in flight. -/
theorem takeForPlayout_spec :
    (self.takeForPlayout order ptsSamples).1 = (self.playout.takeForPlayout ptsSamples).1 ∧
      Turns self (self.takeForPlayout order ptsSamples).2
        (self.playout.takeForPlayout ptsSamples).2 { self.stats.account with
          played :=
            match (self.playout.takeForPlayout ptsSamples).1 with
            | .exact _ => satAdd self.stats.exactEpochsPlayed 1
            | .missing _ => self.stats.exactEpochsPlayed } := by
  have hsheds := sheds_abandonInflightThrough self order ptsSamples
  obtain ⟨given, hgiven⟩ : ∃ given, self.abandonInflightThrough order ptsSamples = given :=
    ⟨_, rfl⟩
  rw [hgiven] at hsheds
  have hplayout := hsheds.playout
  obtain ⟨hcompleted, hplayed, hlate, hstale⟩ := EpochAccount.mk.inj hsheds.account
  rw [takeForPlayout, hgiven]
  simp only [hplayout]
  cases hread : self.playout.takeForPlayout ptsSamples with
  | mk read playout =>
      cases read with
      | exact epoch =>
          exact ⟨rfl, hsheds.decoder, hsheds.inflight, rfl, EpochAccount.ext hcompleted
            (congrArg (fun played => satAdd played 1) hplayed) hlate hstale⟩
      | missing pts => exact ⟨rfl, hsheds.decoder, hsheds.inflight, rfl, hsheds.account⟩

/-- The epochs in flight that `expire_before` gives up. -/
def staleBlocks : List UInt32 :=
  self.inflightBlocks order fun epoch => epoch.ptsSamples < ptsSamples

/-- What `expire_before` does: it expires the playout buffer, and gives up epochs in flight. -/
theorem expireBefore_spec :
    (self.expireBefore order ptsSamples).1
        = (self.playout.expireBefore ptsSamples).1 + (self.staleBlocks order ptsSamples).length ∧
      Turns self (self.expireBefore order ptsSamples).2
        (self.playout.expireBefore ptsSamples).2 { self.stats.account with
          stale := satAdd self.stats.staleEpochsDropped
            (UInt64.ofNat (self.expireBefore order ptsSamples).1) } := by
  have hsheds := sheds_foldl (fun self blockId => sheds_dropInflight self blockId)
    (self.staleBlocks order ptsSamples)
    { self with playout := (self.playout.expireBefore ptsSamples).2 }
  obtain ⟨hcompleted, hplayed, hlate, hstale⟩ := EpochAccount.mk.inj hsheds.account
  refine ⟨rfl, hsheds.decoder, hsheds.inflight, hsheds.playout, ?_⟩
  exact EpochAccount.ext hcompleted hplayed hlate (congrArg (fun stale => satAdd stale _) hstale)

end Playout

/-! ## Runs -/

end MultichannelAudioReceiver

/-- The calls on a receiver. -/
inductive ReceiverOp where
  | push (datagram : Bytes)
  | take (order : HashMap.Iteration UInt32 EpochAssembly) (ptsSamples : UInt64)
  | expire (order : HashMap.Iteration UInt32 EpochAssembly) (ptsSamples : UInt64)

/-- What a call returns. -/
inductive ReceiverOutput where
  | received (result : Option (Except MultichannelAudioSessionError MultichannelAudioReceiveOutcome))
  | read (read : MultichannelAudioPlayoutRead)
  | expired (count : ℕ)

namespace MultichannelAudioReceiver

variable {X : Crates}

/-- One call. -/
def step (self : MultichannelAudioReceiver X) :
    ReceiverOp → ReceiverOutput × MultichannelAudioReceiver X
  | .push datagram => Prod.map .received id (self.pushDatagram datagram)
  | .take order ptsSamples => Prod.map .read id (self.takeForPlayout order ptsSamples)
  | .expire order ptsSamples => Prod.map .expired id (self.expireBefore order ptsSamples)

end MultichannelAudioReceiver

end RaptorFec
