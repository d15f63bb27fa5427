import RaptorFec.Session.Cursor
import RaptorFec.Session.Exact

/-!
# Where complete epochs go

A complete epoch is played, refused, evicted, expired, or still in the playout buffer.

* `len_insert`, `len_takeForPlayout`, `len_expireBefore` — the size of the buffer after a call;
* `Covers` — the counters and the buffer account for all complete epochs: kept by every push
  (`Accounted.pushDatagram`), and by every expiry;
* `SkipsNothing` — a read that leaves no epoch behind its time in the buffer; such epochs are removed
  and not counted;
* `accounted` — the runs whose reads skip nothing lose no epoch.
-/

namespace RaptorFec

namespace ExactMultichannelAudioPlayoutBuffer

variable {self : ExactMultichannelAudioPlayoutBuffer}

/-! ## The size of the buffer -/

/-- An insertion adds one epoch, refuses it, or evicts one in exchange. -/
lemma len_insert (h : self.Ordered) (epoch : DecodedMultichannelAudioEpoch) :
    ((self.insert epoch).1 = .inserted ∧
      (self.insert epoch).2.epochs.len = self.epochs.len + 1) ∨
    ((self.insert epoch).1 = .duplicateOrLate ∧
      (self.insert epoch).2.epochs.len = self.epochs.len) ∨
    ((self.insert epoch).1 = .evictedStale 1 ∧
      (self.insert epoch).2.epochs.len = self.epochs.len) := by
  rw [ExactMultichannelAudioPlayoutBuffer.insert]
  by_cases hrefused : self.isLate epoch.ptsSamples ∨ (self.epochs.lookup epoch.ptsSamples).isSome
  · rw [if_pos hrefused]
    exact Or.inr (Or.inl ⟨rfl, rfl⟩)
  rw [if_neg hrefused]
  have hnone : self.epochs.lookup epoch.ptsSamples = none := by
    simpa using (not_or.mp hrefused).2
  have hlen := BTreeMap.len_insert epoch hnone
  simp only
  split_ifs with hroom
  · exact Or.inl ⟨rfl, hlen⟩
  · have hone : (self.epochs.insert epoch.ptsSamples epoch).len - self.maxBufferedEpochs = 1 := by
      have hle := h.len_le
      omega
    refine Or.inr (Or.inr ⟨by rw [hone], ?_⟩)
    rw [BTreeMap.len_removeAll_take, hlen, ← hlen, hone, hlen]
    rfl

lemma len_expireBefore (self : ExactMultichannelAudioPlayoutBuffer) (ptsSamples : UInt64) :
    (self.expireBefore ptsSamples).2.epochs.len + (self.expireBefore ptsSamples).1
      = self.epochs.len :=
  BTreeMap.len_expire self.epochs ptsSamples

/-- A read that skips nothing removes the epoch it returns, and nothing else. -/
lemma len_takeForPlayout {ptsSamples : UInt64}
    (h : ∀ entry ∈ self.epochs.entries, ¬ entry.1 < ptsSamples) :
    (∃ epoch, (self.takeForPlayout ptsSamples).1 = .exact epoch ∧
      (self.takeForPlayout ptsSamples).2.epochs.len + 1 = self.epochs.len) ∨
    ((self.takeForPlayout ptsSamples).1 = .missing ptsSamples ∧
      (self.takeForPlayout ptsSamples).2.epochs.len = self.epochs.len) := by
  have hexpired : (self.epochs.removeAll (self.epochs.keys.takeWhile fun pts => pts < ptsSamples)).len
      = self.epochs.len := by
    rw [BTreeMap.expire_eq_self h]
  rw [takeForPlayout]
  split
  · rename_i epoch hlookup
    refine Or.inl ⟨epoch, rfl, ?_⟩
    exact (BTreeMap.len_remove (Option.isSome_iff_exists.mpr ⟨epoch, hlookup⟩)).trans hexpired
  · exact Or.inr ⟨rfl, hexpired⟩

end ExactMultichannelAudioPlayoutBuffer

/-! ## The account -/

/-- No complete epoch is missing from the counters and the buffer. -/
def EpochAccount.Covers (account : EpochAccount) (buffered : ℕ) : Prop :=
  account.completed.toNat
    ≤ account.played.toNat + account.duplicateOrLate.toNat + account.stale.toNat + buffered

section Covers

variable {account : EpochAccount} {buffered dropped : ℕ}

lemma toNat_satAdd_one_le (a : UInt64) : (satAdd a 1).toNat ≤ a.toNat + 1 := by
  rw [toNat_satAdd]
  exact Nat.min_le_left _ _

/-- A counter that goes up by one goes up, or is at its limit. -/
lemma satAdd_one_cases (a : UInt64) :
    (satAdd a 1).toNat = a.toNat + 1 ∨ ∀ b : UInt64, b.toNat ≤ (satAdd a 1).toNat := by
  rw [toNat_satAdd]
  have hone : (1 : UInt64).toNat = 1 := rfl
  rcases Nat.le_total (a.toNat + 1) (2 ^ 64 - 1) with hle | hge
  · exact Or.inl (by rw [hone, Nat.min_eq_left hle])
  · refine Or.inr fun b => ?_
    rw [hone, Nat.min_eq_right hge]
    exact Nat.le_pred_of_lt b.toNat_lt

lemma EpochAccount.Covers.inserted (h : account.Covers buffered) :
    ({ account with completed := satAdd account.completed 1 } : EpochAccount).Covers
      (buffered + 1) := by
  have hle := toNat_satAdd_one_le account.completed
  rw [EpochAccount.Covers] at h ⊢
  simp only
  omega

lemma EpochAccount.Covers.refused (h : account.Covers buffered) :
    ({ account with
      completed := satAdd account.completed 1
      duplicateOrLate := satAdd account.duplicateOrLate 1 } : EpochAccount).Covers buffered := by
  have hle := toNat_satAdd_one_le account.completed
  rw [EpochAccount.Covers] at h ⊢
  simp only
  rcases satAdd_one_cases account.duplicateOrLate with hup | hlimit
  · omega
  · have := hlimit (satAdd account.completed 1)
    omega

lemma EpochAccount.Covers.evicted (h : account.Covers buffered) :
    ({ account with
      completed := satAdd account.completed 1
      stale := satAdd account.stale 1 } : EpochAccount).Covers buffered := by
  have hle := toNat_satAdd_one_le account.completed
  rw [EpochAccount.Covers] at h ⊢
  simp only
  rcases satAdd_one_cases account.stale with hup | hlimit
  · omega
  · have := hlimit (satAdd account.completed 1)
    omega

lemma EpochAccount.Covers.played (h : account.Covers (buffered + 1)) :
    ({ account with played := satAdd account.played 1 } : EpochAccount).Covers buffered := by
  rw [EpochAccount.Covers] at h ⊢
  simp only
  rcases satAdd_one_cases account.played with hup | hlimit
  · omega
  · have := hlimit account.completed
    omega

/-- Epochs that are counted as stale as long as the counter has room for them. -/
lemma EpochAccount.Covers.expired {expired : ℕ} (h : account.Covers (buffered + expired))
    (hle : expired ≤ dropped) (hroom : account.stale.toNat + dropped < 2 ^ 64) :
    ({ account with stale := satAdd account.stale (UInt64.ofNat dropped) } : EpochAccount).Covers
      buffered := by
  have hdropped : (UInt64.ofNat dropped).toNat = dropped :=
    UInt64.toNat_ofNat_of_lt' (Nat.lt_of_le_of_lt (Nat.le_add_left _ _) hroom)
  have hstale : (satAdd account.stale (UInt64.ofNat dropped)).toNat
      = account.stale.toNat + dropped := by
    rw [toNat_satAdd, hdropped]
    exact Nat.min_eq_left (Nat.le_pred_of_lt hroom)
  rw [EpochAccount.Covers] at h ⊢
  simp only [hstale]
  omega

end Covers

namespace MultichannelAudioReceiver

variable {X : Crates} {self next : MultichannelAudioReceiver X}

/-- The buffer lies behind its cursor, and no complete epoch is missing. -/
structure Accounted (receiver : MultichannelAudioReceiver X) : Prop where
  ordered : receiver.playout.Ordered
  covers : receiver.stats.account.Covers receiver.playout.epochs.len

lemma accounted_new (config : MultichannelAudioSessionConfig) :
    (new config : MultichannelAudioReceiver X).Accounted where
  ordered := ExactMultichannelAudioPlayoutBuffer.ordered_fresh _
  covers := Nat.zero_le _

/-- The account is not changed by what leaves the buffer and the counters. -/
lemma Accounted.of_eq (h : self.Accounted) (hplayout : next.playout = self.playout)
    (haccount : next.stats.account = self.stats.account) : next.Accounted where
  ordered := hplayout ▸ h.ordered
  covers := by
    rw [haccount, hplayout]
    exact h.covers

lemma Accounted.shed (h : self.Accounted) (hsheds : Sheds self next) : next.Accounted :=
  h.of_eq hsheds.playout hsheds.account

/-! ### Pushes -/

/-- A complete epoch is counted, and so is what the buffer does with it. -/
lemma Accounted.completeEpoch (h : self.Accounted) (blockId : UInt32) (assembly : EpochAssembly)
    (outcome : MultichannelAudioReceiveOutcome) :
    (self.completeEpoch blockId assembly outcome).2.Accounted := by
  rw [MultichannelAudioReceiver.completeEpoch]
  cases hfinish : assembly.finish with
  | error error => exact h.of_eq rfl rfl
  | ok epoch =>
      have hordered := h.ordered.insert epoch
      have hcovers := h.covers
      rcases ExactMultichannelAudioPlayoutBuffer.len_insert h.ordered epoch with
        ⟨hinsert, hlen⟩ | ⟨hinsert, hlen⟩ | ⟨hinsert, hlen⟩
      · refine ⟨hordered, ?_⟩
        simp only [hinsert, countInsert, hlen]
        exact hcovers.inserted
      · refine ⟨hordered, ?_⟩
        simp only [hinsert, countInsert, hlen]
        exact hcovers.refused
      · refine ⟨hordered, ?_⟩
        simp only [hinsert, countInsert, hlen]
        exact hcovers.evicted

lemma Accounted.pushShard (h : self.Accounted) (outcome : MultichannelAudioReceiveOutcome)
    (shard : DecodedMultichannelAudioShard) : (self.pushShard outcome shard).2.Accounted := by
  by_cases hignores : self.Ignores shard
  · rw [pushShard_of_ignores hignores]
    exact h.shed (sheds_countShard self shard.recovery)
  · have hslot := h.shed (sheds_withSlot : Sheds self (self.withSlot shard))
    have hfiled : (self.filed shard).Accounted := hslot.of_eq rfl rfl
    rw [pushShard_eq hignores]
    cases hpush : ((self.assemblyFor shard).push shard).1 with
    | none => exact hfiled
    | some result =>
        cases result with
        | error error => exact hfiled
        | ok group =>
            have hcounted := hfiled.shed (sheds_countGroup (self.filed shard) group)
            simp only
            split_ifs
            · exact hcounted.completeEpoch _ _ _
            · exact hcounted

lemma Accounted.pushShards (h : self.Accounted) (shards : List DecodedMultichannelAudioShard)
    (outcome : MultichannelAudioReceiveOutcome) :
    (pushShards shards outcome self).2.Accounted := by
  induction shards generalizing self outcome with
  | nil => exact h
  | cons shard shards ih =>
      have hshard := h.pushShard outcome shard
      rw [MultichannelAudioReceiver.pushShards]
      split
      · rename_i outcome' self' hpush
        rw [hpush] at hshard
        exact ih hshard outcome'
      · rename_i result self' _ hpush
        rw [hpush] at hshard
        exact hshard

/-- **A push loses no epoch**, whatever the datagram is. -/
theorem Accounted.pushDatagram (h : self.Accounted) (datagram : Bytes) :
    (self.pushDatagram datagram).2.Accounted := by
  rw [MultichannelAudioReceiver.pushDatagram]
  cases hpush : self.decoder.pushDatagram datagram with
  | mk result decoder =>
      cases result with
      | error error => exact h.of_eq rfl rfl
      | ok shards =>
          have hreceived : ({ self with
              stats := { self.stats with
                datagramsReceived := satAdd self.stats.datagramsReceived 1 }
              decoder := decoder } : MultichannelAudioReceiver X).Accounted := h.of_eq rfl rfl
          exact hreceived.pushShards shards _

/-! ### Reads and expiries -/

/-- A read that skips nothing loses no epoch. -/
lemma Accounted.takeForPlayout (h : self.Accounted)
    (order : HashMap.Iteration UInt32 EpochAssembly) {ptsSamples : UInt64}
    (hskips : ∀ entry ∈ self.playout.epochs.entries, ¬ entry.1 < ptsSamples) :
    (self.takeForPlayout order ptsSamples).2.Accounted := by
  have hturns := (takeForPlayout_spec self order ptsSamples).2
  have hcovers := h.covers
  refine ⟨hturns.playout ▸ h.ordered.takeForPlayout ptsSamples, ?_⟩
  rw [hturns.playout, hturns.account]
  rcases ExactMultichannelAudioPlayoutBuffer.len_takeForPlayout hskips with
    ⟨epoch, hread, hlen⟩ | ⟨hread, hlen⟩
  · rw [hread]
    rw [← hlen] at hcovers
    exact hcovers.played
  · rw [hread, hlen]
    exact hcovers

/-- An expiry loses no epoch as long as its count fits the counter. -/
lemma Accounted.expireBefore (h : self.Accounted)
    (order : HashMap.Iteration UInt32 EpochAssembly) {ptsSamples : UInt64}
    (hroom : self.stats.staleEpochsDropped.toNat + (self.expireBefore order ptsSamples).1 < 2 ^ 64) :
    (self.expireBefore order ptsSamples).2.Accounted := by
  obtain ⟨hcount, hturns⟩ := expireBefore_spec self order ptsSamples
  have hcovers := h.covers
  rw [← ExactMultichannelAudioPlayoutBuffer.len_expireBefore self.playout ptsSamples] at hcovers
  refine ⟨hturns.playout ▸ h.ordered.expireBefore ptsSamples, ?_⟩
  rw [hturns.playout, hturns.account]
  exact hcovers.expired (hcount ▸ Nat.le_add_right _ _) hroom

end MultichannelAudioReceiver

/-- The call is no read that leaves epochs behind its time in the buffer. -/
def ReceiverOp.SkipsNothing {X : Crates} (self : MultichannelAudioReceiver X) : ReceiverOp → Prop
  | .take _ ptsSamples => ∀ entry ∈ self.playout.epochs.entries, ¬ entry.2.ptsSamples < ptsSamples
  | _ => True

/-- The counter of stale epochs stays below saturation. -/
def ReceiverOp.HasRoom {X : Crates} (self : MultichannelAudioReceiver X) : ReceiverOp → Prop
  | .expire order ptsSamples =>
      self.stats.staleEpochsDropped.toNat + (self.expireBefore order ptsSamples).1 < 2 ^ 64
  | _ => True

instance {X : Crates} (self : MultichannelAudioReceiver X) :
    (op : ReceiverOp) → Decidable (op.SkipsNothing self)
  | .push _ => .isTrue trivial
  | .take _ ptsSamples => inferInstanceAs
      (Decidable (∀ entry ∈ self.playout.epochs.entries, ¬ entry.2.ptsSamples < ptsSamples))
  | .expire _ _ => .isTrue trivial

instance {X : Crates} (self : MultichannelAudioReceiver X) :
    (op : ReceiverOp) → Decidable (op.HasRoom self)
  | .push _ => .isTrue trivial
  | .take _ _ => .isTrue trivial
  | .expire order ptsSamples => inferInstanceAs (Decidable
      (self.stats.staleEpochsDropped.toNat + (self.expireBefore order ptsSamples).1 < 2 ^ 64))

namespace MultichannelAudioReceiver

variable {X : Crates}

lemma Accounted.step {self : MultichannelAudioReceiver X} (h : self.Accounted) {op : ReceiverOp}
    (hskips : op.SkipsNothing self) (hroom : op.HasRoom self) : (self.step op).2.Accounted := by
  cases op with
  | push datagram => exact h.pushDatagram datagram
  | take order ptsSamples =>
      refine h.takeForPlayout order fun entry hentry => ?_
      rw [h.ordered.key_eq entry hentry]
      exact hskips entry hentry
  | expire order ptsSamples => exact h.expireBefore order hroom

/-- **No complete epoch is lost** in a run whose reads skip no epoch in the playout buffer.  In every
state the epochs completed are at most those played, refused as late or duplicate, dropped as stale
or still buffered. -/
theorem accounted (config : MultichannelAudioSessionConfig) (ops : List ReceiverOp)
    (hroom : EveryStep step (new config : MultichannelAudioReceiver X) ops
      fun _ self op => op.HasRoom self)
    (hskips : EveryStep step (new config : MultichannelAudioReceiver X) ops
      fun _ self op => op.SkipsNothing self) :
    EveryState step (new config : MultichannelAudioReceiver X) ops fun _ self =>
      self.stats.epochsCompleted.toNat
        ≤ self.stats.exactEpochsPlayed.toNat + self.stats.duplicateOrLateEpochs.toNat
          + self.stats.staleEpochsDropped.toNat + self.playout.epochs.len := by
  intro past hpre
  have hall : EveryStep step (new config : MultichannelAudioReceiver X) past
      fun _ self op => op.SkipsNothing self ∧ op.HasRoom self := fun past' op hpast =>
    ⟨hskips past' op (hpast.trans hpre), hroom past' op (hpast.trans hpre)⟩
  have haccounted : (runState step (new config : MultichannelAudioReceiver X) past).Accounted :=
    run_invariant (fun _ self => self.Accounted) _ (accounted_new config)
      (fun _ _ _ h hop => h.step hop.1 hop.2) hall
  exact haccounted.covers

/-! ### One epoch that is skipped, and one that is played -/

open MultichannelAudioFecDecoder (sampleEpoch)

/-- A sender with room for two bytes in a fragment. -/
def sampleSender : MultichannelAudioSender := .new ⟨⟨118, 0, 1, 256⟩, 2, 2⟩

/-- The epoch of time 480 is complete and buffered; a read at time 481 removes it, and no counter
but that of the complete epochs knows of it. -/
theorem not_accounted_skipped :
    ∃ result, sampleSender.encodeAll repetition [.encode sampleEpoch] = some result ∧
      ¬ EveryState step (new .default : MultichannelAudioReceiver repetition)
        (readCalls result.1 481) fun _ self =>
          self.stats.epochsCompleted.toNat
            ≤ self.stats.exactEpochsPlayed.toNat + self.stats.duplicateOrLateEpochs.toNat
              + self.stats.staleEpochsDropped.toNat + self.playout.epochs.len := by
  have hchecks : (sampleSender.encodeAll repetition [.encode sampleEpoch]).map (fun result =>
      let self := runState step (new .default : MultichannelAudioReceiver repetition)
        (readCalls result.1 481)
      decide (self.stats.epochsCompleted.toNat
        ≤ self.stats.exactEpochsPlayed.toNat + self.stats.duplicateOrLateEpochs.toNat
          + self.stats.staleEpochsDropped.toNat + self.playout.epochs.len)) = some false := by
    decide +kernel
  obtain ⟨result, hrun, hresult⟩ := Option.map_eq_some_iff.mp hchecks
  exact ⟨result, hrun, fun hall => of_decide_eq_false hresult (hall _ (List.prefix_refl _))⟩

/-- The same epoch, read at its own time. -/
theorem accounted_played :
    ∃ result, sampleSender.encodeAll repetition [.encode sampleEpoch] = some result ∧
      EveryState step (new .default : MultichannelAudioReceiver repetition)
        (readCalls result.1 480) fun _ self =>
          self.stats.epochsCompleted.toNat
            ≤ self.stats.exactEpochsPlayed.toNat + self.stats.duplicateOrLateEpochs.toNat
              + self.stats.staleEpochsDropped.toNat + self.playout.epochs.len := by
  have hchecks : (sampleSender.encodeAll repetition [.encode sampleEpoch]).map (fun result =>
      (checkSteps step (fun self op => decide (op.HasRoom self))
          (new .default : MultichannelAudioReceiver repetition) (readCalls result.1 480),
        checkSteps step (fun self op => decide (op.SkipsNothing self))
          (new .default : MultichannelAudioReceiver repetition) (readCalls result.1 480)))
        = some (true, true) := by
    decide +kernel
  obtain ⟨result, hrun, hresult⟩ := Option.map_eq_some_iff.mp hchecks
  obtain ⟨hroom, hskips⟩ := Prod.mk.inj hresult
  exact ⟨result, hrun, accounted .default _
    (EveryStep.of_checkSteps hroom fun _ _ _ _ => of_decide_eq_true)
    (EveryStep.of_checkSteps hskips fun _ _ _ _ => of_decide_eq_true)⟩

end MultichannelAudioReceiver

end RaptorFec
