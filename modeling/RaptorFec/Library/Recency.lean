import Mathlib.Data.List.Dedup
import RaptorFec.Library.Fifo

/-!
# Stores that keep the latest entries

Entries with keys are put into a queue one after the other.  An entry takes the place of the one
with its key, at the back of the queue, and the oldest entries go when there are more than
`capacity`.

* `latest` — the entries of a history that no later entry replaces, in the order they were put in;
* `latest_append` — what a second part of the history leaves of the first one;
* `keepLatest` — putting an entry into the bounded queue;
* **`foldl_keepLatest`** — the bounded queue holds the last `capacity` entries of `latest`;
* **`mem_trim_latest`** — an entry is among these exactly when fewer than `capacity` other keys
  come after it.
-/

namespace RaptorFec

variable {α κ : Type*} [DecidableEq κ] (key : α → κ)

/-- The entries of a history whose key does not come again. -/
def latest : List α → List α
  | [] => []
  | x :: xs => if key x ∈ xs.map key then latest xs else x :: latest xs

@[simp] lemma latest_nil : latest key [] = [] := rfl

/-- The keys that are left are the distinct keys, in the order of their last occurrence. -/
lemma map_latest (xs : List α) : (latest key xs).map key = (xs.map key).dedup := by
  induction xs with
  | nil => rfl
  | cons x xs ih =>
      rw [latest, List.map_cons]
      split_ifs with hmem
      · rw [ih, List.dedup_cons_of_mem hmem]
      · rw [List.map_cons, ih, List.dedup_cons_of_notMem hmem]

lemma nodup_map_latest (xs : List α) : ((latest key xs).map key).Nodup := by
  rw [map_latest]
  exact List.nodup_dedup _

/-- The second part of a history replaces the entries of the first part with its keys. -/
lemma latest_append (xs ys : List α) : latest key (xs ++ ys)
    = ((latest key xs).filter fun x => key x ∉ ys.map key) ++ latest key ys := by
  induction xs with
  | nil => simp
  | cons x xs ih =>
      rw [List.cons_append, latest, latest, List.map_append, ih]
      by_cases hxs : key x ∈ xs.map key
      · rw [if_pos (List.mem_append_left _ hxs), if_pos hxs]
      · by_cases hys : key x ∈ ys.map key
        · rw [if_pos (List.mem_append_right _ hys), if_neg hxs,
            List.filter_cons_of_neg (by simpa using hys)]
        · have hnot : key x ∉ xs.map key ++ ys.map key := by
            rw [List.mem_append]
            rintro (hin | hin)
            · exact hxs hin
            · exact hys hin
          rw [if_neg hnot, if_neg hxs, List.filter_cons_of_pos (by simpa using hys),
            List.cons_append]

/-- An entry is left if its key does not come again. -/
lemma mem_latest {xs : List α} {x : α} (h : x ∈ latest key xs) :
    ∃ before after, xs = before ++ x :: after ∧ key x ∉ after.map key := by
  induction xs with
  | nil => simp at h
  | cons y xs ih =>
      rw [latest] at h
      split_ifs at h with hmem
      · obtain ⟨before, after, rfl, hafter⟩ := ih h
        exact ⟨y :: before, after, rfl, hafter⟩
      · rcases List.mem_cons.mp h with rfl | h
        · exact ⟨[], xs, rfl, hmem⟩
        · obtain ⟨before, after, rfl, hafter⟩ := ih h
          exact ⟨y :: before, after, rfl, hafter⟩

/-- Behind such an entry stands what is left of what comes after it. -/
lemma latest_split (before : List α) {after : List α} {x : α} (h : key x ∉ after.map key) :
    ∃ front, latest key (before ++ x :: after) = front ++ x :: latest key after := by
  refine ⟨(latest key before).filter fun y => key y ∉ (x :: after).map key, ?_⟩
  rw [latest_append, latest, if_neg h]

/-! ## The bounded queue -/

/-- An entry is put in at the back, in place of the one with its key, and the queue is trimmed. -/
def keepLatest (capacity : ℕ) (entries : List α) (x : α) : List α :=
  trim capacity ((entries.eraseP fun y => key y = key x) ++ [x])

section Trim

variable {capacity : ℕ}

/-- Only the back of a queue counts once it is long enough. -/
lemma trim_append_of_le {front later : List α} (h : capacity ≤ later.length) :
    trim capacity (front ++ later) = trim capacity later := by
  rw [trim, trim, List.length_append, Nat.add_sub_assoc h, List.drop_length_add_append]

/-- An entry is among the last ones exactly if the entries behind it leave room for it. -/
lemma mem_trim_iff {front later : List α} {x : α} (hnot : x ∉ later) :
    x ∈ trim capacity (front ++ x :: later) ↔ later.length < capacity := by
  constructor
  · intro hmem
    by_contra hfull
    rw [List.append_cons, trim_append_of_le (Nat.not_lt.mp hfull)] at hmem
    exact hnot (mem_of_mem_trim hmem)
  · intro hroom
    have hsplit : ∃ front', trim capacity (front ++ x :: later) = front' ++ x :: later :=
      trim_split hroom
    obtain ⟨front', htrim⟩ := hsplit
    rw [htrim]
    simp

end Trim

variable {key} {capacity : ℕ} {entries : List α} {x : α}

/-- With distinct keys, at most one entry has a given key. -/
lemma eraseP_key_eq_filter (h : (entries.map key).Nodup) (k : κ) :
    (entries.eraseP fun y => key y = k) = entries.filter fun y => key y ≠ k := by
  induction entries with
  | nil => rfl
  | cons y entries ih =>
      obtain ⟨hnot, hrest⟩ := List.nodup_cons.mp h
      by_cases hy : key y = k
      · rw [List.eraseP_cons_of_pos (by simpa using hy), List.filter_cons_of_neg (by simpa using hy)]
        refine (List.filter_eq_self.mpr fun z hz => ?_).symm
        rw [decide_eq_true_eq]
        intro hkey
        rw [hy, ← hkey] at hnot
        exact hnot (List.mem_map_of_mem hz)
      · rw [List.eraseP_cons_of_neg (by simpa using hy),
          List.filter_cons_of_pos (by simpa using hy), ih hrest]

/-- The queue keeps its keys distinct. -/
lemma nodup_keepLatest (h : (entries.map key).Nodup) :
    ((keepLatest key capacity entries x).map key).Nodup := by
  have hall : (((entries.eraseP fun y => key y = key x) ++ [x]).map key).Nodup := by
    rw [eraseP_key_eq_filter h, List.map_append, List.nodup_append]
    refine ⟨h.sublist (List.filter_sublist.map key), by simp, ?_⟩
    intro k hk k' hk'
    obtain ⟨y, hy, rfl⟩ := List.mem_map.mp hk
    rw [List.map_singleton, List.mem_singleton] at hk'
    rw [hk']
    simpa using (List.mem_filter.mp hy).2
  exact hall.sublist ((List.drop_sublist _ _).map key)

lemma length_keepLatest_le : (keepLatest key capacity entries x).length ≤ capacity := by
  rw [keepLatest, length_trim]
  exact Nat.min_le_right _ _

variable (key) in
/-- **The bounded queue**: after any history it holds the last entries that are left of it. -/
theorem foldl_keepLatest (capacity : ℕ) (xs : List α) :
    xs.foldl (keepLatest key capacity) [] = trim capacity (latest key xs) := by
  induction xs using List.reverseRecOn with
  | nil => simp [trim]
  | append_singleton xs x ih =>
      rw [List.foldl_append, List.foldl_cons, List.foldl_nil, ih, latest_append]
      have hkept : ((trim capacity (latest key xs)).map key).Nodup :=
        (nodup_map_latest key xs).sublist ((List.drop_sublist _ _).map key)
      have hfilter : ((latest key xs).filter fun y => key y ∉ [x].map key)
          = (latest key xs).filter fun y => key y ≠ key x := by
        simp
      have hlast : latest key [x] = [x] := by simp [latest]
      rw [keepLatest, hfilter, hlast]
      -- what the queue has dropped stays dropped: at most one entry is taken out of the rest
      obtain hshort | hlong := Nat.lt_or_ge capacity (latest key xs).length
      · have hsplit : latest key xs = (latest key xs).take ((latest key xs).length - capacity)
            ++ trim capacity (latest key xs) := (List.take_append_drop _ _).symm
        have hlength : (trim capacity (latest key xs)).length = capacity := by
          rw [length_trim]
          exact Nat.min_eq_right (Nat.le_of_lt hshort)
        conv_rhs => rw [hsplit]
        have herase := List.le_length_eraseP (l := trim capacity (latest key xs))
          (p := fun y => decide (key y = key x))
        rw [List.filter_append, ← eraseP_key_eq_filter hkept, List.append_assoc]
        refine (trim_append_of_le ?_).symm
        rw [List.length_append, List.length_singleton]
        omega
      · rw [trim_of_le hlong, eraseP_key_eq_filter (nodup_map_latest key xs)]

/-- **Which entries are left**: those whose key does not come again, with fewer than `capacity`
distinct keys behind them. -/
theorem mem_trim_latest {xs : List α} : x ∈ trim capacity (latest key xs) ↔
    ∃ before after, xs = before ++ x :: after ∧ key x ∉ after.map key ∧
      (after.map key).toFinset.card < capacity := by
  have hcount : ∀ after : List α, (latest key after).length = (after.map key).toFinset.card := by
    intro after
    rw [List.card_toFinset, ← map_latest, List.length_map]
  have hbehind : ∀ after : List α, key x ∉ after.map key → x ∉ latest key after := by
    intro after hafter hmem
    refine hafter ?_
    rw [← List.mem_dedup, ← map_latest]
    exact List.mem_map_of_mem hmem
  constructor
  · intro hmem
    obtain ⟨before, after, rfl, hafter⟩ := mem_latest key (mem_of_mem_trim hmem)
    obtain ⟨front, hfront⟩ := latest_split key before hafter
    rw [hfront, mem_trim_iff (hbehind after hafter), hcount] at hmem
    exact ⟨before, after, rfl, hafter, hmem⟩
  · rintro ⟨before, after, rfl, hafter, hfew⟩
    obtain ⟨front, hfront⟩ := latest_split key before hafter
    rw [hfront, mem_trim_iff (hbehind after hafter), hcount]
    exact hfew

end RaptorFec
