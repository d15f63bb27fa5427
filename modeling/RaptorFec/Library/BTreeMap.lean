import Mathlib.Data.Finset.Card
import Mathlib.Data.List.Basic
import Mathlib.Data.List.Pairwise
import Mathlib.Data.List.TakeWhile

/-!
# Ordered maps

A `BTreeMap` is a finite map with the ascending list of its entries.  Iterating it visits the
entries in that order; `insert` and `remove` keep it.

* `len_insert`, `len_remove` — one entry more, one entry less;
* `entries_removeAll_front` — the smallest keys are removed by cutting off the front of the list;
* `mem_removeAll_take` — when the smallest keys are removed until the map is small enough, an entry
  with few greater ones stays;
* `mem_expire`, `len_expire` — so are all keys below a bound.
-/

namespace RaptorFec

/-- A finite map over ordered keys: its entries, in ascending order of the keys. -/
structure BTreeMap (κ α : Type) [LT κ] where
  entries : List (κ × α)
  sorted : entries.Pairwise fun a b => a.1 < b.1

namespace BTreeMap

variable {κ α : Type} [LT κ]

/-- A map without entries. -/
def empty : BTreeMap κ α := ⟨[], List.Pairwise.nil⟩

variable (map : BTreeMap κ α)

/-- The number of entries. -/
def len : ℕ := map.entries.length

/-- The keys, in ascending order. -/
def keys : List κ := map.entries.map Prod.fst

section Insert

variable [DecidableLT κ] [Trans (α := κ) (· < ·) (· < ·) (· < ·)]

/-- A key with its value is added, or replaces the entry of that key. -/
def insert (k : κ) (v : α) : BTreeMap κ α where
  entries := map.entries.filter (fun entry => entry.1 < k)
    ++ (k, v) :: map.entries.filter fun entry => k < entry.1
  sorted := by
    refine List.pairwise_append.mpr ⟨map.sorted.filter _, List.pairwise_cons.mpr
      ⟨fun b hb => ?_, map.sorted.filter _⟩, fun a ha b hb => ?_⟩
    · exact of_decide_eq_true (List.mem_filter.mp hb).2
    · have hak : a.1 < k := of_decide_eq_true (List.mem_filter.mp ha).2
      rcases List.mem_cons.mp hb with rfl | hb
      · exact hak
      · have hkb : k < b.1 := of_decide_eq_true (List.mem_filter.mp hb).2
        exact Std.lt_trans hak hkb

variable {map} {k : κ} {v : α} {entry : κ × α}

lemma mem_of_mem_insert (h : entry ∈ (map.insert k v).entries) :
    entry = (k, v) ∨ entry ∈ map.entries := by
  rcases List.mem_append.mp h with hfront | hback
  · exact Or.inr (List.mem_filter.mp hfront).1
  · rcases List.mem_cons.mp hback with hnew | hrest
    · exact Or.inl hnew
    · exact Or.inr (List.mem_filter.mp hrest).1

lemma mem_insert_self (map : BTreeMap κ α) (k : κ) (v : α) : (k, v) ∈ (map.insert k v).entries :=
  List.mem_append_right _ List.mem_cons_self

lemma mem_insert_of_mem [Std.Trichotomous (α := κ) (· < ·)] (h : entry ∈ map.entries)
    (hne : entry.1 ≠ k) : entry ∈ (map.insert k v).entries := by
  rcases Std.Trichotomous.rel_or_eq_or_rel_swap (r := (· < ·)) (a := entry.1) (b := k) with
    hlt | heq | hgt
  · exact List.mem_append_left _ (List.mem_filter.mpr ⟨h, decide_eq_true hlt⟩)
  · exact absurd heq hne
  · exact List.mem_append_right _
      (List.mem_cons_of_mem _ (List.mem_filter.mpr ⟨h, decide_eq_true hgt⟩))

end Insert

section Remove

variable [DecidableEq κ]

/-- The value of a key. -/
def lookup (k : κ) : Option α := (map.entries.find? fun entry => entry.1 = k).map Prod.snd

/-- The entry of a key is removed. -/
def remove (k : κ) : BTreeMap κ α where
  entries := map.entries.filter fun entry => entry.1 ≠ k
  sorted := map.sorted.filter _

/-- The entries of some keys are removed, one after the other. -/
def removeAll (ks : List κ) : BTreeMap κ α := ks.foldl (fun map k => map.remove k) map

variable {map} {k : κ} {v : α} {entry : κ × α}

lemma mem_remove : entry ∈ (map.remove k).entries ↔ entry ∈ map.entries ∧ entry.1 ≠ k := by
  rw [remove, List.mem_filter, decide_eq_true_eq]

lemma mem_of_mem_removeAll {ks : List κ} (h : entry ∈ (map.removeAll ks).entries) :
    entry ∈ map.entries := by
  induction ks generalizing map with
  | nil => exact h
  | cons k ks ih => exact (mem_remove.mp (ih h)).1

lemma mem_of_lookup (h : map.lookup k = some v) : (k, v) ∈ map.entries := by
  obtain ⟨entry, hfind, rfl⟩ := Option.map_eq_some_iff.mp h
  have hmem : entry ∈ map.entries := List.mem_of_find?_eq_some hfind
  have hkey : entry.1 = k := by simpa using List.find?_some hfind
  rw [← hkey]
  exact hmem

lemma lookup_isSome : (map.lookup k).isSome ↔ ∃ entry ∈ map.entries, entry.1 = k := by
  rw [lookup, Option.isSome_map, List.find?_isSome]
  simp

lemma entries_removeAll (ks : List κ) :
    (map.removeAll ks).entries = map.entries.filter fun entry => entry.1 ∉ ks := by
  induction ks generalizing map with
  | nil => simp [removeAll]
  | cons k ks ih =>
      change ((map.remove k).removeAll ks).entries = _
      rw [ih, remove, List.filter_filter]
      refine List.filter_congr fun entry _ => ?_
      simp [Bool.and_comm]

end Remove

/-! ## Sizes -/

section Size

variable [Std.Irrefl (α := κ) (· < ·)] {map : BTreeMap κ α} {k : κ} {v : α}

lemma nodup_keys (map : BTreeMap κ α) : map.keys.Nodup := by
  refine (List.pairwise_map.mpr (map.sorted.imp fun {a b} hlt => ?_))
  intro heq
  rw [heq] at hlt
  exact Std.Irrefl.irrefl _ hlt

variable [DecidableEq κ]

lemma len_remove (h : (map.lookup k).isSome) : (map.remove k).len + 1 = map.len := by
  have hmem : k ∈ map.keys := by
    obtain ⟨entry, hentry, rfl⟩ := lookup_isSome.mp h
    exact List.mem_map_of_mem hentry
  have hkeys : (map.remove k).keys = map.keys.erase k := by
    rw [(nodup_keys map).erase_eq_filter, keys, keys, remove, List.filter_map]
    refine congrArg _ (List.filter_congr fun entry _ => ?_)
    by_cases hkey : entry.1 = k <;> simp [hkey]
  have hlen : ∀ map : BTreeMap κ α, map.len = map.keys.length := fun map => by
    rw [len, keys, List.length_map]
  have hpos := List.length_pos_of_mem hmem
  rw [hlen, hlen, hkeys, List.length_erase_of_mem hmem]
  omega

/-- The smallest keys are removed by cutting off the front of the list. -/
lemma entries_removeAll_front {front back : List (κ × α)} (h : map.entries = front ++ back) :
    (map.removeAll (front.map Prod.fst)).entries = back := by
  have hsorted := map.sorted
  rw [h, List.pairwise_append] at hsorted
  rw [entries_removeAll, h, List.filter_append]
  have hfront : front.filter (fun entry => entry.1 ∉ front.map Prod.fst) = [] := by
    rw [List.filter_eq_nil_iff]
    intro entry hentry
    simpa using ⟨entry.2, hentry⟩
  have hback : back.filter (fun entry => entry.1 ∉ front.map Prod.fst) = back := by
    rw [List.filter_eq_self]
    intro entry hentry
    rw [decide_eq_true_eq, List.mem_map]
    rintro ⟨other, hother, heq⟩
    have hlt := hsorted.2.2 other hother entry hentry
    rw [heq] at hlt
    exact Std.Irrefl.irrefl _ hlt
  rw [hfront, hback, List.nil_append]

lemma entries_removeAll_take (map : BTreeMap κ α) (n : ℕ) :
    (map.removeAll (map.keys.take n)).entries = map.entries.drop n := by
  rw [keys, ← List.map_take]
  exact entries_removeAll_front (List.take_append_drop n map.entries).symm

lemma len_removeAll_take (map : BTreeMap κ α) (n : ℕ) :
    (map.removeAll (map.keys.take n)).len = map.len - n := by
  rw [len, entries_removeAll_take, List.length_drop, len]

/-- **What it takes to be evicted**: at least as many greater keys as the map may have entries. -/
theorem mem_removeAll_take {entry : κ × α} (h : entry ∈ map.entries) {later : Finset κ}
    (hlater : ∀ other ∈ map.entries, entry.1 < other.1 → other.1 ∈ later) {capacity : ℕ}
    (hroom : later.card < capacity) :
    entry ∈ (map.removeAll (map.keys.take (map.len - capacity))).entries := by
  obtain ⟨front, back, hsplit⟩ := List.append_of_mem h
  have hsorted := map.sorted
  rw [hsplit, List.pairwise_append, List.pairwise_cons] at hsorted
  -- the entries behind it have distinct keys, all of them greater
  have hnodup : (back.map Prod.fst).Nodup := by
    have hkeys := nodup_keys map
    rw [keys, hsplit, List.map_append, List.map_cons] at hkeys
    exact (List.nodup_cons.mp (List.nodup_append.mp hkeys).2.1).2
  have hsub : (back.map Prod.fst).Subperm later.toList := by
    refine hnodup.subperm fun key hkey => Finset.mem_toList.mpr ?_
    obtain ⟨other, hother, rfl⟩ := List.mem_map.mp hkey
    exact hlater other (by simp [hsplit, hother]) (hsorted.2.1.1 other hother)
  have hle := hsub.length_le
  rw [List.length_map, Finset.length_toList] at hle
  have hlen : map.len = front.length + (back.length + 1) := by
    rw [len, hsplit, List.length_append, List.length_cons]
  rw [entries_removeAll_take, hsplit, List.drop_append_of_le_length (by omega)]
  simp

section Expire

variable [DecidableLT κ]

lemma entries_expire (map : BTreeMap κ α) (k : κ) :
    (map.removeAll (map.keys.takeWhile fun key => key < k)).entries
      = map.entries.dropWhile fun entry => entry.1 < k := by
  rw [keys, List.takeWhile_map]
  exact entries_removeAll_front List.takeWhile_append_dropWhile.symm

/-- All keys below a bound are removed, and no others. -/
lemma mem_expire [Trans (α := κ) (· < ·) (· < ·) (· < ·)] {entry : κ × α} :
    entry ∈ (map.removeAll (map.keys.takeWhile fun key => key < k)).entries
      ↔ entry ∈ map.entries ∧ ¬ entry.1 < k := by
  rw [entries_expire]
  have hsorted := map.sorted
  generalize map.entries = entries at hsorted
  induction entries with
  | nil => simp
  | cons first rest ih =>
      obtain ⟨hfirst, hrest⟩ := List.pairwise_cons.mp hsorted
      by_cases hlt : first.1 < k
      · have hdrop : (first :: rest).dropWhile (fun entry => decide (entry.1 < k))
            = rest.dropWhile fun entry => decide (entry.1 < k) :=
          List.dropWhile_cons_of_pos (by simpa using hlt)
        rw [hdrop, List.mem_cons]
        refine (ih hrest).trans ⟨fun h => ⟨Or.inr h.1, h.2⟩, fun h => ⟨h.1.resolve_left ?_, h.2⟩⟩
        rintro rfl
        exact h.2 hlt
      · rw [List.dropWhile_cons_of_neg (by simpa using hlt)]
        refine ⟨fun h => ⟨h, ?_⟩, And.left⟩
        rcases List.mem_cons.mp h with rfl | hmem
        · exact hlt
        · exact fun hbelow => hlt (Std.lt_trans (hfirst entry hmem) hbelow)

omit [Std.Irrefl (α := κ) (· < ·)] in
/-- When no key is below the bound, nothing is removed. -/
lemma expire_eq_self (h : ∀ entry ∈ map.entries, ¬ entry.1 < k) :
    map.removeAll (map.keys.takeWhile fun key => key < k) = map := by
  have hnone : (map.keys.takeWhile fun key => key < k) = [] := by
    rw [List.takeWhile_eq_nil_iff]
    intro hpos
    obtain ⟨entry, hentry, heq⟩ := List.mem_map.mp (List.get_mem map.keys ⟨0, hpos⟩)
    rw [← heq, decide_eq_true_eq]
    exact h entry hentry
  rw [hnone]
  rfl

lemma len_expire (map : BTreeMap κ α) (k : κ) :
    (map.removeAll (map.keys.takeWhile fun key => key < k)).len
        + (map.keys.takeWhile fun key => key < k).length
      = map.len := by
  have hsplit := congrArg List.length
    (List.takeWhile_append_dropWhile (p := fun entry : κ × α => entry.1 < k) (l := map.entries))
  rw [List.length_append] at hsplit
  rw [len, entries_expire, keys, List.takeWhile_map, List.length_map, len, ← hsplit, Nat.add_comm]
  rfl

variable [Trans (α := κ) (· < ·) (· < ·) (· < ·)] [Std.Trichotomous (α := κ) (· < ·)]

lemma len_insert (v : α) (h : map.lookup k = none) : (map.insert k v).len = map.len + 1 := by
  have hnone : ∀ entry ∈ map.entries, entry.1 ≠ k := by
    intro entry hentry heq
    have hsome := lookup_isSome.mpr ⟨entry, hentry, heq⟩
    rw [h] at hsome
    cases hsome
  have hback : (map.entries.filter fun entry => k < entry.1)
      = map.entries.filter fun entry => !decide (entry.1 < k) := by
    refine List.filter_congr fun entry hentry => ?_
    rcases Std.Trichotomous.rel_or_eq_or_rel_swap (r := (· < ·)) (a := entry.1) (b := k) with
      hlt | heq | hgt
    · have hnot : ¬ k < entry.1 := fun hgt => Std.Irrefl.irrefl _ (Std.lt_trans hlt hgt)
      simp [hlt, hnot]
    · exact absurd heq (hnone entry hentry)
    · have hnot : ¬ entry.1 < k := fun hlt => Std.Irrefl.irrefl _ (Std.lt_trans hlt hgt)
      simp [hgt, hnot]
  have hsplit := List.length_eq_length_filter_add (l := map.entries)
    fun entry => decide (entry.1 < k)
  rw [len, insert, List.length_append, List.length_cons, hback, len, hsplit]
  omega

end Expire

end Size

end BTreeMap

end RaptorFec
