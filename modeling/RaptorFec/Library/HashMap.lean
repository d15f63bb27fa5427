import Mathlib.Data.Finmap
import Mathlib.Data.Finset.Sort
import RaptorFec.Library.Fifo

/-!
# Hash maps

A `HashMap` is a finite map without an order: two maps with the same entries are the same map.
Mathlib's `Finmap` has the operations on single keys (`lookup`, `insert`, `erase`, each with its
lookup lemmas); this file adds `retain`, which keeps the entries whose key satisfies a predicate,
`len`, and `Iteration`, an order in which maps are iterated.
-/

namespace RaptorFec

variable {κ α : Type}

/-- A finite map from keys to values. -/
abbrev HashMap (κ α : Type) := Finmap fun _ : κ => α

namespace HashMap

/-- The number of entries. -/
def len (map : HashMap κ α) : ℕ := map.keys.card

/-- An order in which the keys of maps are visited.  An iteration may visit the keys of a map in
any order, and the next iteration in another one. -/
structure Iteration (κ α : Type) where
  keys : HashMap κ α → List κ
  enumerates : ∀ map, Enumerates (keys map) map.keys

/-- The iteration in ascending order of the keys. -/
def Iteration.ascending [LE κ] [DecidableLE κ] [IsTrans κ (· ≤ ·)]
    [Std.Antisymm (α := κ) (· ≤ ·)] [Std.Total (α := κ) (· ≤ ·)] : Iteration κ α where
  keys map := map.keys.sort (· ≤ ·)
  enumerates _ := ⟨Finset.sort_nodup _ _, fun _ => Finset.mem_sort _⟩

/-- The entries whose key satisfies `keep`. -/
def retain (keep : κ → Prop) [DecidablePred keep] (map : HashMap κ α) : HashMap κ α where
  entries := map.entries.filter fun entry => keep entry.1
  nodupKeys := by
    have hsub : (map.entries.filter fun entry => keep entry.1).keys ≤ map.entries.keys :=
      Multiset.map_le_map (Multiset.filter_le _ _)
    exact Multiset.nodup_keys.mp (Multiset.nodup_of_le hsub map.nodupKeys.nodup_keys)

variable [DecidableEq κ] {keep : κ → Prop} [DecidablePred keep] {map : HashMap κ α} {k : κ}

lemma lookup_retain :
    (map.retain keep).lookup k = if keep k then map.lookup k else none := by
  ext v
  rw [← Option.mem_def, Finmap.mem_lookup_iff]
  change (⟨k, v⟩ : Sigma fun _ : κ => α) ∈ Multiset.filter _ map.entries ↔ _
  rw [Multiset.mem_filter, ← Finmap.mem_lookup_iff, Option.mem_def]
  by_cases hkeep : keep k
  · simp [hkeep]
  · simp [hkeep]

lemma lookup_insert_eq {map : HashMap κ α} {k k' : κ} {v : α} :
    (map.insert k v).lookup k' = if k' = k then some v else map.lookup k' := by
  split_ifs with h
  · rw [h, Finmap.lookup_insert]
  · exact Finmap.lookup_insert_of_ne _ h

@[simp] lemma keys_insert (map : HashMap κ α) (k : κ) (v : α) :
    (map.insert k v).keys = insert k map.keys := by
  ext k'
  rw [Finmap.mem_keys, Finmap.mem_insert, Finset.mem_insert, Finmap.mem_keys]

lemma lookup_erase_eq {map : HashMap κ α} {k k' : κ} :
    (map.erase k).lookup k' = if k' = k then none else map.lookup k' := by
  split_ifs with h
  · rw [h, Finmap.lookup_erase]
  · exact Finmap.lookup_erase_ne h

end HashMap

end RaptorFec
