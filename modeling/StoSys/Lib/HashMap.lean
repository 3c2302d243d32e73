import Mathlib.Data.List.AList

/-!
# Unordered maps and their traversals

`std::unordered_map<int64_t, V>` is a finite map that may be walked in any order.  The map itself
is Mathlib's `AList`; what the C++ iterator adds is a `Traversal`: a choice, for every map, of the
order in which `begin()` to `end()` visits its entries.  Nothing is assumed about the choice except
that every entry is visited exactly once.
-/

namespace HashMap

/-- `std::unordered_map<int64_t, V>` -/
abbrev UMap (V : Type) : Type := AList fun _ : ℤ => V

/-- An iteration order for every map with values in `V`. -/
structure Traversal (V : Type) where
  order : UMap V → List (Sigma fun _ : ℤ => V)
  perm : ∀ m, (order m).Perm m.entries

namespace Traversal

variable {V : Type}

/-- The traversal that follows the list the map is kept in. -/
def stored : Traversal V where
  order m := m.entries
  perm _ := List.Perm.refl _

variable (t : Traversal V) (m : UMap V)

lemma nodupKeys : (t.order m).NodupKeys :=
  (List.perm_nodupKeys (t.perm m)).mpr m.nodupKeys

lemma nodup_keys : ((t.order m).map Sigma.fst).Nodup :=
  t.nodupKeys m

/-- A traversal visits exactly the entries of the map. -/
lemma mem_order {k : ℤ} {v : V} : ⟨k, v⟩ ∈ t.order m ↔ m.lookup k = some v := by
  rw [(t.perm m).mem_iff, ← AList.mem_lookup_iff, Option.mem_def]

lemma mem_order_keys {k : ℤ} : k ∈ (t.order m).map Sigma.fst ↔ k ∈ m := by
  rw [((t.perm m).map Sigma.fst).mem_iff]
  exact AList.mem_keys.symm

@[simp] lemma order_empty : t.order ∅ = [] :=
  (t.perm ∅).eq_nil

end Traversal

variable {V : Type}

/-- `m->insert(std::pair(k, v))`: an existing entry wins. -/
def insertNew (m : UMap V) (k : ℤ) (v : V) : UMap V :=
  if k ∈ m then m else m.insert k v

lemma lookup_insert_eq (m : UMap V) (k k' : ℤ) (v : V) :
    (m.insert k v).lookup k' = if k' = k then some v else m.lookup k' := by
  split_ifs with h
  · subst h; exact AList.lookup_insert m
  · exact AList.lookup_insert_ne h

lemma mem_of_lookup {m : UMap V} {k : ℤ} {v : V} (h : m.lookup k = some v) : k ∈ m := by
  rw [← AList.lookup_isSome, h]; rfl

lemma lookup_of_mem {m : UMap V} {k : ℤ} (h : k ∈ m) : ∃ v, m.lookup k = some v :=
  Option.isSome_iff_exists.mp (AList.lookup_isSome.mpr h)

/-- A key that is already there keeps its value. -/
lemma lookup_insertNew (m : UMap V) (k k' : ℤ) (v : V) :
    (insertNew m k v).lookup k' = if k' = k ∧ k ∉ m then some v else m.lookup k' := by
  unfold insertNew
  by_cases hk : k ∈ m
  · simp [hk]
  · rw [if_neg hk, lookup_insert_eq]
    simp [hk]

end HashMap
