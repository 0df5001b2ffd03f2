import HybridTemplate.Names.NameMap

/-!
# Sets of names

A `NameSet` lists names in ascending order, each once. `insert` and `union` are described by membership
(`mem_insert`, `mem_union`), and a set is its members (`NameSet.ext_mem`).
-/

namespace HybridTemplate

/-- Names in ascending order, each once. -/
@[ext] structure NameSet where
  /-- The map that has the names and says nothing more about them. -/
  map : NameMap Unit
deriving DecidableEq

namespace NameSet

/-- No names at all. -/
def empty : NameSet := ⟨∅⟩

instance : EmptyCollection NameSet := ⟨empty⟩

instance : Inhabited NameSet := ⟨empty⟩

/-- Whether a name is in the set. -/
def contains (s : NameSet) (name : String) : Bool :=
  (s.map.get? name).isSome

instance : Membership String NameSet := ⟨fun s name => s.contains name = true⟩

/-- The set with one more name. -/
def insert (s : NameSet) (name : String) : NameSet :=
  ⟨s.map.insert name ()⟩

/-- The names in ascending order. -/
def toList (s : NameSet) : List String :=
  s.map.names

/-- The number of names. -/
def size (s : NameSet) : Nat :=
  s.map.size

/-- The set of the names of a list. -/
def ofList (names : List String) : NameSet :=
  names.foldl insert empty

/-- The names that are in one of two sets. -/
def union (s t : NameSet) : NameSet :=
  t.toList.foldl insert s

theorem mem_iff {s : NameSet} {k : String} : k ∈ s ↔ (s.map.get? k).isSome = true := Iff.rfl

@[simp] theorem notMem_empty (k : String) : k ∉ (∅ : NameSet) := by
  simp [mem_iff, EmptyCollection.emptyCollection, empty, NameMap.empty, NameMap.get?, Entries.lookup]

@[simp] theorem mem_insert {s : NameSet} {name k : String} : k ∈ s.insert name ↔ k = name ∨ k ∈ s := by
  simp only [mem_iff, insert, NameMap.get?_insert]
  split <;> simp_all

@[simp] theorem mem_toList {s : NameSet} {k : String} : k ∈ s.toList ↔ k ∈ s :=
  NameMap.mem_names_iff

theorem mem_foldl_insert {names : List String} {s : NameSet} {k : String} :
    k ∈ names.foldl insert s ↔ k ∈ s ∨ k ∈ names := by
  induction names generalizing s with
  | nil => simp
  | cons n ns ih => simp only [List.foldl_cons, ih, mem_insert, List.mem_cons]; grind

@[simp] theorem mem_union {s t : NameSet} {k : String} : k ∈ s.union t ↔ k ∈ s ∨ k ∈ t := by
  simp [union, mem_foldl_insert]

/-- A set is its members. -/
theorem ext_mem {s t : NameSet} (h : ∀ k, k ∈ s ↔ k ∈ t) : s = t := by
  refine NameSet.ext (NameMap.ext_get? fun k => ?_)
  have hk := h k
  simp only [mem_iff] at hk
  cases hs : s.map.get? k <;> cases ht : t.map.get? k <;> simp_all

end NameSet

end HybridTemplate
