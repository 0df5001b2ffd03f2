import HybridTemplate.Names.Entries

/-!
# Maps from names to values

A `NameMap` holds one value per name, listed in ascending order of the names.

* `get?`, `insert`, `ofList` — its view by name and how to build one; `get?_insert` says what an insertion changes;
* `NameMap.ext_get?` — a map is what its look-ups answer.
-/

namespace HybridTemplate

/-- One value per name, in ascending order of the names. -/
@[ext] structure NameMap (α : Type) where
  /-- The names with their values. -/
  entries : List (String × α)
  ascending : Entries.Ascending entries
deriving DecidableEq

namespace NameMap

variable {α β : Type}

/-- No names at all. -/
def empty : NameMap α := ⟨[], List.Pairwise.nil⟩

instance : EmptyCollection (NameMap α) := ⟨empty⟩

instance : Inhabited (NameMap α) := ⟨empty⟩

/-- The value under a name. -/
def get? (m : NameMap α) (name : String) : Option α :=
  Entries.lookup name m.entries

/-- The map with `a` under `name`, in place of what was there. -/
def insert (m : NameMap α) (name : String) (a : α) : NameMap α :=
  ⟨Entries.put name a m.entries, m.ascending.put name a⟩

/-- The map of a list of entries; the last entry of a name counts. -/
def ofList (es : List (String × α)) : NameMap α :=
  es.foldl (fun m e => m.insert e.1 e.2) empty

/-- The map with `f` applied to all values. -/
def map (f : α → β) (m : NameMap α) : NameMap β :=
  ⟨m.entries.map fun e => (e.1, f e.2), m.ascending.map f⟩

/-- The names in ascending order. -/
def names (m : NameMap α) : List String :=
  m.entries.map (·.1)

/-- The number of names. -/
def size (m : NameMap α) : Nat :=
  m.entries.length

/-- Whether there are no names. -/
def isEmpty (m : NameMap α) : Bool :=
  m.entries.isEmpty

@[simp] theorem get?_empty (k : String) : (empty : NameMap α).get? k = none := rfl

/-- An insertion changes the value of its name and no other. -/
theorem get?_insert (m : NameMap α) (name : String) (a : α) (k : String) :
    (m.insert name a).get? k = if k = name then some a else m.get? k :=
  Entries.lookup_put name a m.entries k

@[simp] theorem get?_insert_self (m : NameMap α) (name : String) (a : α) : (m.insert name a).get? name = some a := by
  simp [get?_insert]

theorem get?_map (f : α → β) (m : NameMap α) (k : String) : (m.map f).get? k = (m.get? k).map f :=
  Entries.lookup_map f k m.entries

/-- A map is what its look-ups answer. -/
theorem ext_get? {m m' : NameMap α} (h : ∀ k, m.get? k = m'.get? k) : m = m' :=
  NameMap.ext (m.ascending.ext m'.ascending h)

theorem map_map_of_leftInverse {f : α → β} {g : β → α} (h : ∀ a, g (f a) = a) (m : NameMap α) :
    (m.map f).map g = m := by
  refine ext_get? fun k => ?_
  rw [get?_map, get?_map]
  cases m.get? k with
  | none => rfl
  | some a => exact congrArg some (h a)

theorem mem_entries_iff {m : NameMap α} {k : String} {a : α} : (k, a) ∈ m.entries ↔ m.get? k = some a :=
  m.ascending.lookup_eq_some_iff.symm

theorem mem_names_iff {m : NameMap α} {k : String} : k ∈ m.names ↔ (m.get? k).isSome = true := by
  constructor
  · intro h
    obtain ⟨⟨k', a⟩, he, rfl⟩ := List.mem_map.mp h
    simp [mem_entries_iff.mp he]
  · intro h
    obtain ⟨a, ha⟩ := Option.isSome_iff_exists.mp h
    exact List.mem_map.mpr ⟨(k, a), mem_entries_iff.mpr ha, rfl⟩

end NameMap

end HybridTemplate
