/-!
# Entries in ascending order of names

A list of pairs that is kept in the order of its names (by code point) and names nothing twice.

* `Entries.lookup` and `Entries.put` — read and write one name; `lookup_put` says what a write changes;
* `Ascending` — the names rise strictly, which `put` keeps (`Ascending.put`);
* `Ascending.ext` — two ascending lists that answer every look-up alike are one list.
-/

namespace HybridTemplate.Entries

variable {α : Type}

/-- The value under a name. -/
def lookup (name : String) : List (String × α) → Option α
  | [] => none
  | (n, a) :: rest => if name = n then some a else lookup name rest

/-- The entries with `a` under `name`, in the place where the order wants it. -/
def put (name : String) (a : α) : List (String × α) → List (String × α)
  | [] => [(name, a)]
  | (n, b) :: rest =>
    if name < n then (name, a) :: (n, b) :: rest
    else if name = n then (name, a) :: rest
    else (n, b) :: put name a rest

/-- The names rise strictly from left to right. -/
def Ascending (es : List (String × α)) : Prop :=
  es.Pairwise (·.1 < ·.1)

instance (es : List (String × α)) : Decidable (Ascending es) :=
  inferInstanceAs (Decidable (es.Pairwise (·.1 < ·.1)))

/-! ## Order -/

theorem eq_of_not_lt {a b : String} (h₁ : ¬a < b) (h₂ : ¬b < a) : a = b :=
  String.le_antisymm (String.not_lt.mp h₂) (String.not_lt.mp h₁)

theorem lt_of_not_lt_of_ne {a b : String} (h₁ : ¬a < b) (h₂ : a ≠ b) : b < a :=
  Decidable.byContradiction fun h => h₂ (eq_of_not_lt h₁ h)

/-! ## Writing -/

/-- A write changes the entry of its name and no other. -/
theorem lookup_put (name : String) (a : α) (es : List (String × α)) (k : String) :
    lookup k (put name a es) = if k = name then some a else lookup k es := by
  induction es with
  | nil => rfl
  | cons e es ih =>
    obtain ⟨n, b⟩ := e
    simp only [put]
    split
    · rfl
    · split
      · next h => subst h; simp only [lookup]; split <;> rfl
      · next h₁ h₂ =>
        simp only [lookup, ih]
        by_cases hk : k = n
        · subst hk; simp [Ne.symm h₂]
        · simp [hk]

theorem mem_put {name : String} {a : α} {es : List (String × α)} {e : String × α} (h : e ∈ put name a es) :
    e = (name, a) ∨ e ∈ es := by
  induction es with
  | nil => simpa [put] using h
  | cons e' es ih =>
    obtain ⟨n, b⟩ := e'
    simp only [put] at h
    split at h
    · simpa using h
    · split at h
      · rcases List.mem_cons.mp h with h | h
        · exact .inl h
        · exact .inr (List.mem_cons_of_mem _ h)
      · rcases List.mem_cons.mp h with h | h
        · exact .inr (h ▸ List.mem_cons_self)
        · exact (ih h).imp id (List.mem_cons_of_mem _)

theorem Ascending.put {es : List (String × α)} (h : Ascending es) (name : String) (a : α) :
    Ascending (Entries.put name a es) := by
  induction es with
  | nil => exact List.pairwise_singleton _ _
  | cons e es ih =>
    obtain ⟨n, b⟩ := e
    obtain ⟨hn, hes⟩ := List.pairwise_cons.mp h
    simp only [Entries.put]
    split
    · next hlt =>
      refine List.pairwise_cons.mpr ⟨fun e he => ?_, h⟩
      rcases List.mem_cons.mp he with rfl | he
      · exact hlt
      · exact String.lt_trans hlt (hn e he)
    · next hnlt =>
      split
      · next heq => subst heq; exact List.pairwise_cons.mpr ⟨hn, hes⟩
      · next hne =>
        refine List.pairwise_cons.mpr ⟨fun e he => ?_, ih hes⟩
        rcases mem_put he with rfl | he
        · exact lt_of_not_lt_of_ne hnlt hne
        · exact hn e he

/-- New values under the same names are in the same order. -/
theorem Ascending.map {β : Type} {es : List (String × α)} (h : Ascending es) (f : α → β) :
    Ascending (es.map fun e => (e.1, f e.2)) := by
  rw [Ascending, List.pairwise_map]
  exact h

/-! ## Reading -/

theorem lookup_map {β : Type} (f : α → β) (name : String) (es : List (String × α)) :
    lookup name (es.map fun e => (e.1, f e.2)) = (lookup name es).map f := by
  induction es with
  | nil => rfl
  | cons e es ih =>
    simp only [List.map_cons, lookup, ih]
    split <;> rfl

theorem lookup_eq_none_of_lt {name : String} {es : List (String × α)} (h : ∀ e ∈ es, name < e.1) :
    lookup name es = none := by
  induction es with
  | nil => rfl
  | cons e es ih =>
    have hne : name ≠ e.1 := fun heq => String.lt_irrefl _ (heq ▸ h e List.mem_cons_self)
    simp [lookup, hne, ih fun e he => h e (List.mem_cons_of_mem _ he)]

/-- In an ascending list the entries are what the look-ups answer. -/
theorem Ascending.lookup_eq_some_iff {es : List (String × α)} (h : Ascending es) {name : String} {a : α} :
    lookup name es = some a ↔ (name, a) ∈ es := by
  induction es with
  | nil => simp [lookup]
  | cons e es ih =>
    obtain ⟨n, b⟩ := e
    obtain ⟨hn, hes⟩ := List.pairwise_cons.mp h
    by_cases heq : name = n
    · subst heq
      have : (name, a) ∉ es := fun hm => String.lt_irrefl name (hn _ hm)
      simp [lookup, this, eq_comm]
    · simp [lookup, heq, ih hes]

/-- Two ascending lists that answer every look-up alike are one list. -/
theorem Ascending.ext {es fs : List (String × α)} (he : Ascending es) (hf : Ascending fs)
    (h : ∀ name, lookup name es = lookup name fs) : es = fs := by
  induction es generalizing fs with
  | nil =>
    cases fs with
    | nil => rfl
    | cons f fs => simpa [lookup] using h f.1
  | cons e es ih =>
    cases fs with
    | nil => simpa [lookup] using h e.1
    | cons f fs =>
      obtain ⟨n, a⟩ := e
      obtain ⟨m, b⟩ := f
      obtain ⟨hn, hes⟩ := List.pairwise_cons.mp he
      obtain ⟨hm, hfs⟩ := List.pairwise_cons.mp hf
      have hnm : n = m := by
        refine eq_of_not_lt (fun hlt => ?_) fun hlt => ?_
        · have : lookup n ((m, b) :: fs) = none :=
            lookup_eq_none_of_lt fun f hf => (List.mem_cons.mp hf).elim (fun h => h ▸ hlt)
              fun hf => String.lt_trans hlt (hm f hf)
          rw [← h n] at this; simp [lookup] at this
        · have : lookup m ((n, a) :: es) = none :=
            lookup_eq_none_of_lt fun e he => (List.mem_cons.mp he).elim (fun h => h ▸ hlt)
              fun he => String.lt_trans hlt (hn e he)
          rw [h m] at this; simp [lookup] at this
      subst hnm
      have hab : a = b := by simpa [lookup] using h n
      subst hab
      refine congrArg _ (ih hes hfs fun k => ?_)
      by_cases hk : k = n
      · subst hk
        rw [lookup_eq_none_of_lt fun e he => hn e he, lookup_eq_none_of_lt fun f hf => hm f hf]
      · simpa [lookup, hk] using h k

end HybridTemplate.Entries
