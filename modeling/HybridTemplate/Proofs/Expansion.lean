import HybridTemplate.Proofs.Absorb
import HybridTemplate.Render.Environment

/-!
# Expansions

What a caching render made of the nodes of a template: an `Expansion` keeps the texts, the values of the outputs, and
for each inclusion whether it was deferred and what the included template expanded to.

* `hybrid`, `emitted`, `plain` — the nodes that the render leaves, their source, and the text with every inclusion in
  its place;
* `names`, `inlined`, `kept`, `deferrals` — the inclusions met, those recorded on the frame around, those beneath or at
  a deferred one, and the deferred ones; `mem_names_iff` ties the first three together;
* `stored` — what the deferred inclusions write to the artifacts; `templates_stored` and `results_stored` say what is
  found there afterwards.
-/

namespace HybridTemplate

/-- What the nodes of a template expanded to. -/
inductive Expansion where
  | nil
  | text (content : String) (rest : Expansion)
  | output (var : Variable) (value : String) (rest : Expansion)
  /-- An inclusion, whether it was deferred, and what the included template expanded to. -/
  | inclusion (tag : Inclusion) (deferred : Bool) (body rest : Expansion)
deriving DecidableEq

namespace Expansion

/-- The nodes that the render leaves: frozen texts and the tags of deferred inclusions. -/
def hybrid : Expansion → List Node
  | nil => []
  | text content rest => .text content :: rest.hybrid
  | output _ value rest => .text value :: rest.hybrid
  | inclusion tag true _ rest => .inclusion tag :: rest.hybrid
  | inclusion _ false body rest => body.hybrid ++ rest.hybrid

/-- The text that the render gives: frozen texts and directives. -/
def emitted : Expansion → String
  | nil => ""
  | text content rest => content ++ rest.emitted
  | output _ value rest => value ++ rest.emitted
  | inclusion tag true _ rest => tag.directive ++ rest.emitted
  | inclusion _ false body rest => body.emitted ++ rest.emitted

/-- The text with every inclusion in its place. -/
def plain : Expansion → String
  | nil => ""
  | text content rest => content ++ rest.plain
  | output _ value rest => value ++ rest.plain
  | inclusion _ _ body rest => body.plain ++ rest.plain

/-- The number of inclusions inside one another. -/
def height : Expansion → Nat
  | nil => 0
  | text _ rest => rest.height
  | output _ _ rest => rest.height
  | inclusion _ _ body rest => max (body.height + 1) rest.height

/-- The names of the inclusions. -/
def names : Expansion → List String
  | nil => []
  | text _ rest => rest.names
  | output _ _ rest => rest.names
  | inclusion tag _ body rest => tag.key :: body.names ++ rest.names

/-- The names that the frame around records as inlined. -/
def inlined : Expansion → NameSet
  | nil => ∅
  | text _ rest => rest.inlined
  | output _ _ rest => rest.inlined
  | inclusion _ true _ rest => rest.inlined
  | inclusion tag false body rest => (body.inlined.insert tag.key).union rest.inlined

/-- The names of the inclusions that are deferred or beneath a deferred one. -/
def kept : Expansion → List String
  | nil => []
  | text _ rest => rest.kept
  | output _ _ rest => rest.kept
  | inclusion tag true body rest => tag.key :: body.names ++ rest.kept
  | inclusion _ false body rest => body.kept ++ rest.kept

/-- The deferred inclusions, with what their templates expanded to. -/
def deferrals : Expansion → List (Inclusion × Expansion)
  | nil => []
  | text _ rest => rest.deferrals
  | output _ _ rest => rest.deferrals
  | inclusion tag true body rest => (tag, body) :: body.deferrals ++ rest.deferrals
  | inclusion _ false body rest => body.deferrals ++ rest.deferrals

/-- The text of the last deferred inclusion of a name. -/
def memo (n : String) : Expansion → Option String
  | nil => none
  | text _ rest => rest.memo n
  | output _ _ rest => rest.memo n
  | inclusion tag true body rest => (rest.memo n).or (if n = tag.key then some body.emitted else body.memo n)
  | inclusion _ false body rest => (rest.memo n).or (body.memo n)

/-! ## The source of the hybrid -/

theorem emit_append (as bs : List Node) :
    Template.emit ⟨as ++ bs⟩ = Template.emit ⟨as⟩ ++ Template.emit ⟨bs⟩ := by
  simp [Template.emit, String.ofList_append]

theorem emit_cons (a : Node) (bs : List Node) :
    Template.emit ⟨a :: bs⟩ = String.ofList a.emit ++ Template.emit ⟨bs⟩ := by
  simp [Template.emit, String.ofList_append]

/-- What a render emits is the source of the nodes that it leaves. -/
theorem emit_hybrid (e : Expansion) : Template.emit ⟨e.hybrid⟩ = e.emitted := by
  induction e with
  | nil => rfl
  | text content rest ih => simp [hybrid, emitted, emit_cons, ih, Node.emit]
  | output v value rest ih => simp [hybrid, emitted, emit_cons, ih, Node.emit]
  | inclusion tag d body rest ihb ihr =>
    cases d with
    | true => simp [hybrid, emitted, emit_cons, ihr, Node.emit]
    | false => simp [hybrid, emitted, emit_append, ihb, ihr]

/-! ## Names -/

/-- An inclusion is recorded as inlined, or it is at or beneath a deferred one. -/
theorem mem_names_iff (e : Expansion) (n : String) : n ∈ e.names ↔ n ∈ e.inlined ∨ n ∈ e.kept := by
  induction e with
  | nil => simp [names, inlined, kept]
  | text content rest ih => exact ih
  | output v value rest ih => exact ih
  | inclusion tag d body rest ihb ihr =>
    cases d with
    | true =>
      simp only [names, inlined, kept, List.cons_append, List.mem_cons, List.mem_append, ihr]
      grind
    | false =>
      simp only [names, inlined, kept, List.cons_append, List.mem_cons, List.mem_append, ihb, ihr,
        NameSet.mem_union, NameSet.mem_insert]
      grind

theorem kept_subset_names (e : Expansion) {n : String} (h : n ∈ e.kept) : n ∈ e.names :=
  (e.mem_names_iff n).mpr (Or.inr h)

/-- What is kept are the deferred inclusions and all beneath them. -/
theorem mem_kept_iff (e : Expansion) (n : String) :
    n ∈ e.kept ↔ ∃ tag body, (tag, body) ∈ e.deferrals ∧ (n = tag.key ∨ n ∈ body.names) := by
  induction e with
  | nil => simp [kept, deferrals]
  | text content rest ih => exact ih
  | output v value rest ih => exact ih
  | inclusion tag d body rest ihb ihr =>
    cases d with
    | true =>
      have hb : n ∈ body.kept → n ∈ body.names := body.kept_subset_names
      simp only [kept, deferrals, List.cons_append, List.mem_cons, List.mem_append, ihr, Prod.mk.injEq]
      constructor
      · rintro (h | h | ⟨tag', body', h, hn⟩)
        · exact ⟨tag, body, Or.inl ⟨rfl, rfl⟩, Or.inl h⟩
        · exact ⟨tag, body, Or.inl ⟨rfl, rfl⟩, Or.inr h⟩
        · exact ⟨tag', body', Or.inr (Or.inr h), hn⟩
      · rintro ⟨tag', body', ⟨rfl, rfl⟩ | h | h, hn⟩
        · exact hn.imp_right Or.inl
        · exact Or.inr (Or.inl (hb (ihb.mpr ⟨tag', body', h, hn⟩)))
        · exact Or.inr (Or.inr ⟨tag', body', h, hn⟩)
    | false =>
      simp only [kept, deferrals, List.mem_append, ihb, ihr]
      constructor
      · rintro (⟨tag', body', h, hn⟩ | ⟨tag', body', h, hn⟩)
        · exact ⟨tag', body', Or.inl h, hn⟩
        · exact ⟨tag', body', Or.inr h, hn⟩
      · rintro ⟨tag', body', h | h, hn⟩
        · exact Or.inl ⟨tag', body', h, hn⟩
        · exact Or.inr ⟨tag', body', h, hn⟩

theorem mem_kept_of_mem_deferrals {e : Expansion} {tag : Inclusion} {body : Expansion}
    (h : (tag, body) ∈ e.deferrals) : tag.key ∈ e.kept :=
  (e.mem_kept_iff tag.key).mpr ⟨tag, body, h, Or.inl rfl⟩

theorem exists_of_memo {e : Expansion} {n x : String} (h : e.memo n = some x) :
    ∃ tag body, (tag, body) ∈ e.deferrals ∧ tag.key = n ∧ body.emitted = x := by
  induction e with
  | nil => cases h
  | text content rest ih => exact ih h
  | output v value rest ih => exact ih h
  | inclusion tag d body rest ihb ihr =>
    cases d with
    | true =>
      simp only [memo, Option.or_eq_some_iff] at h
      rcases h with h | ⟨_, h⟩
      · obtain ⟨tag', body', hm, ht⟩ := ihr h
        exact ⟨tag', body', by simp [deferrals, hm], ht⟩
      · split at h
        · rename_i hn
          cases h
          exact ⟨tag, body, by simp [deferrals], hn.symm, rfl⟩
        · obtain ⟨tag', body', hm, ht⟩ := ihb h
          exact ⟨tag', body', by simp [deferrals, hm], ht⟩
    | false =>
      simp only [memo, Option.or_eq_some_iff] at h
      rcases h with h | ⟨_, h⟩
      · obtain ⟨tag', body', hm, ht⟩ := ihr h
        exact ⟨tag', body', by simp [deferrals, hm], ht⟩
      · obtain ⟨tag', body', hm, ht⟩ := ihb h
        exact ⟨tag', body', by simp [deferrals, hm], ht⟩

theorem isSome_memo {e : Expansion} {tag : Inclusion} {body : Expansion} (h : (tag, body) ∈ e.deferrals) :
    (e.memo tag.key).isSome = true := by
  induction e with
  | nil => cases h
  | text content rest ih => exact ih h
  | output v value rest ih => exact ih h
  | inclusion tag' d body' rest ihb ihr =>
    cases d with
    | true =>
      simp only [deferrals, List.cons_append, List.mem_cons, List.mem_append, Prod.mk.injEq] at h
      rcases h with ⟨rfl, rfl⟩ | h | h
      · simp [memo]
      · simp only [memo, Option.isSome_or, Bool.or_eq_true]
        right
        split
        · rfl
        · exact ihb h
      · simp [memo, ihr h]
    | false =>
      simp only [deferrals, List.mem_append] at h
      rcases h with h | h
      · simp [memo, ihb h]
      · simp [memo, ihr h]

/-- If all deferred inclusions of a name have the same text, then it does not matter which of them comes last. -/
theorem memo_of_mem_deferrals {e : Expansion} {tag : Inclusion} {body : Expansion} (hm : (tag, body) ∈ e.deferrals)
    (h : ∀ tag' body', (tag', body') ∈ e.deferrals → tag'.key = tag.key → body'.emitted = body.emitted) :
    e.memo tag.key = some body.emitted := by
  obtain ⟨x, hx⟩ := Option.isSome_iff_exists.mp (isSome_memo hm)
  obtain ⟨tag', body', hm', hkey, rfl⟩ := exists_of_memo hx
  rw [hx, h tag' body' hm' hkey]

/-! ## What is written to the artifacts -/

/-- The artifacts after the deferred inclusions were stored, with the sources from `src`. -/
def stored (src : String → String) : Expansion → Option Artifacts → Option Artifacts
  | nil, a => a
  | text _ rest, a => rest.stored src a
  | output _ _ rest, a => rest.stored src a
  | inclusion tag true body rest, a =>
    rest.stored src (some (((body.stored src a).getD {}).defer tag.key (src tag.key) body.emitted
      (body.inlined.toList.map fun n => (n, src n))))
  | inclusion _ false body rest, a => rest.stored src (body.stored src a)

theorem templates_foldl_insertTemplate (src : String → String) (names : List String) (a : Artifacts) (n : String) :
    ((names.map fun n => (n, src n)).foldl (fun a e => a.insertTemplate e.1 e.2) a).templates.get? n =
      if n ∈ names then some (src n) else a.templates.get? n := by
  induction names generalizing a with
  | nil => simp
  | cons name names ih =>
    rw [List.map_cons, List.foldl_cons, ih]
    simp only [Artifacts.insertTemplate, NameMap.get?_insert, List.mem_cons]
    by_cases hn : n = name
    · simp [hn]
    · simp [hn]

theorem results_foldl_insertTemplate (pairs : List (String × String)) (a : Artifacts) :
    (pairs.foldl (fun a e => a.insertTemplate e.1 e.2) a).renderedResults = a.renderedResults := by
  induction pairs generalizing a with
  | nil => rfl
  | cons p ps ih => rw [List.foldl_cons, ih, Artifacts.insertTemplate]

/-- A deferred inclusion writes its own source and those of the names inlined beneath it. -/
theorem templates_defer (src : String → String) (a : Artifacts) (name text : String) (inlined : List String)
    (n : String) : (a.defer name (src name) text (inlined.map fun n => (n, src n))).templates.get? n =
      if n = name ∨ n ∈ inlined then some (src n) else a.templates.get? n := by
  have hfold := templates_foldl_insertTemplate src inlined a n
  rw [Artifacts.defer, Artifacts.insertResult, Artifacts.insertTemplate, NameMap.get?_insert]
  by_cases hn : n = name
  · simp [hn]
  · simp [hn, hfold]

/-- A deferred inclusion writes its text under its own name. -/
theorem results_defer (a : Artifacts) (name source text : String) (inlined : List (String × String)) (n : String) :
    (a.defer name source text inlined).renderedResults.get? n =
      if n = name then some text else a.renderedResults.get? n := by
  rw [Artifacts.defer, Artifacts.insertResult, Artifacts.insertTemplate, NameMap.get?_insert,
    results_foldl_insertTemplate]

/-- The sources in the artifacts are those of the names that are kept, besides what was there before. -/
theorem templates_stored (src : String → String) (e : Expansion) (a : Option Artifacts) (n : String) :
    ((e.stored src a).getD {}).templates.get? n =
      if n ∈ e.kept then some (src n) else (a.getD {}).templates.get? n := by
  induction e generalizing a with
  | nil => simp [stored, kept]
  | text content rest ih => exact ih a
  | output v value rest ih => exact ih a
  | inclusion tag d body rest ihb ihr =>
    cases d with
    | true =>
      simp only [stored, kept, ihr, Option.getD_some, templates_defer, ihb, NameSet.mem_toList, List.cons_append,
        List.mem_cons, List.mem_append, mem_names_iff]
      by_cases hr : n ∈ rest.kept
      · simp [hr]
      · by_cases hb : n ∈ body.kept <;> simp [hr, hb]
    | false =>
      simp only [stored, kept, ihr, ihb, List.mem_append]
      by_cases hr : n ∈ rest.kept <;> simp [hr]

/-- The texts in the artifacts are those of the deferred inclusions, besides what was there before. -/
theorem results_stored (src : String → String) (e : Expansion) (a : Option Artifacts) (n : String) :
    ((e.stored src a).getD {}).renderedResults.get? n =
      (e.memo n).or ((a.getD {}).renderedResults.get? n) := by
  induction e generalizing a with
  | nil => simp [stored, memo]
  | text content rest ih => exact ih a
  | output v value rest ih => exact ih a
  | inclusion tag d body rest ihb ihr =>
    cases d with
    | true =>
      simp only [stored, memo, ihr, Option.getD_some, results_defer, ihb, Option.or_assoc]
      by_cases hn : n = tag.key <;> simp [hn]
    | false => simp only [stored, memo, ihr, ihb, Option.or_assoc]

end Expansion

end HybridTemplate
