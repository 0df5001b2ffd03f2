import Mathlib.Logic.Relation
import HybridTemplate.Artifacts.Basic
import HybridTemplate.Stack.Basic
import HybridTemplate.Template.Basic

/-!
# Catalogs

What a stable source answers does not depend on when it is asked, so it is a function of the name: a `Catalog`. All that
can be said about templates without rendering them is said about a catalog.

* `Source.Serves`, `Source.stable_iff_serves` — the stable sources are those that serve some catalog;
* `Artifacts.catalog` — what the artifacts of a precompilation answer;
* `Catalog.Holds`, `Catalog.Includes`, `Catalog.Reaches` — the template of a name, and the inclusions beneath it;
* `Catalog.Tainted` — whether a policy defers the inclusions of a name, given which outputs are dynamic;
  `Catalog.tainted_propagating_iff` goes one inclusion down.
-/

namespace HybridTemplate

/-- The answer to every name. -/
abbrev Catalog := String → Except SourceError String

/-! ## Stable sources -/

namespace Source

/-- All reads are answered from the catalog. -/
def Serves (s : Source) (C : Catalog) : Prop :=
  ∀ earlier name, s.answer earlier name = C name

theorem stable_iff_serves (s : Source) : s.Stable ↔ ∃ C : Catalog, s.Serves C := by
  constructor
  · intro h
    exact ⟨s.answer [], fun earlier name => h earlier [] name⟩
  · rintro ⟨C, h⟩ earlier earlier' name
    rw [h, h]

theorem Serves.congr {s s' : Source} {C : Catalog} (h : s.Serves C) (hs : s'.answer = s.answer) : s'.Serves C := by
  intro earlier name
  rw [hs, h]

theorem serves_ofLookup (get? : String → Option String) :
    (ofLookup get?).Serves fun name => match get? name with
      | some text => .ok text
      | none => .error (.notFound name) :=
  fun _ _ => rfl

end Source

/-! ## Artifacts -/

/-- The answers of the artifacts. -/
def Artifacts.catalog (a : Artifacts) : Catalog := fun n =>
  match a.get? n with
  | some text => .ok text
  | none => .error (.notFound n)

theorem Artifacts.serves_toSource (a : Artifacts) : a.toSource.Serves a.catalog :=
  Source.serves_ofLookup a.get?

theorem Artifacts.catalog_of_result {a : Artifacts} {n text : String} (h : a.renderedResults.get? n = some text) :
    a.catalog n = .ok text := by
  rw [catalog, get?, h]
  rfl

/-! ## Templates of a catalog -/

namespace Catalog

open Relation (ReflTransGen)

variable (C : Catalog)

/-- The template that the catalog has under a name. -/
def Holds (n : String) (t : Template) : Prop :=
  ∃ source, C n = .ok source ∧ Template.parse source = .ok t

/-- The template of `m` includes `n`. -/
def Includes (m n : String) : Prop :=
  ∃ t, C.Holds m t ∧ ∃ tag, .inclusion tag ∈ t.nodes ∧ tag.key = n

/-- The template of `m` includes `n` directly or through others, or is the one of `n`. -/
def Reaches : String → String → Prop :=
  ReflTransGen C.Includes

/-- The template of `n` has an output of its own that is dynamic. -/
def Reads (dynamic : Variable → Prop) (n : String) : Prop :=
  ∃ t, C.Holds n t ∧ ∃ v, .output v ∈ t.nodes ∧ dynamic v

/-- The policy defers the inclusions of `n`: under `localOnly` on account of its own outputs, under `propagating` on
account of all that are rendered for it. -/
def Tainted (dynamic : Variable → Prop) : TaintPolicy → String → Prop
  | .localOnly, n => C.Reads dynamic n
  | .propagating, n => ∃ m, C.Reaches n m ∧ C.Reads dynamic m

variable {C}

theorem Holds.unique {n : String} {t t' : Template} (h : C.Holds n t) (h' : C.Holds n t') : t = t' := by
  obtain ⟨source, hs, ht⟩ := h
  obtain ⟨source', hs', ht'⟩ := h'
  cases hs.symm.trans hs'
  cases ht.symm.trans ht'
  rfl

/-- What a name reaches, one inclusion at a time. -/
theorem reaches_iff {m n : String} : C.Reaches m n ↔ m = n ∨ ∃ k, C.Includes m k ∧ C.Reaches k n :=
  ReflTransGen.cases_head_iff

theorem reads_iff {dynamic : Variable → Prop} {n : String} {t : Template} (h : C.Holds n t) :
    C.Reads dynamic n ↔ ∃ v, .output v ∈ t.nodes ∧ dynamic v := by
  constructor
  · rintro ⟨t', h', hv⟩
    rwa [h.unique h']
  · intro hv
    exact ⟨t, h, hv⟩

theorem includes_iff {m n : String} {t : Template} (h : C.Holds m t) :
    C.Includes m n ↔ ∃ tag, .inclusion tag ∈ t.nodes ∧ tag.key = n := by
  constructor
  · rintro ⟨t', h', ht⟩
    rwa [h.unique h']
  · intro ht
    exact ⟨t, h, ht⟩

/-- What a name reaches is itself and what its template reaches. -/
theorem reaches_iff_of_holds {m n : String} {t : Template} (h : C.Holds m t) :
    C.Reaches m n ↔ n = m ∨ ∃ tag, .inclusion tag ∈ t.nodes ∧ C.Reaches tag.key n := by
  rw [reaches_iff, eq_comm]
  refine or_congr_right ⟨?_, ?_⟩
  · rintro ⟨k, hk, hn⟩
    obtain ⟨tag, ht, rfl⟩ := (includes_iff h).mp hk
    exact ⟨tag, ht, hn⟩
  · rintro ⟨tag, ht, hn⟩
    exact ⟨tag.key, (includes_iff h).mpr ⟨tag, ht, rfl⟩, hn⟩

/-- Under the propagating policy an inclusion is deferred on account of its own outputs or of an inclusion in it. -/
theorem tainted_propagating_iff {dynamic : Variable → Prop} {n : String} :
    C.Tainted dynamic .propagating n ↔
      C.Reads dynamic n ∨ ∃ k, C.Includes n k ∧ C.Tainted dynamic .propagating k := by
  constructor
  · rintro ⟨m, hm, hr⟩
    obtain rfl | ⟨k, hk, hkm⟩ := reaches_iff.mp hm
    · exact Or.inl hr
    · exact Or.inr ⟨k, hk, m, hkm, hr⟩
  · rintro (hr | ⟨k, hk, m, hkm, hr⟩)
    · exact ⟨n, ReflTransGen.refl, hr⟩
    · exact ⟨m, ReflTransGen.head hk hkm, hr⟩

end Catalog

/-- The names of the inclusions that are rendered for a template. -/
def Template.Reaches (t : Template) (C : Catalog) (n : String) : Prop :=
  ∃ tag, .inclusion tag ∈ t.nodes ∧ C.Reaches tag.key n

end HybridTemplate
