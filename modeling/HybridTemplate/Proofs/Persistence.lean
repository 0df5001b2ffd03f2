import HybridTemplate.Persist.Options
import HybridTemplate.Persist.Precompiled
import HybridTemplate.Proofs.Spelling

/-!
# What is kept is read back

Artifacts, precompiled templates and options are read back from the text that they were written to, and from any other
text that presents the same record.

* `Record.Presents` — an object with the fields of a record in any order, without some that may be left out, and with
  fields of other names; `Record.Presents.slots?` is what reading it finds;
* `Artifacts.Presents`, `Precompiled.Presents`, `RenderOptions.Presents` — the documents that present a value;
* `Artifacts.Presents.ofDocument?` and its siblings — each of them gives the value;
* `persisted_forms_read_back` — the three kinds of text read back as the value that they were written for.
-/

namespace HybridTemplate

open Json (Document Glyph Numeral Number)

/-! ## Texts by name -/

namespace NameMap

variable {α : Type}

theorem get?_foldl_insert {es : List (String × α)} (h : Entries.Ascending es) (m : NameMap α) (k : String) :
    (es.foldl (fun m e => m.insert e.1 e.2) m).get? k = (Entries.lookup k es).or (m.get? k) := by
  induction es generalizing m with
  | nil => rfl
  | cons e es ih =>
    obtain ⟨n, a⟩ := e
    obtain ⟨hn, hes⟩ := List.pairwise_cons.mp h
    rw [List.foldl_cons, ih hes, get?_insert, Entries.lookup]
    by_cases hk : k = n
    · subst hk
      rw [Entries.lookup_eq_none_of_lt hn]
      simp
    · simp only [if_neg hk]

/-- A map is the map of its entries. -/
theorem ofList_entries (m : NameMap α) : ofList m.entries = m := by
  apply ext_get?
  intro k
  unfold ofList
  rw [get?_foldl_insert m.ascending, get?_empty, Option.or_none]
  rfl

end NameMap

namespace Record

theorem names?_document (fields : List (String × Document)) :
    names? (fields.map fun (name, d) => (Glyph.ofString name, d)) = some fields := by
  unfold names?
  induction fields with
  | nil => rfl
  | cons f fields ih => simp [ih]

@[simp] theorem text?_ofText (s : String) : text? (ofText s) = some s :=
  Glyph.string?_ofString s

/-- Texts by name are read back from the document that they are written as. -/
@[simp] theorem texts?_ofTexts (m : NameMap String) : texts? (ofTexts m) = some m := by
  have htexts : ∀ es : List (String × String),
      (es.map fun e => (e.1, ofText e.2)).mapM (fun f => (text? f.2).map (f.1, ·)) = some es := by
    intro es
    induction es with
    | nil => rfl
    | cons e es ih => simp [ih]
  simp only [texts?, ofTexts, document, names?_document, Option.bind_eq_bind, Option.bind_some, htexts,
    NameMap.ofList_entries, pure]

/-- A count of at most 64 bits is read back. -/
theorem count?_ofInt {n : Nat} (hn : n ≤ Number.maxWord) : count? (.number (Numeral.ofInt n)) = some n := by
  have hsign : ¬(n : Int) < 0 := by omega
  simp [count?, Numeral.ofInt, Numeral.isInteger, Numeral.natValue_toDigits, hsign, hn]

/-! ## Presented fields -/

/-- An object that presents the fields `known`: their order is free, those that are spare may be missing, and fields of
other names may be there, whatever they hold. -/
inductive Presents (known : List (String × Document)) (spare : String → Prop) : Document → Prop where
  | object {fields : List (List Glyph × Document)} {named : List (String × Document)}
      (kept others : List (String × Document)) (hnames : names? fields = some named)
      (horder : named.Perm (kept ++ others)) (hkept : kept.Sublist known)
      (hspare : ∀ f ∈ known, f ∉ kept → spare f.1) (hothers : ∀ f ∈ others, f.1 ∉ known.map (·.1)) :
      Presents known spare (.object fields)

/-- A slot holds a field, or is empty if the field is spare. -/
def Slot (spare : String → Prop) (f : String × Document) (slot : Option Document) : Prop :=
  slot = some f.2 ∨ slot = none ∧ spare f.1

variable {known : List (String × Document)} {spare : String → Prop} {f : String × Document} {slot : Option Document}

/-- The document that is written presents its fields. -/
theorem presents_document (known : List (String × Document)) (spare : String → Prop) :
    Presents known spare (document known) := by
  refine .object known [] (names?_document known) ?_ (List.Sublist.refl known) ?_ ?_
  · rw [List.append_nil]
  · intro f hf hnot
    exact absurd hf hnot
  · intro f hf
    cases hf

/-- A field is alone with its name. -/
theorem filter_name (hknown : (known.map (·.1)).Nodup) (hf : f ∈ known) : known.filter (·.1 == f.1) = [f] := by
  induction known with
  | nil => cases hf
  | cons g known ih =>
    obtain ⟨hg, hrest⟩ := List.nodup_cons.mp hknown
    have hother : ∀ e ∈ known, e.1 ≠ g.1 := by
      intro e he heq
      exact hg (List.mem_map.mpr ⟨e, he, heq⟩)
    rcases List.mem_cons.mp hf with rfl | hf
    · have hnone : known.filter (·.1 == f.1) = [] := by
        apply List.filter_eq_nil_iff.mpr
        intro e he
        simpa using hother e he
      simp [hnone]
    · have hne : g.1 ≠ f.1 := (hother f hf).symm
      rw [List.filter_cons_of_neg (by simpa using hne)]
      exact ih hrest hf

/-- Reading one field finds it, or finds nothing if it is spare. -/
theorem slot_field? {named kept others : List (String × Document)} (horder : named.Perm (kept ++ others))
    (hkept : kept.Sublist known) (hspare : ∀ f ∈ known, f ∉ kept → spare f.1)
    (hothers : ∀ f ∈ others, f.1 ∉ known.map (·.1)) (hknown : (known.map (·.1)).Nodup) (hf : f ∈ known) :
    ∃ slot, field? named f.1 = some slot ∧ Slot spare f slot := by
  have hnone : others.filter (·.1 == f.1) = [] := by
    apply List.filter_eq_nil_iff.mpr
    intro e he heq
    have heq : e.1 = f.1 := by simpa using heq
    exact hothers e he (heq ▸ List.mem_map_of_mem hf)
  have hperm : (named.filter (·.1 == f.1)).Perm (kept.filter (·.1 == f.1)) := by
    have h := horder.filter (·.1 == f.1)
    rwa [List.filter_append, hnone, List.append_nil] at h
  have hsub : (kept.filter (·.1 == f.1)).Sublist [f] := filter_name hknown hf ▸ hkept.filter _
  unfold field?
  rcases List.sublist_singleton.mp hsub with hempty | hone
  · rw [hempty] at hperm
    rw [hperm.eq_nil]
    refine ⟨none, rfl, .inr ⟨rfl, hspare f hf fun hmem => ?_⟩⟩
    have hmem : f ∈ kept.filter (·.1 == f.1) := List.mem_filter.mpr ⟨hmem, beq_self_eq_true _⟩
    rw [hempty] at hmem
    cases hmem
  · rw [hone] at hperm
    rw [List.perm_singleton.mp hperm]
    exact ⟨some f.2, rfl, .inl rfl⟩

/-- Reading a presented record finds its fields in order. -/
theorem Presents.slots? {d : Document} (h : Presents known spare d) (hknown : (known.map (·.1)).Nodup) :
    ∃ slots, slots? (known.map (·.1)) d = some slots ∧ List.Forall₂ (Slot spare) known slots := by
  cases h with
  | @object fields named kept others hnames horder hkept hspare hothers =>
    have hall : ∀ part : List (String × Document), (∀ f ∈ part, f ∈ known) →
        ∃ slots, (part.map (·.1)).mapM (field? named) = some slots ∧ List.Forall₂ (Slot spare) part slots := by
      intro part hpart
      induction part with
      | nil => exact ⟨[], rfl, .nil⟩
      | cons f part ih =>
        obtain ⟨slot, hslot, hholds⟩ :=
          slot_field? horder hkept hspare hothers hknown (hpart f List.mem_cons_self)
        obtain ⟨slots, hslots, hrest⟩ := ih fun g hg => hpart g (List.mem_cons_of_mem _ hg)
        exact ⟨slot :: slots, by simp [hslot, hslots], .cons hholds hrest⟩
    obtain ⟨slots, hslots, hholds⟩ := hall known fun f hf => hf
    refine ⟨slots, ?_, hholds⟩
    show (names? fields).bind (fun fields => (known.map (·.1)).mapM (field? fields)) = some slots
    rw [hnames]
    exact hslots

variable {α : Type} {read? : Document → Option α} {x : α}

theorem Slot.required (h : Slot spare f slot) (hread : read? f.2 = some x) (hspare : ¬spare f.1) :
    required read? slot = some x := by
  rcases h with rfl | ⟨rfl, h⟩
  · exact hread
  · exact absurd h hspare

/-- A field that is left out only if it has its default reads as what it was. -/
theorem Slot.optional {fallback : α} (h : Slot spare f slot) (hread : read? f.2 = some x)
    (hspare : spare f.1 → fallback = x) : optional read? fallback slot = some x := by
  rcases h with rfl | ⟨rfl, h⟩
  · exact hread
  · exact congrArg some (hspare h)

/-! ## Written records -/

theorem proper_document (h : ∀ f ∈ known, f.2.Proper) : (document known).Proper := by
  apply Document.proper_object
  intro f hf
  obtain ⟨g, hg, rfl⟩ := List.mem_map.mp hf
  exact h g hg

theorem proper_ofTexts (m : NameMap String) : (ofTexts m).Proper := by
  apply proper_document
  intro f hf
  obtain ⟨e, -, rfl⟩ := List.mem_map.mp hf
  exact Document.proper_string _

end Record

/-! ## Artifacts -/

namespace Artifacts

/-- The documents that present artifacts: without rendered texts their field may be missing. -/
def Presents (a : Artifacts) (d : Document) : Prop :=
  Record.Presents [("templates", Record.ofTexts a.templates), ("rendered_results", Record.ofTexts a.renderedResults)]
    (fun name => name = "rendered_results" ∧ a.renderedResults = ∅) d

theorem presents_document (a : Artifacts) : a.Presents a.document :=
  Record.presents_document _ _

theorem proper_document (a : Artifacts) : a.document.Proper := by
  apply Record.proper_document
  intro f hf
  simp only [List.mem_cons, List.not_mem_nil, or_false] at hf
  rcases hf with rfl | rfl
  · exact Record.proper_ofTexts _
  · exact Record.proper_ofTexts _

/-- Every document that presents artifacts holds them. -/
theorem Presents.ofDocument? {a : Artifacts} {d : Document} (h : a.Presents d) : ofDocument? d = some a := by
  obtain ⟨slots, hslots, hholds⟩ := Record.Presents.slots? h (by simp)
  cases hholds with | cons htemplates hholds =>
  cases hholds with | cons hresults hholds =>
  cases hholds
  have hnotSpare : ¬("templates" = "rendered_results" ∧ a.renderedResults = ∅) := fun h => absurd h.1 (by decide)
  have ht := htemplates.required (Record.texts?_ofTexts a.templates) hnotSpare
  have hr := hresults.optional (Record.texts?_ofTexts a.renderedResults) fun hspare => hspare.2.symm
  have hslots : Record.slots? fieldNames d = some [_, _] := hslots
  simp [Artifacts.ofDocument?, hslots, ht, hr]

end Artifacts

/-! ## Precompiled templates -/

namespace Precompiled

/-- The documents that present a precompiled template: its artifacts may be presented in any way, too. -/
def Presents (p : Precompiled) (d : Document) : Prop :=
  ∃ artifacts, p.artifacts.Presents artifacts ∧
    Record.Presents [("source", Record.ofText p.source), ("artifacts", artifacts)] (fun _ => False) d

theorem presents_document (p : Precompiled) : p.Presents p.document :=
  ⟨p.artifacts.document, p.artifacts.presents_document, Record.presents_document _ _⟩

theorem proper_document (p : Precompiled) : p.document.Proper := by
  apply Record.proper_document
  intro f hf
  simp only [List.mem_cons, List.not_mem_nil, or_false] at hf
  rcases hf with rfl | rfl
  · exact Document.proper_string _
  · exact p.artifacts.proper_document

/-- Every document that presents a precompiled template holds it. -/
theorem Presents.ofDocument? {p : Precompiled} {d : Document} (h : p.Presents d) : ofDocument? d = some p := by
  obtain ⟨inner, hinner, h⟩ := h
  obtain ⟨slots, hslots, hholds⟩ := h.slots? (by simp)
  cases hholds with | cons hsource hholds =>
  cases hholds with | cons hartifacts hholds =>
  cases hholds
  have hs := hsource.required (Record.text?_ofText p.source) id
  have ha := hartifacts.required hinner.ofDocument? id
  have hslots : Record.slots? fieldNames d = some [_, _] := hslots
  simp [Precompiled.ofDocument?, hslots, hs, ha]

end Precompiled

/-! ## Options -/

namespace RenderOptions

/-- Whether a field has its default. -/
def IsDefault (o : RenderOptions) (name : String) : Prop :=
  let defaults : RenderOptions := {}
  name = "caching" ∧ defaults.caching = o.caching ∨ name = "policy" ∧ defaults.policy = o.policy ∨
    name = "max_include_depth" ∧ defaults.maxIncludeDepth = o.maxIncludeDepth

/-- The documents that present options: fields with their defaults may be missing. -/
def Presents (o : RenderOptions) (d : Document) : Prop :=
  Record.Presents [("caching", .bool o.caching), ("policy", Record.ofText o.policy.name),
    ("max_include_depth", .number (Numeral.ofInt o.maxIncludeDepth))] o.IsDefault d

theorem presents_document (o : RenderOptions) : o.Presents o.document :=
  Record.presents_document _ _

theorem proper_document (o : RenderOptions) : o.document.Proper := by
  apply Record.proper_document
  intro f hf
  simp only [List.mem_cons, List.not_mem_nil, or_false] at hf
  rcases hf with rfl | rfl | rfl
  · exact Document.proper_bool _
  · exact Document.proper_string _
  · exact Document.proper_number _

/-- Every document that presents options holds them. -/
theorem Presents.ofDocument? {o : RenderOptions} {d : Document} (h : o.Presents d)
    (hdepth : o.maxIncludeDepth ≤ Number.maxWord) : ofDocument? d = some o := by
  obtain ⟨slots, hslots, hholds⟩ := Record.Presents.slots? h (by simp)
  cases hholds with | cons hcaching hholds =>
  cases hholds with | cons hpolicy hholds =>
  cases hholds with | cons hlimit hholds =>
  cases hholds
  have hbool : Record.bool? (.bool o.caching) = some o.caching := rfl
  have hname : TaintPolicy.ofDocument? (Record.ofText o.policy.name) = some o.policy := by
    simp [TaintPolicy.ofDocument?, Record.ofText, TaintPolicy.ofName?_name]
  let defaults : RenderOptions := {}
  have hc : Record.optional Record.bool? defaults.caching _ = _ :=
    hcaching.optional hbool fun hspare => by simpa [IsDefault, defaults] using hspare
  have hp : Record.optional TaintPolicy.ofDocument? defaults.policy _ = _ :=
    hpolicy.optional hname fun hspare => by simpa [IsDefault, defaults] using hspare
  have hl : Record.optional Record.count? defaults.maxIncludeDepth _ = _ :=
    hlimit.optional (Record.count?_ofInt hdepth) fun hspare => by simpa [IsDefault, defaults] using hspare
  simp only [defaults] at hc hp hl
  have hslots : Record.slots? fieldNames d = some [_, _, _] := hslots
  simp [RenderOptions.ofDocument?, hslots, hc, hp, hl]

end RenderOptions

/-! ## The three kinds of text -/

/-- Artifacts, precompiled templates and options are read back from the text that they are written to. They are read
back just as well from every text, with any spacing and any escapes, of an object that presents them: with its fields
and the fields of artifacts inside it in any order, with further fields of other names that hold any JSON, without an
empty map of rendered texts and without options that have their defaults. -/
theorem persisted_forms_read_back :
    (∀ a : Artifacts, Artifacts.read? a.write = some a ∧
      ∀ d text, a.Presents d → d.Spelling text.toList → Artifacts.read? text = some a) ∧
    (∀ p : Precompiled, Precompiled.read? p.write = some p ∧
      ∀ d text, p.Presents d → d.Spelling text.toList → Precompiled.read? text = some p) ∧
    ∀ o : RenderOptions, o.maxIncludeDepth ≤ Number.maxWord → RenderOptions.read? o.write = some o ∧
      ∀ d text, o.Presents d → d.Spelling text.toList → RenderOptions.read? text = some o := by
  have hartifacts : ∀ (a : Artifacts) d (text : String), a.Presents d → d.Spelling text.toList →
      Artifacts.read? text = some a := by
    intro a d text hpresents hspelling
    unfold Artifacts.read?
    rw [hspelling.read?]
    exact hpresents.ofDocument?
  have hprecompiled : ∀ (p : Precompiled) d (text : String), p.Presents d → d.Spelling text.toList →
      Precompiled.read? text = some p := by
    intro p d text hpresents hspelling
    unfold Precompiled.read?
    rw [hspelling.read?]
    exact hpresents.ofDocument?
  have hoptions : ∀ (o : RenderOptions), o.maxIncludeDepth ≤ Number.maxWord → ∀ d (text : String), o.Presents d →
      d.Spelling text.toList → RenderOptions.read? text = some o := by
    intro o hdepth d text hpresents hspelling
    unfold RenderOptions.read?
    rw [hspelling.read?]
    exact hpresents.ofDocument? hdepth
  refine ⟨fun a => ⟨?_, hartifacts a⟩, fun p => ⟨?_, hprecompiled p⟩, fun o hdepth => ⟨?_, hoptions o hdepth⟩⟩
  · exact hartifacts a _ _ a.presents_document (Document.spelling_write a.proper_document)
  · exact hprecompiled p _ _ p.presents_document (Document.spelling_write p.proper_document)
  · exact hoptions o hdepth _ _ o.presents_document (Document.spelling_write o.proper_document)

/-- An artifact without its empty map of rendered texts, with a field that is not known. -/
def notedArtifacts : Document :=
  Record.document [("note", .bool true), ("templates", Record.ofTexts (.ofList [("row", "Hi")]))]

/-- A precompiled template with its fields in the other order. -/
def turnedPrecompiled : Document :=
  Record.document [("artifacts", notedArtifacts), ("source", Record.ofText "\"row\"\n")]

/-- Options with nothing but their limit and a field that is not known. -/
def limitedOptions : Document :=
  Record.document [("note", Record.document [("deep", .bool true)]), ("max_include_depth", .number (Numeral.ofInt 7))]

/-- Three records with fields turned round, left out and added, and a blank in front. -/
theorem sparse_records_read_back :
    Artifacts.read? " \x7b\"note\":true,\"templates\":\x7b\"row\":\"Hi\"\x7d\x7d" =
      some { templates := .ofList [("row", "Hi")] } ∧
    Precompiled.read?
        (" \x7b\"artifacts\":\x7b\"note\":true,\"templates\":\x7b\"row\":\"Hi\"\x7d\x7d," ++
          "\"source\":\"\\\"row\\\"\\n\"\x7d") =
      some { source := "\"row\"\n", artifacts := { templates := .ofList [("row", "Hi")] } } ∧
    RenderOptions.read? " \x7b\"note\":\x7b\"deep\":true\x7d,\"max_include_depth\":7\x7d" =
      some { maxIncludeDepth := 7 } := by
  have hspaced : ∀ {d : Document} {text : String}, d.Proper → text.toList = ' ' :: d.write.toList →
      d.Spelling text.toList := by
    intro d text hproper htext
    rw [htext]
    exact .blank rfl (Document.spelling_write hproper)
  have hnote : (Document.bool true).Proper := Document.proper_bool true
  have hnoted : notedArtifacts.Proper := by
    refine Record.proper_document fun f hf => ?_
    simp only [List.mem_cons, List.not_mem_nil, or_false] at hf
    rcases hf with rfl | rfl
    · exact hnote
    · exact Record.proper_ofTexts _
  have hturned : turnedPrecompiled.Proper := by
    refine Record.proper_document fun f hf => ?_
    simp only [List.mem_cons, List.not_mem_nil, or_false] at hf
    rcases hf with rfl | rfl
    · exact hnoted
    · exact Document.proper_string _
  have hlimited : limitedOptions.Proper := by
    refine Record.proper_document fun f hf => ?_
    simp only [List.mem_cons, List.not_mem_nil, or_false] at hf
    rcases hf with rfl | rfl
    · refine Record.proper_document fun f hf => ?_
      obtain rfl := List.mem_singleton.mp hf
      exact hnote
    · exact Document.proper_number 7
  have hartifacts : Artifacts.Presents { templates := .ofList [("row", "Hi")] } notedArtifacts := by
    refine .object [("templates", _)] [("note", .bool true)] (Record.names?_document _) (List.Perm.swap _ _ _)
      ((List.nil_sublist _).cons_cons _) ?_ (by simp)
    intro f hf hnot
    simp only [List.mem_cons, List.not_mem_nil, or_false] at hf
    rcases hf with rfl | rfl
    · exact absurd List.mem_cons_self hnot
    · exact ⟨rfl, rfl⟩
  have hprecompiled : Precompiled.Presents
      { source := "\"row\"\n", artifacts := { templates := .ofList [("row", "Hi")] } } turnedPrecompiled := by
    refine ⟨notedArtifacts, hartifacts, .object [("source", _), ("artifacts", _)] [] (Record.names?_document _)
      (List.Perm.swap _ _ _) (List.Sublist.refl _) ?_ (by simp)⟩
    intro f hf hnot
    exact absurd hf hnot
  have hoptions : RenderOptions.Presents { maxIncludeDepth := 7 } limitedOptions := by
    refine .object [("max_include_depth", _)] [("note", _)] (Record.names?_document _) (List.Perm.swap _ _ _)
      (((List.nil_sublist _).cons_cons _).cons _ |>.cons _) ?_ (by simp)
    intro f hf hnot
    simp only [List.mem_cons, List.not_mem_nil, or_false] at hf
    rcases hf with rfl | rfl | rfl
    · exact .inl ⟨rfl, rfl⟩
    · exact .inr (.inl ⟨rfl, rfl⟩)
    · exact absurd List.mem_cons_self hnot
  refine ⟨?_, ?_, ?_⟩
  · exact (persisted_forms_read_back.1 _).2 _ _ hartifacts (hspaced hnoted (by decide))
  · exact (persisted_forms_read_back.2.1 _).2 _ _ hprecompiled (hspaced hturned (by decide))
  · exact (persisted_forms_read_back.2.2 { maxIncludeDepth := 7 } (by decide)).2 _ _ hoptions
      (hspaced hlimited (by decide))

end HybridTemplate
