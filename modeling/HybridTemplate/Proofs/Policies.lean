import HybridTemplate.Proofs.Hybrid
import HybridTemplate.Proofs.Idempotence

/-!
# What the policy changes

Under both policies an access to dynamic data marks the innermost inclusion; only under the propagating one do those
around it share the mark. So a precompilation under the local policy defers fewer inclusions, and what the propagating
one freezes has no deferred inclusion in it under either.

* `Expansion.sites` — the inclusions that a render met, those inside of others included, each with its text;
* `Expansion.DefersLess` — an expansion with the same inclusions as another one, of which fewer are deferred;
  what it keeps, defers and freezes follows by induction (`DefersLess.mem_kept`, `DefersLess.isSome_memo`,
  `DefersLess.sites`);
* `Expands.defersLess` — the expansions under the two policies. A template that leaves no mark under the propagating
  policy expands to one and the same under both: this carries the induction;
* `precompile_policies` — the precompilations under the two policies.
-/

namespace HybridTemplate

open Registers (Handle)

/-! ## Inclusions met -/

/-- An inclusion that a render met. -/
structure Site where
  tag : Inclusion
  /-- Whether the tag stayed in the output. -/
  deferred : Bool
  /-- The text that the included template gave. -/
  text : String
deriving DecidableEq

/-- The same inclusion: if it is frozen in the second render, it is frozen to the identical text in the first. -/
def Site.Refreezes (s s' : Site) : Prop :=
  s.tag = s'.tag ∧ (s'.deferred = false → s.deferred = false ∧ s.text = s'.text)

namespace Expansion

/-- The inclusions met, each one ahead of those inside of it. -/
def sites : Expansion → List Site
  | nil => []
  | text _ rest => rest.sites
  | output _ _ rest => rest.sites
  | inclusion tag deferred body rest => ⟨tag, deferred, body.emitted⟩ :: body.sites ++ rest.sites

theorem mem_deferrals_inclusion {tag tag' : Inclusion} {d : Bool} {body inner rest : Expansion} :
    (tag, body) ∈ (inclusion tag' d inner rest).deferrals ↔
      (d = true ∧ tag = tag' ∧ body = inner) ∨ (tag, body) ∈ inner.deferrals ∨ (tag, body) ∈ rest.deferrals := by
  cases d <;> simp [deferrals]

/-! ## Fewer deferred inclusions -/

/-- The same outputs and inclusions; of the inclusions, those that are deferred on the left are deferred on the right,
and those that are frozen on the right expanded to the same on the left. -/
inductive DefersLess : Expansion → Expansion → Prop
  | nil : DefersLess nil nil
  | text {content : String} {e f : Expansion} (h : DefersLess e f) : DefersLess (text content e) (text content f)
  | output {v : Variable} {value : String} {e f : Expansion} (h : DefersLess e f) :
      DefersLess (output v value e) (output v value f)
  | inclusion {tag : Inclusion} {d d' : Bool} {body body' e f : Expansion} (hd : d = true → d' = true)
      (hb : DefersLess body body') (hfrozen : d' = false → body = body') (h : DefersLess e f) :
      DefersLess (inclusion tag d body e) (inclusion tag d' body' f)

namespace DefersLess

variable {e f : Expansion}

theorem names_eq (h : DefersLess e f) : e.names = f.names := by
  induction h with
  | nil => rfl
  | text _ ih => exact ih
  | output _ ih => exact ih
  | inclusion _ _ _ _ ihb ih => rw [names, names, ihb, ih]

/-- Fewer names are kept. -/
theorem mem_kept (h : DefersLess e f) {n : String} (hn : n ∈ e.kept) : n ∈ f.kept := by
  induction h with
  | nil => exact hn
  | text _ ih => exact ih hn
  | output _ ih => exact ih hn
  | @inclusion tag d d' body body' e f hd hb _ _ ihb ih =>
    cases d with
    | true =>
      obtain rfl := hd rfl
      simp only [kept, List.cons_append, List.mem_cons, List.mem_append, ← hb.names_eq] at hn ⊢
      exact hn.imp_right fun hn => hn.imp_right ih
    | false =>
      have hn : n ∈ body'.kept ∨ n ∈ f.kept := (List.mem_append.mp hn).imp ihb ih
      cases d' with
      | true => exact List.mem_append.mpr (hn.imp_left fun hb => List.mem_cons_of_mem _ (body'.kept_subset_names hb))
      | false => exact List.mem_append.mpr hn

/-- Each deferred inclusion is deferred on the other side as well, if with another body. -/
theorem exists_mem_deferrals (h : DefersLess e f) {tag : Inclusion} {body : Expansion}
    (hm : (tag, body) ∈ e.deferrals) : ∃ body', (tag, body') ∈ f.deferrals := by
  induction h with
  | nil => cases hm
  | text _ ih => exact ih hm
  | output _ ih => exact ih hm
  | @inclusion _ d d' _ inner' _ _ hd _ _ _ ihb ih =>
    simp only [mem_deferrals_inclusion] at hm ⊢
    rcases hm with ⟨rfl, rfl, -⟩ | hm | hm
    · exact ⟨inner', Or.inl ⟨hd rfl, rfl, rfl⟩⟩
    · obtain ⟨body', hm⟩ := ihb hm
      exact ⟨body', Or.inr (Or.inl hm)⟩
    · obtain ⟨body', hm⟩ := ih hm
      exact ⟨body', Or.inr (Or.inr hm)⟩

/-- There are fewer names with a text in the artifacts. -/
theorem isSome_memo (h : DefersLess e f) {n : String} (hn : (e.memo n).isSome = true) : (f.memo n).isSome = true := by
  obtain ⟨text, htext⟩ := Option.isSome_iff_exists.mp hn
  obtain ⟨tag, body, hm, rfl, -⟩ := exists_of_memo htext
  obtain ⟨body', hm'⟩ := h.exists_mem_deferrals hm
  exact Expansion.isSome_memo hm'

/-- One by one, the inclusions that are frozen on the right are frozen to the identical text on the left. -/
theorem sites (h : DefersLess e f) : List.Forall₂ Site.Refreezes e.sites f.sites := by
  induction h with
  | nil => exact .nil
  | text _ ih => exact ih
  | output _ ih => exact ih
  | inclusion hd _ hfrozen _ ihb ih =>
    refine .cons ⟨rfl, fun hd' => ⟨?_, by rw [hfrozen hd']⟩⟩ (List.rel_append ihb ih)
    exact Bool.eq_false_iff.mpr fun h => Bool.false_ne_true (hd'.symm.trans (hd h))

end DefersLess

end Expansion

/-! ## Expansions under the two policies -/

/-- Under the local policy fewer inclusions are deferred. Whatever leaves a mark there leaves one under the propagating
policy, and what leaves none under that expands to the same under both. -/
theorem Expands.defersLess {C : Catalog} {R : Variable → String → Bool → Prop}
    (hR : ∀ v x y b c, R v x b → R v y c → x = y ∧ b = c) {nodes : List Node} {e f : Expansion} {m n : Bool}
    (h : Expands C R .localOnly nodes e m) (h' : Expands C R .propagating nodes f n) :
    e.DefersLess f ∧ (m = true → n = true) ∧ (n = false → e = f) := by
  induction h generalizing f n with
  | nil =>
    cases h'
    exact ⟨.nil, id, fun _ => rfl⟩
  | text _ ih =>
    cases h' with
    | text h' =>
      obtain ⟨hless, hmark, heq⟩ := ih h'
      exact ⟨.text hless, hmark, fun hn => by rw [heq hn]⟩
  | @output v value b nodes e m hv _ ih =>
    cases h' with
    | output hv' h' =>
      obtain ⟨rfl, rfl⟩ := hR _ _ _ _ _ hv hv'
      obtain ⟨hless, hmark, heq⟩ := ih h'
      simp only [Bool.or_eq_true, Bool.or_eq_false_iff]
      exact ⟨.output hless, Or.imp_right hmark, fun hn => by rw [heq hn.2]⟩
  | @inclusion tag t d body nodes e m ht _ _ ihb ih =>
    cases h' with
    | inclusion ht' hb' h' =>
      obtain rfl := ht.unique ht'
      obtain ⟨hbless, hbmark, hbeq⟩ := ihb hb'
      obtain ⟨hless, hmark, heq⟩ := ih h'
      simp only [TaintPolicy.spreads, Bool.and_false, Bool.false_or, Bool.and_true, Bool.or_eq_true,
        Bool.or_eq_false_iff]
      refine ⟨.inclusion hbmark hbless hbeq hless, fun hm => Or.inr (hmark hm), ?_⟩
      rintro ⟨rfl, hn⟩
      obtain rfl : d = false := Bool.eq_false_iff.mpr fun hd => Bool.false_ne_true (hbmark hd)
      rw [hbeq rfl, heq hn]

/-! ## Precompilations under the two policies -/

/-- The state with another policy in the registers of a render. -/
def World.underPolicy {σ : Type} (w : World σ) (h : Handle) (policy : TaintPolicy) : World σ :=
  { w with toShared := w.toShared.modifyRegisters h (·.mapStack ({ · with policy })) }

namespace Environment

variable {ω σ : Type} [DataModel ω σ] {ctx : Context ω} {w : World σ}

omit [DataModel ω σ] in
theorem policy_underPolicy (w : World σ) (h : Handle) (policy : TaintPolicy) :
    ((w.underPolicy h policy).registers.get h).policy = policy := by
  rw [World.underPolicy, Shared.get_modifyRegisters_self]
  rfl

/-- From any two states that differ neither in the depth nor in what the source answers, precompilations in a pure
context fail alike. -/
theorem precompile_alike {C : Catalog} (hp : ctx.Pure) (t : Template) {w w' : World σ}
    (hdepth : w.includeDepth = w'.includeDepth) (hs : w.source.Serves C) (hs' : w'.source.Serves C) :
    EndsAlike (fun _ _ => True) ((cached.precompile ctx t).run w).1 ((cached.precompile ctx t).run w').1 := by
  have hstart : (precompileStart ctx w).includeDepth = (precompileStart ctx w').includeDepth := hdepth
  have halike : EndsAlike (fun _ _ => True) ((cached.renderNodes ctx t).run (precompileStart ctx w)).1
      ((cached.renderNodes ctx t).run (precompileStart ctx w')).1 :=
    (renderNodes_alike (q := fun _ _ => True) ⟨fun _ => trivial, id, fun _ => id⟩ hp.related_evaluate
      (hp.confined bound_gathers) t trivial hstart hs hs').1
  rcases hr : (cached.renderNodes ctx t).run (precompileStart ctx w) with ⟨r, w₁⟩
  rcases hr' : (cached.renderNodes ctx t).run (precompileStart ctx w') with ⟨r', w₁'⟩
  rw [hr, hr'] at halike
  cases halike with
  | error f =>
    rw [precompile_run_of_error hr, precompile_run_of_error hr']
    exact .error f
  | ok _ =>
    obtain ⟨event, hrun⟩ := precompile_run_of_ok hr
    obtain ⟨event', hrun'⟩ := precompile_run_of_ok hr'
    rw [hrun, hrun']
    exact .ok trivial

/-- Under the two policies a precompilation in a pure context fails with the same error, or succeeds under both. Then
each inclusion that is frozen under the propagating policy is frozen to the identical text under the local one. The
sources that the local one keeps are kept under the propagating one, with the same texts, and so are the names of the
rendered results. -/
theorem precompile_policies (hp : ctx.Pure) (hs : w.source.Stable) (t : Template) :
    let localOnly := w.underPolicy ctx.registers .localOnly
    let propagating := w.underPolicy ctx.registers .propagating
    EndsAlike (fun p p' =>
        (∃ e e', ((outline ctx t).run localOnly).1 = .ok e ∧ p.source = e.emitted ∧
          ((outline ctx t).run propagating).1 = .ok e' ∧ p'.source = e'.emitted ∧
          List.Forall₂ Site.Refreezes e.sites e'.sites) ∧
        (∀ n text, p.artifacts.templates.get? n = some text → p'.artifacts.templates.get? n = some text) ∧
        ∀ n ∈ p.artifacts.renderedResults.names, n ∈ p'.artifacts.renderedResults.names)
      ((cached.precompile ctx t).run localOnly).1 ((cached.precompile ctx t).run propagating).1 := by
  intro localOnly propagating
  obtain ⟨C, hC⟩ := w.source.stable_iff_serves.mp hs
  have halike : EndsAlike (fun _ _ => True) ((cached.precompile ctx t).run localOnly).1
      ((cached.precompile ctx t).run propagating).1 := precompile_alike hp t rfl hC hC
  rcases hr : ((cached.precompile ctx t).run localOnly).1 with f | p
  all_goals rcases hr' : ((cached.precompile ctx t).run propagating).1 with f' | p'
  all_goals rw [hr, hr'] at halike
  · cases halike
    exact .error f
  · cases halike
  · cases halike
  · obtain ⟨e, m, ho, he, -, hsource, hartifacts⟩ := exists_outline_expands hp.outcomes (w := localOnly) hC hr
    obtain ⟨e', m', ho', he', -, hsource', hartifacts'⟩ :=
      exists_outline_expands hp.outcomes (w := propagating) hC hr'
    rw [policy_underPolicy] at he he'
    have hunique : ∀ v x y b c, ctx.Settled v x b → ctx.Settled v y c → x = y ∧ b = c :=
      fun _ _ _ _ _ => Context.Settled.unique w.toShared
    obtain ⟨hless, -, -⟩ := he.defersLess hunique he'
    refine .ok ⟨⟨e, e', ho, hsource, ho', hsource', hless.sites⟩, fun n text => ?_, fun n => ?_⟩
    · rw [hartifacts, hartifacts', he.templates_eq_some_iff, he'.templates_eq_some_iff]
      exact And.imp_left hless.mem_kept
    · have hnone : ((none : Option Artifacts).getD {}).renderedResults.get? n = none := rfl
      rw [NameMap.mem_names_iff, NameMap.mem_names_iff, hartifacts, hartifacts', Expansion.results_stored,
        Expansion.results_stored, hnone, Option.or_none, Option.or_none]
      exact hless.isSome_memo

end Environment

namespace Sample

/-- A list of a row. -/
def nestedTexts : String → Option String
  | "list" => some "<\x7b% include 'row' %\x7d>"
  | "row" => some "Hi \x7b\x7b user.name \x7d\x7d\x7b% include 'foot' %\x7d"
  | "foot" => some "!"
  | _ => none

/-- The site with the list. -/
def nested : World Heap :=
  { world with source := .ofLookup nestedTexts }

/-- The list as a page. -/
def listPage : Template :=
  ⟨[.inclusion ⟨" ", '\'', "list"⟩]⟩

/-- What a precompilation makes of the list under the local policy: it is frozen around the row. -/
def localList : Precompiled :=
  { source := "<\x7b% include 'row' %\x7d>"
    artifacts := {
      templates := .ofList [("foot", "!"), ("row", "Hi \x7b\x7b user.name \x7d\x7d\x7b% include 'foot' %\x7d")]
      renderedResults := .ofList [("row", "Hi Ann!")] } }

/-- What it makes of the list under the propagating policy. -/
def spreadList : Precompiled :=
  { source := "\x7b% include 'list' %\x7d"
    artifacts := {
      templates := .ofList [("foot", "!"), ("list", "<\x7b% include 'row' %\x7d>"),
        ("row", "Hi \x7b\x7b user.name \x7d\x7d\x7b% include 'foot' %\x7d")]
      renderedResults := .ofList [("list", "<\x7b% include 'row' %\x7d>"), ("row", "Hi Ann!")] } }

/-- The list of the row under both policies. The row is deferred under both, and the foot in it is frozen. The list
itself is frozen under the local policy only. -/
theorem precompile_list_policies :
    let localOnly := nested.underPolicy ⟨0⟩ .localOnly
    let propagating := nested.underPolicy ⟨0⟩ .propagating
    ((Environment.cached.precompile (context "Ann") listPage).run localOnly).1 = .ok localList ∧
      ((Environment.cached.precompile (context "Ann") listPage).run propagating).1 = .ok spreadList ∧
      ∀ n ∈ localList.artifacts.renderedResults.names, n ∈ spreadList.artifacts.renderedResults.names := by
  intro localOnly propagating
  have hlocal : ((Environment.cached.precompile (context "Ann") listPage).run localOnly).1 = .ok localList := by cbv
  have hspread : ((Environment.cached.precompile (context "Ann") listPage).run propagating).1 = .ok spreadList := by
    cbv
  obtain ⟨-, -, hnames⟩ := (Environment.precompile_policies (w := nested) (pure_context "Ann").1
    (Source.stable_ofLookup nestedTexts) listPage).of_ok hlocal hspread
  exact ⟨hlocal, hspread, hnames⟩

end Sample

end HybridTemplate
