import Mathlib
import HybridTemplate.Proofs.Steady
import HybridTemplate.Proofs.Tracking

/-!
# The hybrid of a template

What a precompilation must answer can be said without a render. `Hybrid` relates nodes to those that are left of them
when outputs turn into texts and inclusions of untainted templates into what is left of these; no state appears in it,
and it leaves one result (`Hybrid.unique`).

* `Expands.mem_names_iff`, `Expands.marks_iff` — the inclusions met are those the catalog reaches, and the marks are
  those its taint predicts;
* `Expands.hybrid`, `Expands.exists_deferral` — so an expansion leaves the hybrid, and defers just the tainted
  inclusions;
* `precompile_meets_hybrid` — a precompilation in a pure context answers the source of the hybrid; its artifacts have
  the hybrids of the tainted templates, and the sources of all templates at or beneath a tainted inclusion.
-/

namespace HybridTemplate

open Registers (Handle)

/-- What is left of nodes: outputs turn into their texts, inclusions of untainted templates into what is left of these,
and the tags of tainted ones stay. -/
inductive Hybrid (C : Catalog) (shows : Variable → String → Prop) (tainted : String → Prop) :
    List Node → List Node → Prop
  | nil : Hybrid C shows tainted [] []
  | text {content : String} {nodes left : List Node} (h : Hybrid C shows tainted nodes left) :
      Hybrid C shows tainted (.text content :: nodes) (.text content :: left)
  | output {v : Variable} {value : String} {nodes left : List Node} (hv : shows v value)
      (h : Hybrid C shows tainted nodes left) :
      Hybrid C shows tainted (.output v :: nodes) (.text value :: left)
  | deferred {tag : Inclusion} {nodes left : List Node} (ht : tainted tag.key)
      (h : Hybrid C shows tainted nodes left) :
      Hybrid C shows tainted (.inclusion tag :: nodes) (.inclusion tag :: left)
  | frozen {tag : Inclusion} {t : Template} {body nodes left : List Node} (ht : ¬tainted tag.key)
      (hC : C.Holds tag.key t) (hb : Hybrid C shows tainted t.nodes body) (h : Hybrid C shows tainted nodes left) :
      Hybrid C shows tainted (.inclusion tag :: nodes) (body ++ left)

/-- If outputs show one text only, there is one hybrid. -/
theorem Hybrid.unique {C : Catalog} {shows : Variable → String → Prop} {tainted : String → Prop}
    (hshows : ∀ v x y, shows v x → shows v y → x = y) {nodes left left' : List Node}
    (h : Hybrid C shows tainted nodes left) (h' : Hybrid C shows tainted nodes left') : left = left' := by
  induction h generalizing left' with
  | nil => cases h'; rfl
  | text _ ih =>
    cases h' with
    | text h' => rw [ih h']
  | output hv _ ih =>
    cases h' with
    | output hv' h' => rw [hshows _ _ _ hv hv', ih h']
  | deferred ht _ ih =>
    cases h' with
    | deferred _ h' => rw [ih h']
    | frozen ht' => exact absurd ht ht'
  | frozen ht hC _ _ ihb ih =>
    cases h' with
    | deferred ht' => exact absurd ht' ht
    | frozen _ hC' hb' h' =>
      obtain rfl := hC.unique hC'
      rw [ihb hb', ih h']

/-! ## What the catalog says about an expansion -/

/-- Taint, one template at a time. -/
theorem Catalog.tainted_iff {C : Catalog} {dynamic : Variable → Prop} {π : TaintPolicy} {n : String} {t : Template}
    (ht : C.Holds n t) :
    C.Tainted dynamic π n ↔ (∃ v, .output v ∈ t.nodes ∧ dynamic v) ∨
      π.spreads = true ∧ ∃ tag, .inclusion tag ∈ t.nodes ∧ C.Tainted dynamic π tag.key := by
  cases π with
  | localOnly =>
    have hreads : C.Reads dynamic n ↔ _ := reads_iff ht
    simpa [Tainted, TaintPolicy.spreads] using hreads
  | propagating =>
    rw [tainted_propagating_iff, reads_iff ht]
    simp only [TaintPolicy.spreads, true_and]
    refine or_congr_right ⟨?_, ?_⟩
    · rintro ⟨k, hk, hn⟩
      obtain ⟨tag, hm, rfl⟩ := (includes_iff ht).mp hk
      exact ⟨tag, hm, hn⟩
    · rintro ⟨tag, hm, hn⟩
      exact ⟨tag.key, (includes_iff ht).mpr ⟨tag, hm, rfl⟩, hn⟩

namespace Expands

variable {C : Catalog} {R : Variable → String → Bool → Prop} {π : TaintPolicy} {nodes : List Node} {e : Expansion}
  {m : Bool}

/-- The inclusions met are those that the catalog reaches. -/
theorem mem_names_iff (h : Expands C R π nodes e m) (n : String) : n ∈ e.names ↔ Template.Reaches ⟨nodes⟩ C n := by
  induction h with
  | nil => simp [Expansion.names, Template.Reaches]
  | text _ ih => simpa [Expansion.names, Template.Reaches] using ih
  | output _ _ ih => simpa [Expansion.names, Template.Reaches] using ih
  | @inclusion tag t d body nodes e m ht _ _ ihb ih =>
    have hreach : C.Reaches tag.key n ↔ n = tag.key ∨ n ∈ body.names := by
      rw [Catalog.reaches_iff_of_holds ht, ihb]
      rfl
    rw [Expansion.names, List.cons_append, List.mem_cons, List.mem_append, ih, ← or_assoc, ← hreach]
    simp [Template.Reaches]

theorem reaches_iff {n : String} {t : Template} (h : Expands C R π t.nodes e m) (ht : C.Holds n t) {k : String} :
    C.Reaches n k ↔ k = n ∨ k ∈ e.names := by
  rw [Catalog.reaches_iff_of_holds ht, h.mem_names_iff]
  rfl

/-- Every inclusion met has a template. -/
theorem holds_of_mem_names (h : Expands C R π nodes e m) {n : String} (hn : n ∈ e.names) : ∃ t, C.Holds n t := by
  induction h with
  | nil => cases hn
  | text _ ih => exact ih hn
  | output _ _ ih => exact ih hn
  | inclusion ht _ _ ihb ih =>
    simp only [Expansion.names, List.cons_append, List.mem_cons, List.mem_append] at hn
    rcases hn with rfl | hn | hn
    · exact ⟨_, ht⟩
    · exact ihb hn
    · exact ih hn

/-- An expansion marks the frame around it for the outputs that are dynamic, and for inclusions whose mark spreads. -/
theorem marks_iff {dynamic : Variable → Prop} (hdynamic : ∀ v x b, R v x b → (b = true ↔ dynamic v))
    (h : Expands C R π nodes e m) :
    m = true ↔ (∃ v, .output v ∈ nodes ∧ dynamic v) ∨
      π.spreads = true ∧ ∃ tag, .inclusion tag ∈ nodes ∧ C.Tainted dynamic π tag.key := by
  induction h with
  | nil => simp
  | text _ ih => simpa using ih
  | @output v value b nodes e m hv _ ih =>
    rw [Bool.or_eq_true, hdynamic v value b hv, ih]
    simp [or_assoc]
  | @inclusion tag t d body nodes e m ht _ _ ihb ih =>
    have hd : d = true ↔ C.Tainted dynamic π tag.key := ihb.trans (Catalog.tainted_iff ht).symm
    rw [Bool.or_eq_true, Bool.and_eq_true, hd, ih]
    simp only [List.mem_cons, reduceCtorEq, false_or, Node.inclusion.injEq, or_and_right, and_or_left, exists_or,
      exists_eq_left]
    grind

theorem deferred_iff {dynamic : Variable → Prop} (hdynamic : ∀ v x b, R v x b → (b = true ↔ dynamic v)) {n : String}
    {t : Template} (ht : C.Holds n t) (h : Expands C R π t.nodes e m) : m = true ↔ C.Tainted dynamic π n :=
  (h.marks_iff hdynamic).trans (Catalog.tainted_iff ht).symm

/-- An expansion leaves the hybrid. -/
theorem hybrid {dynamic : Variable → Prop} {shows : Variable → String → Prop}
    (hdynamic : ∀ v x b, R v x b → (b = true ↔ dynamic v)) (hshows : ∀ v x b, R v x b → shows v x)
    (h : Expands C R π nodes e m) : Hybrid C shows (C.Tainted dynamic π) nodes e.hybrid := by
  induction h with
  | nil => exact .nil
  | text _ ih => exact .text ih
  | output hv _ ih => exact .output (hshows _ _ _ hv) ih
  | @inclusion tag t d body nodes e m ht hb _ ihb ih =>
    have hd : d = true ↔ C.Tainted dynamic π tag.key := deferred_iff hdynamic ht hb
    cases d with
    | true => exact .deferred (hd.mp rfl) ih
    | false => exact .frozen (fun htaint => Bool.false_ne_true (hd.mpr htaint)) ht ihb ih

/-- A deferred inclusion has a template, which expands to its body and marks. -/
theorem of_mem_deferrals (h : Expands C R π nodes e m) {tag : Inclusion} {body : Expansion}
    (hm : (tag, body) ∈ e.deferrals) : ∃ t, C.Holds tag.key t ∧ Expands C R π t.nodes body true := by
  induction h with
  | nil => cases hm
  | text _ ih => exact ih hm
  | output _ _ ih => exact ih hm
  | @inclusion tag' t d body' nodes e m ht hb _ ihb ih =>
    cases d with
    | true =>
      simp only [Expansion.deferrals, List.cons_append, List.mem_cons, List.mem_append, Prod.mk.injEq] at hm
      rcases hm with ⟨rfl, rfl⟩ | hm | hm
      · exact ⟨t, ht, hb⟩
      · exact ihb hm
      · exact ih hm
    | false =>
      rcases List.mem_append.mp hm with hm | hm
      · exact ihb hm
      · exact ih hm

/-- Every tainted inclusion met is deferred. -/
theorem exists_deferral {dynamic : Variable → Prop} (hdynamic : ∀ v x b, R v x b → (b = true ↔ dynamic v))
    (h : Expands C R π nodes e m) {n : String} (hn : n ∈ e.names) (htaint : C.Tainted dynamic π n) :
    ∃ tag body, (tag, body) ∈ e.deferrals ∧ tag.key = n := by
  induction h with
  | nil => cases hn
  | text _ ih => exact ih hn
  | output _ _ ih => exact ih hn
  | @inclusion tag t d body nodes e m ht hb _ ihb ih =>
    have hd : d = true ↔ C.Tainted dynamic π tag.key := deferred_iff hdynamic ht hb
    simp only [Expansion.names, List.cons_append, List.mem_cons, List.mem_append] at hn
    rcases hn with rfl | hn | hn
    · obtain rfl := hd.mpr htaint
      exact ⟨tag, body, List.mem_append_left _ List.mem_cons_self, rfl⟩
    · obtain ⟨tag', body', hm, hk⟩ := ihb hn
      refine ⟨tag', body', ?_, hk⟩
      cases d with
      | true => exact List.mem_append_left _ (List.mem_cons_of_mem _ hm)
      | false => exact List.mem_append_left _ hm
    · obtain ⟨tag', body', hm, hk⟩ := ih hn
      refine ⟨tag', body', ?_, hk⟩
      cases d with
      | true => exact List.mem_append_right _ hm
      | false => exact List.mem_append_right _ hm

/-- The sources in the artifacts are those of the catalog, for the names that are kept. -/
theorem templates_eq_some_iff (h : Expands C R π nodes e m) (n text : String) :
    ((e.stored C.text none).getD {}).templates.get? n = some text ↔ n ∈ e.kept ∧ C n = .ok text := by
  have hnone : ((none : Option Artifacts).getD {}).templates.get? n = none := rfl
  rw [Expansion.templates_stored, hnone]
  split
  · rename_i hn
    obtain ⟨t, ht⟩ := h.holds_of_mem_names (e.kept_subset_names hn)
    rw [ht.ok, Option.some.injEq, Except.ok.injEq, and_iff_right hn]
  · rename_i hn
    constructor
    · intro h
      cases h
    · intro h
      exact absurd h.1 hn

/-- What is kept are the names at or beneath a tainted inclusion. -/
theorem mem_kept_iff {dynamic : Variable → Prop} (hdynamic : ∀ v x b, R v x b → (b = true ↔ dynamic v))
    (h : Expands C R π nodes e m) (n : String) :
    n ∈ e.kept ↔ ∃ k, Template.Reaches ⟨nodes⟩ C k ∧ C.Tainted dynamic π k ∧ C.Reaches k n := by
  rw [Expansion.mem_kept_iff]
  constructor
  · rintro ⟨tag, body, hm, hn⟩
    obtain ⟨t, ht, hb⟩ := h.of_mem_deferrals hm
    have hname : tag.key ∈ e.names := e.kept_subset_names (Expansion.mem_kept_of_mem_deferrals hm)
    exact ⟨tag.key, (h.mem_names_iff _).mp hname, (hb.deferred_iff hdynamic ht).mp rfl, (hb.reaches_iff ht).mpr hn⟩
  · rintro ⟨k, hk, htaint, hn⟩
    obtain ⟨tag, body, hm, rfl⟩ := h.exists_deferral hdynamic ((h.mem_names_iff k).mpr hk) htaint
    obtain ⟨t, ht, hb⟩ := h.of_mem_deferrals hm
    exact ⟨tag, body, hm, (hb.reaches_iff ht).mp hn⟩

theorem exists_deferral_of_memo {dynamic : Variable → Prop} (hdynamic : ∀ v x b, R v x b → (b = true ↔ dynamic v))
    (h : Expands C R π nodes e m) {n x : String} (hx : e.memo n = some x) :
    Template.Reaches ⟨nodes⟩ C n ∧ C.Tainted dynamic π n ∧
      ∃ t body, C.Holds n t ∧ Expands C R π t.nodes body true ∧ body.emitted = x := by
  obtain ⟨tag, body, hm, rfl, hbody⟩ := Expansion.exists_of_memo hx
  obtain ⟨t, ht, hb⟩ := h.of_mem_deferrals hm
  have hname : tag.key ∈ e.names := e.kept_subset_names (Expansion.mem_kept_of_mem_deferrals hm)
  exact ⟨(h.mem_names_iff _).mp hname, (hb.deferred_iff hdynamic ht).mp rfl, t, body, ht, hb, hbody⟩

/-- The texts in the artifacts are the hybrid sources of the tainted templates reached. -/
theorem memo_eq_some_iff {dynamic : Variable → Prop} {shows : Variable → String → Prop}
    (hdynamic : ∀ v x b, R v x b → (b = true ↔ dynamic v)) (hshows : ∀ v x b, R v x b → shows v x)
    (hunique : ∀ v x y, shows v x → shows v y → x = y) (h : Expands C R π nodes e m) (n x : String) :
    e.memo n = some x ↔ Template.Reaches ⟨nodes⟩ C n ∧ C.Tainted dynamic π n ∧
      ∃ t left, C.Holds n t ∧ Hybrid C shows (C.Tainted dynamic π) t.nodes left ∧ x = Template.emit ⟨left⟩ := by
  constructor
  · intro hx
    obtain ⟨hreach, htaint, t, body, ht, hb, rfl⟩ := h.exists_deferral_of_memo hdynamic hx
    exact ⟨hreach, htaint, t, body.hybrid, ht, hb.hybrid hdynamic hshows, body.emit_hybrid.symm⟩
  · rintro ⟨hreach, htaint, t, left, ht, hleft, rfl⟩
    obtain ⟨tag, body, hm, rfl⟩ := h.exists_deferral hdynamic ((h.mem_names_iff n).mpr hreach) htaint
    obtain ⟨x, hx⟩ := Option.isSome_iff_exists.mp (Expansion.isSome_memo hm)
    obtain ⟨-, -, t', body', ht', hb', rfl⟩ := h.exists_deferral_of_memo hdynamic hx
    obtain rfl := ht.unique ht'
    rw [hx, hleft.unique hunique (hb'.hybrid hdynamic hshows), Expansion.emit_hybrid]

end Expands

/-! ## Precompilation -/

section

variable {ω σ : Type} [DataModel ω σ] {ctx : Context ω}

/-- The outcomes of outputs in a pure context: the text that they show in every state, and a mark if they touch the
registers. -/
def Context.Settled (ctx : Context ω) (v : Variable) (value : String) (b : Bool) : Prop :=
  ctx.Shows v value ∧ (b = true ↔ ctx.Touches v)

theorem Context.Pure.outcomes (hp : ctx.Pure) : Environment.Outcomes ctx ctx.Settled := by
  intro v w value w' hr
  obtain ⟨r, m, hs, hm⟩ := hp.settles v w
  obtain ⟨hans, hreg⟩ := hs w
  rw [hr] at hans hreg
  refine ⟨m, ⟨fun w => ?_, hm⟩, hreg⟩
  rw [(hs w).1, ← hans]

/-- In a pure context an expansion leaves the hybrid of what the outputs show, with those deferred that touch the
registers. -/
theorem Expands.hybrid_of_settled {C : Catalog} {π : TaintPolicy} {nodes : List Node} {e : Expansion} {m : Bool}
    (h : Expands C ctx.Settled π nodes e m) : Hybrid C ctx.Shows (C.Tainted ctx.Touches π) nodes e.hybrid :=
  h.hybrid (fun _ _ _ hv => hv.2) fun _ _ _ hv => hv.1

theorem Context.Shows.unique {v : Variable} {x y : String} (w : Shared σ) (hx : ctx.Shows v x) (hy : ctx.Shows v y) :
    x = y :=
  Except.ok.inj ((hx w).symm.trans (hy w))

theorem Context.Settled.unique {v : Variable} {x y : String} {b c : Bool} (w : Shared σ) (hx : ctx.Settled v x b)
    (hy : ctx.Settled v y c) : x = y ∧ b = c :=
  ⟨hx.1.unique w hy.1, Bool.eq_iff_iff.mpr (hx.2.trans hy.2.symm)⟩

namespace Environment

variable {C : Catalog} {t : Template} {w : World σ} {p : Precompiled}

/-- The outline of a precompilation expands the template, and the artifacts are what the expansion stores. -/
theorem exists_outline_expands {R : Variable → String → Bool → Prop} (hR : Outcomes ctx R) (hs : w.source.Serves C)
    (hr : ((cached.precompile ctx t).run w).1 = .ok p) :
    ∃ e m, ((outline ctx t).run w).1 = .ok e ∧ Expands C R (w.registers.get ctx.registers).policy t.nodes e m ∧
      e.height ≤ ctx.includeLimit - w.includeDepth ∧ p.source = e.emitted ∧
      p.artifacts = (e.stored C.text none).getD {} := by
  obtain ⟨e, w', ho, hsource, hartifacts⟩ := exists_outline_of_precompile hr
  obtain ⟨⟨m, he⟩, hh, hstore⟩ := outline_tracks hR hs ho
  exact ⟨e, m, congrArg Prod.fst ho, he, hh, hsource, hartifacts.trans hstore⟩

/-- A precompilation expands the template, and keeps what the expansion stores. -/
theorem exists_expands_of_precompile {R : Variable → String → Bool → Prop} (hR : Outcomes ctx R)
    (hs : w.source.Serves C) (hr : ((cached.precompile ctx t).run w).1 = .ok p) :
    ∃ e m, Expands C R (w.registers.get ctx.registers).policy t.nodes e m ∧
      e.height ≤ ctx.includeLimit - w.includeDepth ∧ p.source = e.emitted ∧
      p.artifacts = (e.stored C.text none).getD {} := by
  obtain ⟨e, m, -, h⟩ := exists_outline_expands hR hs hr
  exact ⟨e, m, h⟩

/-- A precompilation answers the source of the hybrid. The artifacts have the hybrid sources of all tainted templates
that the template reaches, and the sources of all those at or beneath a tainted inclusion. -/
theorem precompile_meets_hybrid (hs : w.source.Serves C) (hp : ctx.Pure)
    (honly : ∀ v, ctx.Touches v → ctx.Decorated v.name) (hr : ((cached.precompile ctx t).run w).1 = .ok p) :
    let tainted := C.Tainted (fun v => ctx.Decorated v.name) (w.registers.get ctx.registers).policy
    (∃ left, Hybrid C ctx.Shows tainted t.nodes left ∧ p.source = Template.emit ⟨left⟩) ∧
    (∀ n x, p.artifacts.renderedResults.get? n = some x ↔
      t.Reaches C n ∧ tainted n ∧
        ∃ t' left, C.Holds n t' ∧ Hybrid C ctx.Shows tainted t'.nodes left ∧ x = Template.emit ⟨left⟩) ∧
    (∀ n x, p.artifacts.templates.get? n = some x ↔
      (∃ k, t.Reaches C k ∧ tainted k ∧ C.Reaches k n) ∧ C n = .ok x) := by
  intro tainted
  obtain ⟨e, m, he, -, hsource, hartifacts⟩ := exists_expands_of_precompile hp.outcomes hs hr
  have hdynamic : ∀ v x b, ctx.Settled v x b → (b = true ↔ ctx.Decorated v.name) := fun v x b hv =>
    ⟨fun hb => honly v (hv.2.mp hb), fun hv' => hv.2.mpr (hv'.touches hp w.toShared)⟩
  have hshows : ∀ v x b, ctx.Settled v x b → ctx.Shows v x := fun v x b hv => hv.1
  have hunique : ∀ v x y, ctx.Shows v x → ctx.Shows v y → x = y := fun v x y => Context.Shows.unique w.toShared
  refine ⟨⟨e.hybrid, he.hybrid hdynamic hshows, by rw [hsource, Expansion.emit_hybrid]⟩, ?_, ?_⟩
  · intro n x
    rw [hartifacts, Expansion.results_stored]
    have hnone : ((none : Option Artifacts).getD {}).renderedResults.get? n = none := rfl
    rw [hnone, Option.or_none]
    exact he.memo_eq_some_iff hdynamic hshows hunique n x
  · intro n x
    rw [hartifacts, he.templates_eq_some_iff, he.mem_kept_iff hdynamic]

end Environment

end

namespace Sample

/-- The catalog of the site. -/
def catalog : Catalog := fun n =>
  match texts n with
  | some text => .ok text
  | none => .error (.notFound n)

theorem parse_page :
    Template.parse "\x7b\x7b title \x7d\x7d: \x7b% include 'row' %\x7d\x7b% include 'foot' %\x7d" = .ok page := by
  cbv

theorem serves_world : world.source.Serves catalog :=
  Source.serves_ofLookup texts

theorem holds_row : catalog.Holds "row"
    ⟨[.text "Hi ", .output ⟨"user", ["name"]⟩, .inclusion ⟨" ", '\'', "foot"⟩]⟩ :=
  ⟨_, rfl, by cbv⟩

theorem holds_foot : catalog.Holds "foot" ⟨[.text "!"]⟩ :=
  ⟨_, rfl, by cbv⟩

/-- The row reads the user, and the foot reads nothing. -/
theorem tainted_page (name : String) (π : TaintPolicy) :
    catalog.Tainted (context name).Touches π "row" ∧ ¬catalog.Tainted (context name).Touches π "foot" := by
  rw [Catalog.tainted_iff holds_row, Catalog.tainted_iff holds_foot]
  constructor
  · exact Or.inl ⟨⟨"user", ["name"]⟩, by simp, (decorated_user name).touches (pure_context name).1 world.toShared⟩
  · simp

/-- What is left of the page. -/
theorem hybrid_page {name : String} {left : List Node}
    (h : Hybrid catalog (context name).Shows (catalog.Tainted (context name).Touches .propagating) page.nodes left) :
    left = [.text "Home", .text ": ", .inclusion ⟨" ", '\'', "row"⟩, .text "!"] := by
  obtain ⟨hrow, hfoot⟩ := tainted_page name .propagating
  have htitle : (context name).Shows ⟨"title", []⟩ "Home" := fun w => by cbv
  cases h with
  | output hv h =>
    obtain rfl := hv.unique world.toShared htitle
    cases h with
    | text h =>
      cases h with
      | frozen ht => exact absurd hrow ht
      | deferred _ h =>
        cases h with
        | deferred ht => exact absurd ht hfoot
        | frozen _ hC hb h =>
          obtain rfl := hC.unique holds_foot
          cases hb with
          | text hb =>
            cases hb
            cases h
            rfl

theorem precompile_page (name : String) :
    ((Environment.cached.precompile (context name) page).run world).1 = .ok (precompiled name) := by
  cbv

/-- The page of the sample site: its source is that of the hybrid, and the row is tainted. -/
theorem precompile_page_meets_hybrid :
    let tainted := catalog.Tainted (fun v => (context "Ann").Decorated v.name) .propagating
    (∃ left, Hybrid catalog (context "Ann").Shows tainted page.nodes left ∧
      (precompiled "Ann").source = Template.emit ⟨left⟩) ∧ page.Reaches catalog "row" ∧ tainted "row" := by
  obtain ⟨hsource, hresults, -⟩ := Environment.precompile_meets_hybrid (w := world) serves_world
    (pure_context "Ann").1 (pure_context "Ann").2 (precompile_page "Ann")
  obtain ⟨hreach, htaint, -⟩ := (hresults "row" "Hi Ann!").mp (by cbv)
  exact ⟨hsource, hreach, htaint⟩

end Sample

end HybridTemplate
