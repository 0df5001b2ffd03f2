import HybridTemplate.Proofs.Layered
import HybridTemplate.Proofs.Replay
import HybridTemplate.Render.Layers

/-!
# Replays with and without the rendered texts

A replay reads the rendered text of a deferred inclusion if there is one, and its source otherwise. Through layers of
one's own the two are not the same: the layers have seen the rendered text before, and see it again. They give one text
all the same if the layers are `Sparing`.

* `gives_plain` — the nodes that were expanded, over any catalog that has their templates, give the text of the
  expansion, with the layers asked anew;
* `gives_hybrid` — so does what is left of them, over any catalog that has a template for each deferred inclusion which
  gives its text (`Redoes`); both the sources that are kept and the rendered texts are such;
* `replay_withoutResults` — with sparing layers the rendered texts can be dropped without a difference to the replay;
  `replays_differ` is what other layers do.
-/

namespace HybridTemplate

open World

/-- A catalog that has the same source holds the same template. -/
theorem Catalog.Holds.of_agrees {C X : Catalog} {n : String} {t : Template} (ht : C.Holds n t)
    (h : ∀ source, C n = .ok source → X n = .ok source) : X.Holds n t := by
  obtain ⟨source, hs, hparse⟩ := ht
  exact ⟨source, h source hs, hparse⟩

namespace Environment

variable {ω σ : Type} [DataModel ω σ] {ctx : Context ω} {C X : Catalog} {R : Variable → String → Bool → Prop}
  {π : TaintPolicy} {replies : List (Inclusion → Reply)} {shows : Variable → Rendered} {deep l k : Nat}

/-! ## Nodes and inclusions that give a text -/

theorem gives_renderWith_cons {P : World σ → Prop} {expand : Inclusion → RenderRun σ String} {node : Node}
    {nodes : List Node} {x y : String} (hx : Gives P (renderNode ctx expand node) (.ok x))
    (hy : Gives P (renderWith ctx expand nodes) (.ok y)) :
    Gives P (renderWith ctx expand (node :: nodes)) (.ok (x ++ y)) :=
  hx.bind_of_ok (hy.bind_of_ok (.pure (x ++ y)))

theorem gives_renderWith_append {P : World σ → Prop} {expand : Inclusion → RenderRun σ String} {as bs : List Node}
    {x y : String} (hx : Gives P (renderWith ctx expand as) (.ok x)) (hy : Gives P (renderWith ctx expand bs) (.ok y)) :
    Gives P (renderWith ctx expand (as ++ bs)) (.ok (x ++ y)) := by
  rw [renderWith_append]
  exact hx.bind_of_ok (hy.bind_of_ok (.pure (x ++ y)))

/-- The layers need no template for a text of their own. -/
theorem gives_expandWithin_of_give {tag : Inclusion} {x : String} (hx : Reply.chain replies tag = .give (.ok x))
    (k : Nat) : Gives (Idle (σ := σ) ctx X deep k) ((cachedOver replies).expandWithin ctx k tag) (.ok x) := by
  cases k with
  | zero =>
    rw [expandWithin_cachedOver_zero, hx]
    exact gives_cacheAware (.pure x)
  | succ k =>
    rw [expandWithin_cachedOver_succ, hx]
    exact gives_cacheAware (.pure x)

/-- An inclusion gives what the layers make of the text that its template gives. -/
theorem gives_expandWithin_of_holds {tag : Inclusion} {t : Template} {x : String} (ht : X.Holds tag.key t)
    (hx : Gives (Idle (σ := σ) ctx X deep k) (renderWith ctx ((cachedOver replies).expandWithin ctx k) t.nodes)
      (.ok x)) :
    Gives (Idle (σ := σ) ctx X deep (k + 1)) ((cachedOver replies).expandWithin ctx (k + 1) tag)
      ((Reply.chain replies tag).meaning (.ok x)) := by
  obtain ⟨source, hs, hparse⟩ := ht
  have hread : Gives (Idle (σ := σ) ctx X deep k) (readTemplate tag.key) _ := gives_readTemplate tag.key
  rw [hs] at hread
  rw [expandWithin_cachedOver_succ]
  refine gives_cacheAware (Reply.gives_follow (gives_nested (hread.bind_of_ok ?_)) _)
  rw [hparse]
  exact hx

/-! ## What was expanded gives its text -/

/-- Over any catalog that has the templates that were met, the nodes give the text with every inclusion in its place. -/
theorem gives_plain (hmeans : ctx.Says shows) (hshows : ∀ v x b, R v x b → shows v = .ok x) {nodes : List Node}
    {e : Expansion} {m : Bool} (h : ExpandsThrough C R π (Reply.chain replies) l nodes e m)
    (hX : ∀ n source, n ∈ e.names → C n = .ok source → X n = .ok source) (hl : l ≤ k) :
    Gives (Idle (σ := σ) ctx X deep k) (renderWith ctx ((cachedOver replies).expandWithin ctx k) nodes)
      (.ok e.plain) := by
  induction h generalizing k with
  | nil => exact .pure ""
  | text _ ih => exact gives_renderWith_cons (.pure _) (ih hX hl)
  | @output l v value b nodes e m hv _ ih =>
    have hvalue : Gives (Idle (σ := σ) ctx X deep k) (lift (ctx.evaluate v)) (.ok value) := by
      rw [← hshows v value b hv]
      exact gives_evaluate hmeans v
    exact gives_renderWith_cons hvalue (ih hX hl)
  | @replaced l tag x nodes e m hρ _ ih =>
    have htag : Gives (Idle (σ := σ) ctx X deep k) _ (.ok x) := gives_expandWithin_of_give hρ k
    rw [Expansion.plain, Expansion.plain, Expansion.plain, String.append_empty]
    exact gives_renderWith_cons htag (ih (fun n source hn => hX n source (List.mem_append_right _ hn)) hl)
  | @reworked l tag next t body x nodes e m hρ ht _ hd hx _ ihb ih =>
    obtain ⟨k, rfl⟩ : ∃ k', k = k' + 1 := ⟨k - 1, by omega⟩
    have hbody := ihb (fun n source hn => hX n source (List.mem_append_left _
      (List.mem_cons_of_mem _ (body.names_silent.symm ▸ hn)))) (Nat.le_of_succ_le_succ hl)
    have hheld := ht.of_agrees fun source => hX _ source (List.mem_append_left _ List.mem_cons_self)
    have htag := gives_expandWithin_of_holds hheld hbody
    rw [← Expansion.emitted_eq_plain hd, hx] at htag
    rw [Expansion.plain, Expansion.plain, Expansion.plain_silent, String.append_empty]
    exact gives_renderWith_cons htag (ih (fun n source hn => hX n source (List.mem_append_right _ hn)) hl)
  | @handed l tag next t d body nodes e m hρ ht _ _ hon _ ihb ih =>
    obtain ⟨k, rfl⟩ : ∃ k', k = k' + 1 := ⟨k - 1, by omega⟩
    have hbody := ihb (fun n source hn => hX n source (List.mem_append_left _ (List.mem_cons_of_mem _ hn)))
      (Nat.le_of_succ_le_succ hl)
    have hheld := ht.of_agrees fun source => hX _ source (List.mem_append_left _ List.mem_cons_self)
    have htag := gives_expandWithin_of_holds hheld hbody
    rw [hon.meaning hρ] at htag
    exact gives_renderWith_cons htag (ih (fun n source hn => hX n source (List.mem_append_right _ hn)) hl)

/-- For each deferred inclusion the catalog has a template that gives the text of the body, if what is left of the body
does so. -/
def Redoes (σ : Type) [DataModel ω σ] (ctx : Context ω) (C : Catalog) (R : Variable → String → Bool → Prop)
    (π : TaintPolicy) (replies : List (Inclusion → Reply)) (X : Catalog) (deep : Nat) (e : Expansion) : Prop :=
  ∀ tag t body l k, (tag, body) ∈ e.deferrals → C.Holds tag.key t →
    ExpandsThrough C R π (Reply.chain replies) l t.nodes body true → l ≤ k →
    Gives (Idle (σ := σ) ctx X deep k) (renderWith ctx ((cachedOver replies).expandWithin ctx k) body.hybrid)
      (.ok body.plain) →
    ∃ t', X.Holds tag.key t' ∧
      Gives (Idle (σ := σ) ctx X deep k) (renderWith ctx ((cachedOver replies).expandWithin ctx k) t'.nodes)
        (.ok body.plain)

/-- Over a catalog that redoes the deferred inclusions, what is left of the nodes gives the same text. -/
theorem gives_hybrid {nodes : List Node} {e : Expansion} {m : Bool}
    (h : ExpandsThrough C R π (Reply.chain replies) l nodes e m) (hX : Redoes σ ctx C R π replies X deep e)
    (hl : l ≤ k) :
    Gives (Idle (σ := σ) ctx X deep k) (renderWith ctx ((cachedOver replies).expandWithin ctx k) e.hybrid)
      (.ok e.plain) := by
  induction h generalizing k with
  | nil => exact .pure ""
  | text _ ih => exact gives_renderWith_cons (.pure _) (ih hX hl)
  | output _ _ ih => exact gives_renderWith_cons (.pure _) (ih hX hl)
  | @replaced l tag x nodes e m _ _ ih =>
    rw [Expansion.plain, Expansion.plain, Expansion.plain, String.append_empty]
    exact gives_renderWith_cons (.pure x) (ih hX hl)
  | @reworked l tag next t body x nodes e m _ _ _ hd _ _ _ ih =>
    rw [Expansion.hybrid, Expansion.hybrid, Expansion.hybrid_silent hd, Expansion.plain, Expansion.plain,
      Expansion.plain_silent, String.append_empty]
    exact gives_renderWith_cons (.pure x)
      (ih (fun tag t body l k hm => hX tag t body l k (List.mem_append_right _ hm)) hl)
  | @handed l tag next t d body nodes e m hρ ht hb _ hon _ ihb ih =>
    cases d with
    | false =>
      have hbody : Redoes σ ctx C R π replies X deep body := fun tag t body l k hm =>
        hX tag t body l k (List.mem_append_left _ hm)
      have hrest := ih (fun tag t body l k hm => hX tag t body l k (List.mem_append_right _ hm)) hl
      exact gives_renderWith_append (ihb hbody (Nat.le_of_succ_le hl)) hrest
    | true =>
      obtain ⟨k, rfl⟩ : ∃ k', k = k' + 1 := ⟨k - 1, by omega⟩
      have hbody : Redoes σ ctx C R π replies X deep body := fun tag t body l k hm =>
        hX tag t body l k (List.mem_append_left _ (List.mem_cons_of_mem _ hm))
      have hrest := ih (fun tag t body l k hm => hX tag t body l k (List.mem_append_right _ hm)) hl
      have hlb : l ≤ k := Nat.le_of_succ_le_succ hl
      obtain ⟨t', ht', hgives⟩ := hX tag t body l k (List.mem_append_left _ List.mem_cons_self) ht hb hlb
        (ihb hbody hlb)
      have htag := gives_expandWithin_of_holds ht' hgives
      rw [hon.meaning hρ] at htag
      exact gives_renderWith_cons htag hrest

/-! ## Artifacts -/

/-- The sources that are kept redo the deferred inclusions: they are rendered once more. -/
theorem redoes_of_templates (hmeans : ctx.Says shows) (hshows : ∀ v x b, R v x b → shows v = .ok x) {e : Expansion}
    (hX : ∀ n source, n ∈ e.kept → C n = .ok source → X n = .ok source) : Redoes σ ctx C R π replies X deep e := by
  intro tag t body l k hm ht hb hl _
  refine ⟨t, ht.of_agrees fun source => hX _ source (Expansion.mem_kept_of_mem_deferrals hm),
    gives_plain hmeans hshows hb (fun n source hn => hX n source ?_) hl⟩
  exact (e.mem_kept_iff n).mpr ⟨tag, body, hm, Or.inr hn⟩

/-- The rendered texts redo the deferred inclusions: they are what is left of the bodies. -/
theorem redoes_of_results {e : Expansion} (hX : Replayable X e) : Redoes σ ctx C R π replies X deep e := by
  intro tag t body l k hm _ _ _ hgives
  obtain ⟨hmemo, hclean, hfrozen⟩ := hX tag body hm
  refine ⟨⟨Node.merge [] body.hybrid⟩, ⟨body.emitted, hmemo, ?_⟩, ?_⟩
  · rw [← body.emit_hybrid]
    exact parse_emit hclean hfrozen
  · show Gives _ (renderWith ctx _ (Node.merge [] body.hybrid)) _
    rw [renderWith_merge_nil]
    exact hgives

/-- A replay over artifacts that redo the deferred inclusions gives the text with every inclusion in its place. -/
theorem replay_of_redoes {t : Template} {e : Expansion} {m : Bool} {p : Precompiled} {depth : Nat} {w : World σ}
    (he : ExpandsThrough C R π (Reply.chain replies) (ctx.includeLimit - depth) t.nodes e m)
    (hparse : p.parse = .ok ⟨Node.merge [] e.hybrid⟩)
    (hX : Redoes σ ctx C R π replies p.artifacts.catalog (max ctx.includeLimit depth) e)
    (hoff : (w.registers.get ctx.registers).caching = false) (hdepth : w.includeDepth = depth) :
    ((p.replay (cachedOver replies) ctx).run w).1 = .ok e.plain := by
  have hover : ctx.Over p.artifacts.catalog depth { w with source := p.artifacts.toSource } :=
    ⟨p.artifacts.serves_toSource, hoff, hdepth⟩
  have hnodes := gives_hybrid he hX (Nat.le_refl _)
  rw [Precompiled.replay_run hparse, render_merge]
  exact render_of_gives hover hnodes

end Environment

section

variable {C : Catalog} {R : Variable → String → Bool → Prop} {π : TaintPolicy} {ρ : Inclusion → Reply} {l : Nat}
  {nodes : List Node} {e : Expansion} {m : Bool}

/-- The sources in the artifacts are those of the catalog. -/
theorem Expansion.catalog_stored_withoutResults {n source : String} (hn : n ∈ e.kept) (hC : C n = .ok source) :
    ((e.stored C.text none).getD {}).withoutResults.catalog n = .ok source := by
  have hget : ((e.stored C.text none).getD {}).templates.get? n = some source := by
    rw [templates_stored, if_pos hn, C.text_of_ok hC]
  rw [Artifacts.catalog, Artifacts.get?_withoutResults, hget]

namespace ExpandsThrough

/-- The texts in the artifacts are the sources of what is left of the deferred inclusions. -/
theorem results_eq_some_iff (hR : ∀ v x y b c, R v x b → R v y c → x = y ∧ b = c)
    (h : ExpandsThrough C R π ρ l nodes e m) (n x : String) :
    ((e.stored C.text none).getD {}).renderedResults.get? n = some x ↔
      ∃ tag body, (tag, body) ∈ e.deferrals ∧ tag.key = n ∧ x = Template.emit ⟨body.hybrid⟩ := by
  have hnone : ((none : Option Artifacts).getD {}).renderedResults.get? n = none := rfl
  rw [Expansion.results_stored, hnone, Option.or_none]
  constructor
  · intro hx
    obtain ⟨tag, body, hm, hkey, rfl⟩ := Expansion.exists_of_memo hx
    exact ⟨tag, body, hm, hkey, body.emit_hybrid.symm⟩
  · rintro ⟨tag, body, hm, rfl, rfl⟩
    rw [h.memo_of_mem_deferrals hR hm, Expansion.emit_hybrid]

/-- The artifacts have the deferred inclusions, and their texts can be read back if they are clean. -/
theorem replayable (hR : ∀ v x y b c, R v x b → R v y c → x = y ∧ b = c) (h : ExpandsThrough C R π ρ l nodes e m)
    (hclean : ∀ tag body, (tag, body) ∈ e.deferrals → Clean body.hybrid) :
    Replayable ((e.stored C.text none).getD {}).catalog e := by
  intro tag body hm
  obtain ⟨t, _, ⟨source, -, hparse⟩, hb⟩ := h.of_mem_deferrals hm
  refine ⟨Artifacts.catalog_of_result ?_, hclean tag body hm, hb.frozen fun _ => Inclusion.legible_of_parse hparse⟩
  exact (h.results_eq_some_iff hR _ _).mpr ⟨tag, body, hm, rfl, body.emit_hybrid.symm⟩

end ExpandsThrough

end

namespace Environment

variable {ω σ : Type} [DataModel ω σ] {ctx : Context ω} {C : Catalog} {replies : List (Inclusion → Reply)}

/-- The rendered texts are only a shortcut: if the layers pass errors on and change no text in which anything is
dynamic, then the replay gives the text of the page with them and without them. -/
theorem replay_withoutResults {w : World σ} {source : String} {t : Template} {p : Precompiled} (hp : ctx.Pure)
    (hs : w.source.Serves C) (ht : Template.parse source = .ok t)
    (hρ : Sparing C ctx.Touches (Reply.chain replies))
    (hr : (((cachedOver replies).precompile ctx t).run w).1 = .ok p) :
    ∃ e m, ExpandsThrough C ctx.Settled (w.registers.get ctx.registers).policy (Reply.chain replies)
        (ctx.includeLimit - w.includeDepth) t.nodes e m ∧
      p.source = Template.emit ⟨e.hybrid⟩ ∧
      (∀ n x, p.artifacts.renderedResults.get? n = some x ↔
        ∃ tag body, (tag, body) ∈ e.deferrals ∧ tag.key = n ∧ x = Template.emit ⟨body.hybrid⟩) ∧
      (Clean e.hybrid → (∀ tag body, (tag, body) ∈ e.deferrals → Clean body.hybrid) →
        (∀ w', ctx.Over C w.includeDepth w' → (((cachedOver replies).render ctx t).run w').1 = .ok e.plain) ∧
        ∀ w' : World σ, (w'.registers.get ctx.registers).caching = false → w'.includeDepth = w.includeDepth →
          ((p.replay (cachedOver replies) ctx).run w').1 = .ok e.plain ∧
            ((p.withoutResults.replay (cachedOver replies) ctx).run w').1 = .ok e.plain) := by
  obtain ⟨shows, hmeans⟩ := hp.exists_says
  obtain ⟨e, m, he, hsource, hartifacts⟩ := exists_expandsThrough_of_precompile hp hρ hs hr
  have hunique : ∀ v x y b c, ctx.Settled v x b → ctx.Settled v y c → x = y ∧ b = c := fun v x y b c hx hy =>
    hx.unique w.toShared hy
  have hshows : ∀ v x b, ctx.Settled v x b → shows v = .ok x := by
    intro v x b hv
    obtain ⟨k, hk⟩ := hmeans v
    rw [← (hk w.toShared).1, hv.1]
  refine ⟨e, m, he, by rw [hsource, Expansion.emit_hybrid], ?_, fun hclean hcleans => ⟨fun w' hw' => ?_,
    fun w' hoff hdepth => ?_⟩⟩
  · rw [hartifacts]
    exact he.results_eq_some_iff hunique
  · exact render_of_gives hw' (gives_plain hmeans hshows he (fun _ _ _ h => h) (Nat.le_refl _))
  · have hparse : p.parse = .ok ⟨Node.merge [] e.hybrid⟩ :=
      Expansion.parse_eq_ok (he.frozen fun _ => Inclusion.legible_of_parse ht) hclean hsource
    have hresults : Replayable p.artifacts.catalog e := by
      rw [hartifacts]
      exact he.replayable hunique hcleans
    have htemplates : ∀ n source, n ∈ e.kept → C n = .ok source →
        p.artifacts.withoutResults.catalog n = .ok source := by
      rw [hartifacts]
      exact fun n source => Expansion.catalog_stored_withoutResults
    exact ⟨replay_of_redoes he hparse (redoes_of_results hresults) hoff hdepth,
      replay_of_redoes (p := p.withoutResults) he hparse (redoes_of_templates hmeans hshows htemplates) hoff hdepth⟩

end Environment

namespace Sample

/-- A layer that repeats the foot, and asks a second time for any other template. -/
def echo (tag : Inclusion) : Reply :=
  .onText fun text => if tag.key = "foot" then .give (.ok (text ++ text)) else .onText fun again => .give (.ok again)

theorem strict_echo (tag : Inclusion) : (echo tag).Strict := by
  refine ⟨fun text => ?_, fun _ => trivial⟩
  dsimp only
  split
  · trivial
  · exact ⟨fun _ => trivial, fun _ => trivial⟩

theorem handsOn_echo {tag : Inclusion} (h : tag.key ≠ "foot") : (echo tag).HandsOn := by
  intro text
  show Reply.meaning (.ok text) (if tag.key = "foot" then _ else _) = .ok text
  rw [if_neg h]
  rfl

theorem sparing_echo (name : String) : Sparing catalog (context name).Touches (Reply.chain [echo]) where
  strict tag := Reply.strict_chain (List.forall_mem_singleton.mpr (strict_echo tag))
  handsOn tag htaint := by
    refine Reply.handsOn_chain (List.forall_mem_singleton.mpr (handsOn_echo fun hkey => ?_))
    rw [hkey] at htaint
    exact (tainted_page name .propagating).2 htaint

/-- What a precompilation makes of the page through this layer. -/
def echoed : Precompiled :=
  { source := "Home: \x7b% include 'row' %\x7d!!"
    artifacts := {
      templates := .ofList [("foot", "!"), ("row", "Hi \x7b\x7b user.name \x7d\x7d\x7b% include 'foot' %\x7d")]
      renderedResults := .ofList [("row", "Hi Ann!!")] } }

theorem settled_title (name : String) : (context name).Settled ⟨"title", []⟩ "Home" false := by
  refine ⟨fun w => by cbv, ?_⟩
  simp only [Bool.false_eq_true, false_iff]
  intro htouches
  obtain ⟨o, ho, -⟩ := (pure_context name).2 _ htouches
  cases (lookup_context name "title").symm.trans ho

theorem settled_user : (context "Ann").Settled ⟨"user", ["name"]⟩ "Ann" true :=
  ⟨fun w => by cbv, iff_of_true rfl ((decorated_user "Ann").touches (pure_context "Ann").1 world.toShared)⟩

/-- What the foot, repeated, expands to. -/
def footTwice (rest : Expansion) : Expansion :=
  .inclusion ⟨" ", '\'', "foot"⟩ false (.text "!!" .nil) rest

/-- What the page expands to through this layer. -/
def echoedPage : Expansion :=
  .output ⟨"title", []⟩ "Home" (.text ": " (.inclusion ⟨" ", '\'', "row"⟩ true
    (.text "Hi " (.output ⟨"user", ["name"]⟩ "Ann" (footTwice .nil))) (footTwice .nil)))

theorem expandsThrough_foot {l : Nat} {nodes : List Node} {e : Expansion} {m : Bool}
    (h : ExpandsThrough catalog (context "Ann").Settled .propagating (Reply.chain [echo]) (l + 1) nodes e m) :
    ExpandsThrough catalog (context "Ann").Settled .propagating (Reply.chain [echo]) (l + 1)
      (.inclusion ⟨" ", '\'', "foot"⟩ :: nodes) (footTwice e) m :=
  .reworked rfl holds_foot (.text .nil) rfl rfl h

theorem expandsThrough_page :
    ExpandsThrough catalog (context "Ann").Settled .propagating (Reply.chain [echo]) 8 page.nodes echoedPage true := by
  have hrow : ExpandsThrough catalog (context "Ann").Settled .propagating (Reply.chain [echo]) 7
      [.text "Hi ", .output ⟨"user", ["name"]⟩, .inclusion ⟨" ", '\'', "foot"⟩]
      (.text "Hi " (.output ⟨"user", ["name"]⟩ "Ann" (footTwice .nil))) true :=
    .text (.output settled_user (expandsThrough_foot .nil))
  have hon : (Reply.chain [echo] ⟨" ", '\'', "row"⟩).HandsOn :=
    (sparing_echo "Ann").handsOn _ (tainted_page "Ann" .propagating).1
  exact .output (settled_title "Ann") (.text (.handed rfl holds_row hrow (Or.inl rfl) hon (expandsThrough_foot .nil)))

/-- The page of the sample site, precompiled and replayed through a layer that repeats the foot. -/
theorem replay_echoed :
    (((echoed.replay (.cachedOver [echo]) (context "Ann")).run world).1 = .ok "Home: Hi Ann!!!!") ∧
      (((echoed.withoutResults.replay (.cachedOver [echo]) (context "Ann")).run world).1 =
        .ok "Home: Hi Ann!!!!") := by
  have hr : (((Environment.cachedOver [echo]).precompile (context "Ann") page).run world).1 = .ok echoed := by
    cbv
  obtain ⟨e, m, he, -, -, hreplay⟩ := Environment.replay_withoutResults (pure_context "Ann").1 serves_world parse_page
    (sparing_echo "Ann") hr
  obtain ⟨rfl, -⟩ := he.unique (fun v x y b c hx hy => hx.unique world.toShared hy) expandsThrough_page
  have hclean : ∀ tag body, (tag, body) ∈ echoedPage.deferrals → Clean body.hybrid := by
    intro tag body hm
    obtain ⟨rfl, rfl⟩ := Prod.mk.inj (List.mem_singleton.mp hm)
    decide
  exact (hreplay (by decide) hclean).2 world rfl rfl

/-- Inclusions in elements that are named for their templates. -/
def annotated : Environment :=
  ⟨[.cacheAware, .annotated]⟩

/-- The row alone. -/
def rowAlone : Template :=
  ⟨[.inclusion ⟨" ", '\'', "row"⟩]⟩

/-- What a precompilation makes of the row in elements. -/
def annotatedRow : Precompiled :=
  { source := "\x7b% include 'row' %\x7d"
    artifacts := {
      templates := .ofList [("foot", "!"), ("row", "Hi \x7b\x7b user.name \x7d\x7d\x7b% include 'foot' %\x7d")]
      renderedResults := .ofList [("row", "<row>Hi Ann<foot>!</></>")] } }

/-- A layer that says of the row what went wrong with it. -/
def excuse (tag : Inclusion) : Reply :=
  .ask fun
    | .ok text => .give (.ok text)
    | .error e => .give (if tag.key = "row" then .ok (match e with | .parse _ => "Bad." | _ => "None.") else .error e)

/-- The site with a fault in the foot. -/
def faulty : World Heap :=
  { world with source := .ofLookup fun n => if n = "foot" then some "\x7b\x7b" else texts n }

/-- What a precompilation makes of the row if there is a fault in the foot: the source of the foot is not kept, since no
text of it was inlined. -/
def excused : Precompiled :=
  { source := "\x7b% include 'row' %\x7d"
    artifacts := {
      templates := .ofList [("row", "Hi \x7b\x7b user.name \x7d\x7d\x7b% include 'foot' %\x7d")]
      renderedResults := .ofList [("row", "Bad.")] } }

/-- With layers that are not sparing the rendered texts make a difference. If a layer changes a dynamic text, then the
replay has it changed twice. If a layer gives a text for an error, then the replay without the rendered texts comes
across another error. -/
theorem replays_differ :
    (((annotated.precompile (context "Ann") rowAlone).run world).1 = .ok annotatedRow ∧
      ((annotatedRow.replay annotated (context "Ann")).run world).1 = .ok "<row><row>Hi Ann<foot>!</></></>" ∧
      ((annotatedRow.withoutResults.replay annotated (context "Ann")).run world).1 = .ok "<row>Hi Ann<foot>!</></>" ∧
      ((annotated.render (context "Ann") rowAlone).run world).1 = .ok "<row>Hi Ann<foot>!</></>") ∧
    (((Environment.cachedOver [excuse]).precompile (context "Ann") rowAlone).run faulty).1 = .ok excused ∧
      ((excused.replay (.cachedOver [excuse]) (context "Ann")).run faulty).1 = .ok "Bad." ∧
      ((excused.withoutResults.replay (.cachedOver [excuse]) (context "Ann")).run faulty).1 = .ok "None." := by
  refine ⟨⟨?_, ?_, ?_, ?_⟩, ?_, ?_, ?_⟩
  all_goals cbv

end Sample

end HybridTemplate
