import HybridTemplate.Proofs.Chronicle

/-!
# Inclusions inside one another

Over a stable source, an inclusion is rendered inside another one only if its name is reached from there
(`Chronicle.reaches`), and an inclusion comes to an end only if every chain of inclusions from its name does
(`Chronicle.grounded`). So none that ends is inside one of the same name (`Begins.not_ended`).
-/

namespace HybridTemplate

open World

/-! ## Chains of inclusions -/

namespace Catalog

variable {C : Catalog} {n k : String}

/-- Every chain of inclusions from the name comes to an end. -/
def Grounded (C : Catalog) (n : String) : Prop :=
  Acc (fun k m => C.Includes m k) n

theorem Holds.grounded {t : Template} (h : C.Holds n t) (ht : ∀ tag, .inclusion tag ∈ t.nodes → C.Grounded tag.key) :
    C.Grounded n := by
  refine Acc.intro _ fun k hk => ?_
  obtain ⟨tag, htag, rfl⟩ := (includes_iff h).mp hk
  exact ht tag htag

theorem Grounded.of_reaches (h : C.Grounded n) (hk : C.Reaches n k) : C.Grounded k := by
  induction hk with
  | refl => exact h
  | tail _ hincludes ih => exact ih.inv hincludes

/-- No chain of inclusions from such a name leads back to it. -/
theorem Grounded.not_reaches (h : C.Grounded n) (hk : C.Includes n k) : ¬C.Reaches k n := by
  -- A chain back is one from the next name on it as well, which comes before in the descent.
  induction h generalizing k with
  | intro n _ ih =>
    intro hreaches
    obtain rfl | ⟨k', hk', hn⟩ := reaches_iff.mp hreaches
    · exact ih k hk hk Relation.ReflTransGen.refl
    · exact ih k hk hk' (hn.tail hk)

end Catalog

theorem Template.Reaches.cons {C : Catalog} {node : Node} {nodes : List Node} {n : String}
    (h : Template.Reaches ⟨nodes⟩ C n) : Template.Reaches ⟨node :: nodes⟩ C n := by
  obtain ⟨tag, htag, hn⟩ := h
  exact ⟨tag, List.mem_cons_of_mem node htag, hn⟩

/-! ## Inclusions that have ended -/

variable {ω σ : Type}

/-- An inclusion of the name has ended. -/
def Ended (ds : List (Deed σ)) (name : String) : Prop :=
  ∃ v e, Deed.visit v ∈ ds ∧ v.key = name ∧ v.ending = some e

section

variable {v : Visit} {ds es : List (Deed σ)} {name : String}

theorem Ended.mono (h : Ended ds name) (hsub : ds ⊆ es) : Ended es name := by
  obtain ⟨v, e, hv, hkey, hending⟩ := h
  exact ⟨v, e, hsub hv, hkey, hending⟩

theorem ended_append (h : Ended (ds ++ es) name) : Ended ds name ∨ Ended es name := by
  obtain ⟨v, e, hv, hkey, hending⟩ := h
  rcases List.mem_append.mp hv with hv | hv
  · exact .inl ⟨v, e, hv, hkey, hending⟩
  · exact .inr ⟨v, e, hv, hkey, hending⟩

/-- If an inclusion has ended, then it did so first or later. -/
theorem ended_visit (h : Ended (.visit v :: es) name) :
    v.key = name ∧ v.ending.isSome = true ∨ Ended es name := by
  obtain ⟨v', e, hv, hkey, hending⟩ := h
  rcases List.mem_cons.mp hv with hv | hv
  · cases hv
    exact .inl ⟨hkey, by rw [hending]; rfl⟩
  · exact .inr ⟨v', e, hv, hkey, hending⟩

theorem ended_output {v : Variable} {u : Shared σ} (h : Ended (.output v u :: es) name) : Ended es name := by
  obtain ⟨v', e, hv, hkey, hending⟩ := h
  rcases List.mem_cons.mp hv with hv | hv
  · cases hv
  · exact ⟨v', e, hv, hkey, hending⟩

theorem not_ended_nil (name : String) : ¬Ended ([] : List (Deed σ)) name := by
  rintro ⟨v, e, hv, -⟩
  cases hv

end

/-- An inclusion that answers has rendered its body. -/
theorem Ends.exists_ok {ctx : Context ω} {tag : Inclusion} {w u w' : World σ} {r : Except (Failure RenderError) String}
    {e : Ending} (h : Ends ctx tag w r u (.ok e) w') : ∃ text, r = .ok text := by
  cases r with
  | error f =>
    obtain ⟨f', hf'⟩ := h.error
    cases hf'
  | ok text => exact ⟨text, rfl⟩

/-! ## What happens inside an inclusion -/

namespace Environment

variable {ctx : Context ω} {C : Catalog} {levels : Nat} {nodes : List Node} {tag : Inclusion} {t : Template}
  {w w₁ w₂ w' : World σ} {ds : List (Deed σ)} {r : Except (Failure RenderError) String} {n : String}

theorem Begins.holds (hb : Begins ctx tag w t w₁) (hs : w.source.Serves C) : C.Holds tag.key t := by
  obtain ⟨-, source, hanswer, hparse⟩ := hb.read
  exact ⟨source, by rw [← hs w.source.reads, hanswer], hparse⟩

theorem Begins.reaches (hb : Begins ctx tag w t w₁) (hs : w.source.Serves C) (h : t.Reaches C n) :
    C.Reaches tag.key n :=
  (Catalog.reaches_iff_of_holds (hb.holds hs)).mpr (.inr h)

section

variable [DataModel ω σ]

/-- Whatever happens while nodes are rendered, the inclusions in it can be reached from the nodes. -/
theorem Chronicle.reaches (hs : w.source.Serves C) (h : Chronicle ctx levels nodes w ds r w') :
    ∀ v, Deed.visit v ∈ ds → Template.Reaches ⟨nodes⟩ C v.key := by
  induction h with
  | nil => exact fun v hv => nomatch hv
  | text _ ih => exact fun v hv => (ih hs v hv).cons
  | output hv _ ih =>
    intro v hmem
    obtain hmem | hmem := List.mem_cons.mp hmem
    · cases hmem
    · exact (ih (hs.congr (onward_evaluate hv).answer) v hmem).cons
  | outputFails =>
    intro v hmem
    cases List.mem_singleton.mp hmem
  | @inclusion levels tag t nodes w w₁ w₂ w₃ w' ds es r r' e hb hbody hend h ihbody ih =>
    intro v hmem
    rcases List.mem_append.mp hmem with hmem | hmem
    · exact ⟨tag, List.mem_cons_self, hb.reaches hs (ihbody (hs.congr hb.onward.answer) v hmem)⟩
    · obtain hmem | hmem := List.mem_cons.mp hmem
      · cases hmem
        exact ⟨tag, List.mem_cons_self, Relation.ReflTransGen.refl⟩
      · exact (ih (hs.congr (hbody.onward_end hb hend).answer) v hmem).cons
  | @inclusionFails levels tag t nodes w w₁ w₂ w' ds r f hb hbody hend ihbody =>
    intro v hmem
    rcases List.mem_append.mp hmem with hmem | hmem
    · exact ⟨tag, List.mem_cons_self, hb.reaches hs (ihbody (hs.congr hb.onward.answer) v hmem)⟩
    · cases List.mem_singleton.mp hmem
      exact ⟨tag, List.mem_cons_self, Relation.ReflTransGen.refl⟩
  | @stopped levels tag nodes w w' f hb hend =>
    intro v hmem
    cases List.mem_singleton.mp hmem
    exact ⟨tag, List.mem_cons_self, Relation.ReflTransGen.refl⟩

/-- The names of inclusions that end are grounded; if the nodes succeed, these are all names that they include. -/
theorem Chronicle.grounded (hs : w.source.Serves C) (h : Chronicle ctx levels nodes w ds r w') :
    (∀ name, Ended ds name → C.Grounded name) ∧
      ∀ text, r = .ok text → ∀ tag, .inclusion tag ∈ nodes → C.Grounded tag.key := by
  have hmap : ∀ {r : Except (Failure RenderError) String} {f : String → String} {text : String},
      r.map f = .ok text → ∃ text, r = .ok text := by
    intro r f text hr
    cases r with
    | error e => cases hr
    | ok text => exact ⟨text, rfl⟩
  induction h with
  | nil => exact ⟨fun name h => absurd h (not_ended_nil name), fun _ _ tag h => nomatch h⟩
  | text _ ih =>
    obtain ⟨hended, hnodes⟩ := ih hs
    refine ⟨hended, fun text hr tag htag => ?_⟩
    obtain ⟨text, hr⟩ := hmap hr
    obtain htag | htag := List.mem_cons.mp htag
    · cases htag
    · exact hnodes text hr tag htag
  | output hv _ ih =>
    obtain ⟨hended, hnodes⟩ := ih (hs.congr (onward_evaluate hv).answer)
    refine ⟨fun name h => hended name (ended_output h), fun text hr tag htag => ?_⟩
    obtain ⟨text, hr⟩ := hmap hr
    obtain htag | htag := List.mem_cons.mp htag
    · cases htag
    · exact hnodes text hr tag htag
  | outputFails => exact ⟨fun name h => absurd (ended_output h) (not_ended_nil name), fun _ hr => nomatch hr⟩
  | @inclusion levels tag t nodes w w₁ w₂ w₃ w' ds es r r' e hb hbody hend h ihbody ih =>
    -- It has ended, so its body has succeeded, and all that the body includes is grounded.
    obtain ⟨text, rfl⟩ := (hbody.ends hb hend).exists_ok
    obtain ⟨hinside, hinner⟩ := ihbody (hs.congr hb.onward.answer)
    obtain ⟨hlater, hnodes⟩ := ih (hs.congr (hbody.onward_end hb hend).answer)
    have hkey : C.Grounded tag.key := (hb.holds hs).grounded (hinner text rfl)
    constructor
    · intro name hname
      obtain hname | hname := ended_append hname
      · exact hinside name hname
      · obtain ⟨rfl, -⟩ | hname := ended_visit hname
        · exact hkey
        · exact hlater name hname
    · intro text' hr tag' htag'
      obtain ⟨text', hr⟩ := hmap hr
      obtain htag' | htag' := List.mem_cons.mp htag'
      · cases htag'
        exact hkey
      · exact hnodes text' hr tag' htag'
  | inclusionFails hb hbody hend ihbody =>
    refine ⟨fun name hname => ?_, fun _ hr => nomatch hr⟩
    obtain hname | hname := ended_append hname
    · exact (ihbody (hs.congr hb.onward.answer)).1 name hname
    · obtain ⟨-, hsome⟩ | hname := ended_visit hname
      · cases hsome
      · exact absurd hname (not_ended_nil name)
  | stopped =>
    refine ⟨fun name hname => ?_, fun _ hr => nomatch hr⟩
    obtain ⟨-, hsome⟩ | hname := ended_visit hname
    · cases hsome
    · exact absurd hname (not_ended_nil name)

/-- No inclusion that ends inside another one that gets so far is of the same name. -/
theorem Begins.not_ended (hb : Begins ctx tag w t w₁) (hs : w.source.Serves C)
    (hbody : Chronicle ctx levels t.nodes w₁ ds r w₂) : ¬Ended ds tag.key := by
  intro hended
  have hs₁ : w₁.source.Serves C := hs.congr hb.onward.answer
  have hgrounded := (hbody.grounded hs₁).1 tag.key hended
  obtain ⟨v, e, hv, hkey, -⟩ := hended
  obtain ⟨tag', htag', hreaches⟩ := hbody.reaches hs₁ v hv
  rw [hkey] at hreaches
  exact hgrounded.not_reaches ((Catalog.includes_iff (hb.holds hs)).mpr ⟨tag', htag', rfl⟩) hreaches

end

end Environment

end HybridTemplate
