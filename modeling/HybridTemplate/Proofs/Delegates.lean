import HybridTemplate.Proofs.Meaning

/-!
# Layers of one's own

The layers between the cache-aware layer and the native strategy may ask for the text of an inclusion any number of
times, and change or replace it. However many there are, they are one reply.

* `Reply.chain` — that reply; `runLayers_custom` says that it is followed just as the layers are, by the laws of
  `Reply.andThen` and `Reply.through`;
* `Reply.meaning` — what a reply comes to if it is told the same each time, and `gives_follow` for runs;
* `Reply.Strict`, `Reply.HandsOn` — the reply gives no text once it is told an error, and it changes no text;
  `strict_chain` and `handsOn_chain` carry them over from the layers;
* `follow_of_strict` — in a run that gives a text, such a reply was told texts only.
-/

namespace HybridTemplate

open World

/-! ## Errors that are caught -/

namespace Run

variable {s ε α β : Type} {x : Run s ε α} {w w' : s}

/-- What is caught is an answer or an error. -/
theorem catchError_eq_ok {r : Except ε α} (h : (x.catchError : Run s ε _).run w = (.ok r, w')) :
    (∃ a, r = .ok a ∧ x.run w = (.ok a, w')) ∨ ∃ e, r = .error e ∧ x.run w = (.error (.error e), w') := by
  rw [catchError_run] at h
  rcases hx : x.run w with ⟨(e | a) | a, w₁⟩
  · rw [hx] at h
    cases h
    exact Or.inr ⟨e, rfl, rfl⟩
  · rw [hx] at h
    cases h
  · rw [hx] at h
    cases h
    exact Or.inl ⟨a, rfl, rfl⟩

/-- Nothing is left to catch after an error was caught. -/
theorem catchError_bind_catchError (x : Run s ε α) (f : Except ε α → Run s ε β) :
    (x.catchError >>= f).catchError = (x.catchError >>= fun r => (f r).catchError : Run s ε (Except ε β)) := by
  refine Run.ext fun w => ?_
  rw [catchError_run, bind_run, bind_run, catchError_run]
  rcases x.run w with ⟨(e | a) | a, w₁⟩ <;> rfl

end Run

/-! ## Replies -/

namespace Reply

/-- What a reply comes to if the layers beneath answer `r` each time. -/
def meaning (r : Rendered) : Reply → Rendered
  | give (.ok text) => .ok text
  | give (.error e) => .error (.error e)
  | ask next =>
    match r with
    | .ok text => meaning r (next (.ok text))
    | .error (.error e) => meaning r (next (.error e))
    | .error (.abort a) => .error (.abort a)

/-- Whatever it is told, the reply gives no text. -/
def Fails : Reply → Prop
  | give (.ok _) => False
  | give (.error _) => True
  | ask next => ∀ answer, (next answer).Fails

/-- Once it is told an error, the reply gives no text. -/
def Strict : Reply → Prop
  | give _ => True
  | ask next => (∀ text, (next (.ok text)).Strict) ∧ ∀ e, (next (.error e)).Fails

/-- If it asks at all, the reply gives the text that it is told. -/
def HandsOn : Reply → Prop
  | give _ => True
  | ask next => ∀ text, (ask next).meaning (.ok text) = .ok text

/-- A reply that goes on with what another one gives. -/
def andThen (next : Except RenderError String → Reply) : Reply → Reply
  | give result => next result
  | ask more => ask fun answer => (more answer).andThen next

/-- A reply that asks another one instead of the layers beneath. -/
def through : Reply → Reply → Reply
  | give result, _ => give result
  | ask next, inner => inner.andThen fun answer => (next answer).through inner

/-- Layers, outermost first, as one reply. -/
def chain (replies : List (Inclusion → Reply)) (tag : Inclusion) : Reply :=
  replies.foldr (fun reply inner => (reply tag).through inner) (ask give)

/-! ### Meanings -/

theorem meaning_andThen (r : Rendered) (next : Except RenderError String → Reply) (q : Reply) :
    (q.andThen next).meaning r = match q.meaning r with
      | .ok text => (next (.ok text)).meaning r
      | .error (.error e) => (next (.error e)).meaning r
      | .error (.abort a) => .error (.abort a) := by
  induction q with
  | give result => cases result <;> rfl
  | ask more ih =>
    rcases r with (e | a) | text
    · exact ih _
    · rfl
    · exact ih _

/-- A reply through another one means what it means for the meaning of the other. -/
theorem meaning_through (r : Rendered) (inner q : Reply) :
    (q.through inner).meaning r = q.meaning (inner.meaning r) := by
  induction q with
  | give result => cases result <;> rfl
  | ask next ih =>
    rw [through, meaning_andThen]
    generalize inner.meaning r = told at ih ⊢
    rcases told with (e | a) | text
    · exact ih _
    · rfl
    · exact ih _

/-! ### Strict replies -/

theorem Fails.strict {q : Reply} (h : q.Fails) : q.Strict := by
  induction q with
  | give result => trivial
  | ask next ih => exact ⟨fun text => ih _ (h _), fun e => h _⟩

theorem fails_andThen {next : Except RenderError String → Reply} {q : Reply} (hn : ∀ e, (next (.error e)).Fails)
    (h : q.Fails ∨ ∀ text, (next (.ok text)).Fails) : (q.andThen next).Fails := by
  induction q with
  | give result =>
    cases result with
    | error e => exact hn e
    | ok text => exact h.elim False.elim fun h => h text
  | ask more ih => exact fun answer => ih answer (h.imp_left fun h => h answer)

theorem strict_andThen {next : Except RenderError String → Reply} {q : Reply} (hq : q.Strict)
    (ht : ∀ text, (next (.ok text)).Strict) (hn : ∀ e, (next (.error e)).Fails) : (q.andThen next).Strict := by
  induction q with
  | give result =>
    cases result with
    | error e => exact (hn e).strict
    | ok text => exact ht text
  | ask more ih => exact ⟨fun text => ih _ (hq.1 text), fun e => fails_andThen hn (Or.inl (hq.2 e))⟩

theorem fails_through {inner q : Reply} (hq : q.Fails) : (q.through inner).Fails := by
  induction q with
  | give result => exact hq
  | ask next ih => exact fails_andThen (fun e => ih _ (hq _)) (Or.inr fun text => ih _ (hq _))

theorem strict_through {inner q : Reply} (hi : inner.Strict) (hq : q.Strict) : (q.through inner).Strict := by
  induction q with
  | give result => trivial
  | ask next ih => exact strict_andThen hi (fun text => ih _ (hq.1 text)) fun e => fails_through (hq.2 e)

/-- Strict layers are strict as one. -/
theorem strict_chain {replies : List (Inclusion → Reply)} {tag : Inclusion}
    (h : ∀ reply ∈ replies, (reply tag).Strict) : (chain replies tag).Strict := by
  induction replies with
  | nil => exact ⟨fun _ => trivial, fun _ => trivial⟩
  | cons reply replies ih =>
    obtain ⟨hreply, hreplies⟩ := List.forall_mem_cons.mp h
    exact strict_through (ih hreplies) hreply

/-! ### Replies that change no text -/

/-- Nothing asks beneath a reply that does not ask. -/
theorem exists_through_give (result : Except RenderError String) (q : Reply) :
    ∃ r, q.through (give result) = give r := by
  induction q with
  | give r => exact ⟨r, rfl⟩
  | ask next ih => exact ih result

theorem handsOn_through {inner q : Reply} (hi : inner.HandsOn) (hq : q.HandsOn) : (q.through inner).HandsOn := by
  cases q with
  | give result => trivial
  | ask next =>
    cases inner with
    | give result =>
      obtain ⟨r, hr⟩ := exists_through_give result (ask next)
      rw [hr]
      trivial
    | ask more =>
      intro text
      show ((ask next).through (ask more)).meaning (.ok text) = .ok text
      rw [meaning_through, hi text, hq text]

/-- Layers that change no text change none as one. -/
theorem handsOn_chain {replies : List (Inclusion → Reply)} {tag : Inclusion}
    (h : ∀ reply ∈ replies, (reply tag).HandsOn) : (chain replies tag).HandsOn := by
  induction replies with
  | nil => exact fun text => rfl
  | cons reply replies ih =>
    obtain ⟨hreply, hreplies⟩ := List.forall_mem_cons.mp h
    exact handsOn_through (ih hreplies) hreply

/-! ## Replies that are followed -/

section

variable {σ : Type} {inner : RenderRun σ String}

theorem follow_andThen (inner : RenderRun σ String) (next : Except RenderError String → Reply) (q : Reply) :
    (q.andThen next).follow inner = (q.follow inner).catchError >>= fun answer => (next answer).follow inner := by
  induction q with
  | give result => cases result <;> rfl
  | ask more ih =>
    have hcatch := Run.catchError_bind_catchError inner fun answer => (more answer).follow inner
    rw [follow, hcatch, bind_assoc]
    exact congrArg _ (funext ih)

/-- To follow a reply through another one is to follow it with the other one beneath. -/
theorem follow_through (inner : RenderRun σ String) (r q : Reply) :
    (q.through r).follow inner = q.follow (r.follow inner) := by
  induction q with
  | give result => cases result <;> rfl
  | ask next ih =>
    rw [through, follow_andThen, follow]
    exact congrArg _ (funext ih)

theorem follow_ask_give (inner : RenderRun σ String) : (ask give).follow inner = inner := by
  refine Run.ext fun w => ?_
  rw [follow, Run.bind_run, Run.catchError_run]
  rcases inner.run w with ⟨(e | a) | text, w₁⟩ <;> rfl

/-- If the layers beneath answer `r` each time, then the reply comes to its meaning. -/
theorem gives_follow {P : World σ → Prop} {r : Rendered} (hi : Gives P inner r) (q : Reply) :
    Gives P (q.follow inner) (q.meaning r) := by
  induction q with
  | give result => cases result <;> exact fun w hw => ⟨rfl, hw⟩
  | ask next ih =>
    intro w hw
    obtain ⟨hr, hw₁⟩ := hi w hw
    have hrun : inner.run w = (r, (inner.run w).2) := Prod.ext hr rfl
    rw [follow, Run.bind_run, Run.catchError_run, hrun]
    rcases r with (e | a) | text
    · exact ih _ _ hw₁
    · exact ⟨rfl, hw₁⟩
    · exact ih _ _ hw₁

theorem Fails.follow {q : Reply} (h : q.Fails) : Run.Yields (q.follow inner) fun _ => False := by
  induction q with
  | give result =>
    cases result with
    | error e =>
      intro w text w' hr
      cases hr
    | ok text => exact h.elim
  | ask next ih => exact (Run.yields_true _).bind fun answer _ => ih answer (h answer)

/-- A strict reply that gives a text was told texts only: if these are `x` and each time the state is kept in `P`, then
the text is what the reply makes of `x`, and the state is in `P` still. -/
theorem follow_of_strict {P : World σ → Prop} {x : String} {q : Reply} (hq : q.Strict)
    (hi : ∀ w text w', P w → inner.run w = (.ok text, w') → text = x ∧ P w') {w w' : World σ} {text : String}
    (hw : P w) (hr : (q.follow inner).run w = (.ok text, w')) : q.meaning (.ok x) = .ok text ∧ P w' := by
  induction q generalizing w with
  | give result =>
    cases result with
    | error e => cases hr
    | ok given =>
      obtain ⟨rfl, rfl⟩ := Run.pure_eq_ok hr
      exact ⟨rfl, hw⟩
  | ask next ih =>
    obtain ⟨answer, w₁, hcaught, hr⟩ := Run.bind_eq_ok hr
    obtain ⟨told, rfl, hinner⟩ | ⟨e, rfl, -⟩ := Run.catchError_eq_ok hcaught
    · obtain ⟨rfl, hw₁⟩ := hi w told w₁ hw hinner
      exact ih _ (hq.1 told) hw₁ hr
    · exact ((hq.2 e).follow w₁ text w' hr).elim

end

end Reply

/-! ## Layers -/

/-- Layers of one's own around a strategy are one reply. -/
theorem runLayers_custom {ω σ : Type} (ctx : Context ω) (tag : Inclusion) (native : RenderRun σ String)
    (replies : List (Inclusion → Reply)) :
    runLayers ctx tag native (replies.map .custom) = (Reply.chain replies tag).follow native := by
  induction replies with
  | nil => exact (Reply.follow_ask_give native).symm
  | cons reply replies ih =>
    rw [List.map_cons, runLayers, ih]
    exact (Reply.follow_through native _ _).symm

namespace Environment

/-- Inclusions are rendered through the cache-aware layer around layers of one's own, outermost first. -/
def cachedOver (replies : List (Inclusion → Reply)) : Environment :=
  ⟨.cacheAware :: replies.map .custom⟩

variable {ω σ : Type} [DataModel ω σ] (replies : List (Inclusion → Reply)) (ctx : Context ω)

theorem expandWithin_cachedOver_zero (tag : Inclusion) :
    (cachedOver replies).expandWithin (σ := σ) ctx 0 tag =
      cacheAware ctx tag
        ((Reply.chain replies tag).follow do .raise (.nestingTooDeep (← Run.look World.includeDepth))) := by
  rw [expandWithin, cachedOver, runLayers, runLayers_custom]

theorem expandWithin_cachedOver_succ (levels : Nat) (tag : Inclusion) :
    (cachedOver replies).expandWithin (σ := σ) ctx (levels + 1) tag =
      cacheAware ctx tag ((Reply.chain replies tag).follow
        (nested id ctx.includeLimit (renderTemplate ctx ((cachedOver replies).expandWithin ctx levels) tag.key))) := by
  rw [expandWithin, cachedOver, runLayers, runLayers_custom]

end Environment

end HybridTemplate
