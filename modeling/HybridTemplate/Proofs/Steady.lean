import HybridTemplate.Object.Scripted
import HybridTemplate.Proofs.Access

/-!
# Steady scripts

A script is steady if its acts have no effects on the registers and answer fixed JSON values. Objects by steady scripts
count their acts and write down the calls, but nothing of this can be told from their answers: they are pure
(`Script.Steady.pureObjects`), in layers or not.
-/

namespace HybridTemplate

open Registers (Handle)

/-- The act has no effects and answers a fixed JSON value. -/
def Act.Steady (act : Act) : Prop :=
  ∃ value, act = .mk [] (.json value)

/-- All acts of the script are steady. -/
structure Script.Steady (s : Script) : Prop where
  actFor? : ∀ member act, s.actFor? member = some act → act.Steady
  output : ∀ act, s.output = some act → act.Steady

namespace Scripted

variable {o : Scripted}

theorem answers_perform (o : Scripted) (member : String) (value : Json) :
    Run.Answers (o.perform member (.mk [] (.json value))) (.ok (.json value)) := by
  intro w
  rw [perform]
  rcases o.registers with _ | h
  · exact ⟨rfl, fun _ => rfl⟩
  · refine ⟨rfl, fun k => ?_⟩
    by_cases hk : k = h
    · subst hk
      exact Bank.get_modify_self _ _ _
    · exact Bank.get_modify_of_ne _ _ hk

theorem answers_invoke (hs : o.script.Steady) (member : String) :
    ∃ r, Run.Answers (o.invoke member) r ∧ ∀ o', r ≠ .ok (.object o') := by
  rcases ha : o.script.actFor? member with _ | act
  · refine ⟨.error (.error (.object member "no such member")), fun w => ?_, fun o' h => by cases h⟩
    simp only [invoke, ha]
    exact ⟨rfl, fun _ => rfl⟩
  · obtain ⟨value, rfl⟩ := hs.actFor? member act ha
    refine ⟨.ok (.json value), fun w => ?_, fun o' h => by cases h⟩
    simp only [invoke, ha]
    exact o.answers_perform member value _

theorem answers_toOutput (hs : o.script.Steady) : ∃ r, Run.Answers o.toOutput r := by
  rw [toOutput]
  rcases o.script.height with _ | n
  · exact ⟨_, fun w => ⟨rfl, fun _ => rfl⟩⟩
  · rw [outputWithin]
    split
    · exact ⟨_, fun w => ⟨rfl, fun _ => rfl⟩⟩
    · rcases ha : o.script.output with _ | act
      · exact ⟨.ok "", fun w => ⟨rfl, fun _ => rfl⟩⟩
      · obtain ⟨value, rfl⟩ := hs.output act ha
        refine ⟨.ok value.render, fun w => ?_⟩
        obtain ⟨hr, hk⟩ := o.answers_perform "to_output" value (o.call "to_output" w)
        rw [Run.bind_run_of_ok (Run.modify_run _ _), Run.bind_run_of_ok (Prod.ext hr rfl)]
        exact ⟨rfl, hk⟩

/-- Objects by steady scripts are pure. -/
theorem pureObjects : PureObjects fun o : Scripted => o.script.Steady where
  invoke o ho member := by
    obtain ⟨r, hr, hne⟩ := answers_invoke ho member
    exact ⟨r, hr, fun o' h => absurd h (hne o')⟩
  toOutput o ho := answers_toOutput ho

end Scripted

/-- A context whose objects are by steady scripts is pure, and only the outputs of decorated variables touch the
registers. -/
theorem Context.pure_of_steady {ctx : Context Scripted} (h : ∀ name, (ctx.lookup name).In fun o => o.script.Steady) :
    ctx.Pure ∧ ∀ v, ctx.Touches v → ctx.Decorated v.name := by
  refine ⟨⟨_, Scripted.pureObjects, h⟩, fun v hv => ?_⟩
  refine decorated_of_touches Scripted.pureObjects h ?_ hv
  intro o ho key o' ha
  obtain ⟨r, hr, hne⟩ := Scripted.answers_invoke ho key
  obtain ⟨w, -⟩ := hv
  exact absurd ((hr w).1.symm.trans (ha w).1) (hne o')

/-! ## A sample site -/

namespace Sample

/-- An object with a name. -/
def script (name : String) : Script :=
  .mk "user" [("name", .mk [] (.json (.string name)))] none none 0 none false

theorem steady_script (name : String) : (script name).Steady where
  actFor? member act h := by
    rw [script, Script.actFor?, Option.or_none, List.lookup_cons] at h
    split at h
    · cases h
      exact ⟨_, rfl⟩
    · cases h
  output act h := by
    cases h

/-- The object in a layer that knows the registers of the site. -/
def user (name : String) : DataObject Scripted :=
  .uncacheable (.bare { script := script name, cell := 0, registers := some ⟨0⟩ }) (some ⟨0⟩)

/-- A title that is plain data, and a user that is decorated. -/
def context (name : String) : Context Scripted :=
  (({ registers := ⟨0⟩, includeLimit := 8 } : Context Scripted).assign "title" (.json (.string "Home"))).assign "user"
    (.object (user name))

theorem lookup_context (name key : String) : (context name).lookup key =
    if key = "user" then .object (user name) else if key = "title" then .json (.string "Home") else .null := by
  simp only [context, Context.lookup, Context.assign, NameMap.get?_insert]
  split
  · rfl
  · split <;> rfl

theorem decorated_user (name : String) : (context name).Decorated "user" :=
  ⟨user name, lookup_context name "user", Or.inl rfl⟩

theorem pure_context (name : String) :
    (context name).Pure ∧ ∀ v, (context name).Touches v → (context name).Decorated v.name := by
  refine Context.pure_of_steady fun key => ?_
  rw [lookup_context]
  split
  · rintro o ⟨⟩
    exact steady_script name
  · split <;> (rintro o ⟨⟩)

/-- A row greets the user and ends in the same way as the page. The page has no news. -/
def texts : String → Option String
  | "row" => some "Hi \x7b\x7b user.name \x7d\x7d\x7b% include 'foot' %\x7d"
  | "foot" => some "!"
  | "news" => some "None."
  | _ => none

/-- The site before any render. -/
def world : World Heap :=
  { registers := {}, log := [], objects := {}, source := .ofLookup texts, includeDepth := 0 }

/-- The page. -/
def page : Template :=
  ⟨[.output ⟨"title", []⟩, .text ": ", .inclusion ⟨" ", '\'', "row"⟩, .inclusion ⟨" ", '\'', "foot"⟩]⟩

/-- A page that names the user ahead of the row. -/
def greeting : Template :=
  ⟨[.output ⟨"user", ["name"]⟩, .inclusion ⟨" ", '\'', "row"⟩]⟩

/-- What a precompilation makes of the page. -/
def precompiled (name : String) : Precompiled :=
  { source := "Home: \x7b% include 'row' %\x7d!"
    artifacts := {
      templates := .ofList [("foot", "!"), ("row", "Hi \x7b\x7b user.name \x7d\x7d\x7b% include 'foot' %\x7d")]
      renderedResults := .ofList [("row", "Hi " ++ name ++ "!")] } }

end Sample

end HybridTemplate
