import HybridTemplate.Source.Basic
import HybridTemplate.Template.Error

/-!
# Errors of a render

`RenderError` gathers what can go wrong while a template is rendered, and `RenderError.message` says it in words.
-/

namespace HybridTemplate

/-- Why a render fails. -/
inductive RenderError where
  /-- The source of an included template has a fault. -/
  | parse (e : ParseError)
  /-- The source of an included template cannot be read. -/
  | source (e : SourceError)
  /-- A data object failed on one of its members. -/
  | object (member message : String)
  /-- An inclusion at this depth would pass the limit. -/
  | nestingTooDeep (depth : Nat)
deriving DecidableEq, Repr

/-- The error in words. -/
def RenderError.message : RenderError → String
  | parse e => "parse error: " ++ e.message
  | source e => e.message
  | object member message => "data object failed on `" ++ member ++ "`: " ++ message
  | nestingTooDeep depth => "include nesting too deep (depth " ++ toString depth ++ ")"

end HybridTemplate
