import HybridTemplate.Template.Node

/-!
# Templates

A `Template` is a list of nodes. `Template.parse` reads one from its source, `Template.emit` writes it as source, and
`Template.inclusions` lists the tags that include other templates.
-/

namespace HybridTemplate

/-- A template as it is rendered: its nodes in order. -/
structure Template where
  nodes : List Node
deriving DecidableEq, Repr

namespace Template

/-- The template that a source writes, or the leftmost fault in it. -/
def parse (source : String) : Except ParseError Template :=
  match Node.ofPieces 0 (Piece.ofSource source.toList) with
  | .error e => .error e
  | .ok nodes => .ok ⟨nodes⟩

theorem parse_eq_map (source : String) :
    parse source = (Node.ofPieces 0 (Piece.ofSource source.toList)).map mk := by
  rw [parse]
  cases Node.ofPieces 0 (Piece.ofSource source.toList) <;> rfl

/-- The inclusions of a template, in order. -/
def inclusions (t : Template) : List Inclusion :=
  t.nodes.filterMap fun
    | .inclusion i => some i
    | _ => none

/-- The template as source. -/
def emit (t : Template) : String :=
  String.ofList (t.nodes.flatMap Node.emit)

end Template

end HybridTemplate
