import HybridTemplate.Render.Strategy

/-!
# Layers of one's own

Some layers that change, repeat or replace the text of an inclusion: `Layer.annotated`, `Layer.twice` and
`Layer.lenient`.
-/

namespace HybridTemplate

namespace Reply

/-- Asks once and gives what `onText` makes of the text; errors pass. -/
def onText (next : String → Reply) : Reply :=
  .ask fun
    | .ok text => next text
    | .error e => .give (.error e)

end Reply

namespace Layer

/-- Puts the text of an inclusion into an element that is named for the template. -/
def annotated : Layer :=
  .custom fun tag => .onText fun text => .give (.ok ("<" ++ tag.key ++ ">" ++ text ++ "</>"))

/-- Renders an inclusion twice and joins the texts. -/
def twice : Layer :=
  .custom fun _ => .onText fun first => .onText fun second => .give (.ok (first ++ second))

/-- Gives a text in place of an error. -/
def lenient (describe : RenderError → String) : Layer :=
  .custom fun _ => .ask fun
    | .ok text => .give (.ok text)
    | .error e => .give (.ok (describe e))

end Layer

end HybridTemplate
