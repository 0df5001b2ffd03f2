import HybridTemplate.Template.Piece

/-!
# Faults in template source

`ParseError` names what is wrong with a template source, `ParseError.message` says it in words, and `ParseError.shift`
is the same fault seen from a longer source: only a position moves.
-/

namespace HybridTemplate

/-- What is wrong with a template source. -/
inductive ParseError where
  /-- Nothing closes the markup that opens at this byte. -/
  | unclosed (delimiter : Delimiter) (offset : Nat)
  /-- A tag begins with this word, which names no tag. -/
  | unknownTag (name : String)
  /-- An `include` is not followed by one quoted name. -/
  | invalidInclusion (markup : String)
  /-- An output is no path of names. -/
  | invalidVariable (markup : String)
deriving DecidableEq, Repr

namespace ParseError

/-- The fault in words. -/
def message : ParseError → String
  | unclosed .output offset => "output opened at byte " ++ toString offset ++ " is not closed with `\x7d\x7d`"
  | unclosed .tag offset => "tag opened at byte " ++ toString offset ++ " is not closed with `%\x7d`"
  | unknownTag name => "unknown tag `" ++ name ++ "`"
  | invalidInclusion markup => "invalid include markup `" ++ markup ++ "`: expected a quoted template name"
  | invalidVariable markup => "invalid variable `" ++ markup ++ "`"

/-- The fault after `n` more bytes stand in front of the source. -/
def shift (n : Nat) : ParseError → ParseError
  | unclosed d offset => unclosed d (n + offset)
  | e => e

end ParseError

end HybridTemplate
