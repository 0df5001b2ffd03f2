/-!
# Cutting template source into pieces

Template source is plain text with markup in it: outputs `{{ … }}` and tags `{% … %}`.

* `scan` — reads the source once, character by character, and cuts it into `Piece`s: a text goes up to the next
  opening delimiter, a markup from there up to the first delimiter that closes it, and a markup that nothing closes
  takes the rest;
* `source_ofSource` — the pieces, written one after the other, are the source: nothing is lost and nothing overlaps.

What a piece means is decided in `Template.Node`.
-/

namespace HybridTemplate

/-- The two kinds of markup. -/
inductive Delimiter where
  | output
  | tag
deriving DecidableEq, Repr

namespace Delimiter

/-- The two characters that open a markup. -/
def opening : Delimiter → List Char
  | output => ['{', '{']
  | tag => ['{', '%']

/-- The two characters that close a markup. -/
def closing : Delimiter → List Char
  | output => ['}', '}']
  | tag => ['%', '}']

/-- The markup that two adjacent characters open. -/
def opened? (a b : Char) : Option Delimiter :=
  if a = '{' then
    if b = '{' then some output else if b = '%' then some tag else none
  else none

/-- Whether two adjacent characters close a markup. -/
def isClosedBy (d : Delimiter) (a b : Char) : Bool :=
  [a, b] == d.closing

theorem opening_of_opened? {a b : Char} {d : Delimiter} (h : opened? a b = some d) : d.opening = [a, b] := by
  unfold opened? at h
  split at h
  · split at h
    · cases h; simp_all [opening]
    · split at h
      · cases h; simp_all [opening]
      · cases h
  · cases h

theorem opened?_opening (d : Delimiter) : ∃ a b, d.opening = [a, b] ∧ opened? a b = some d := by
  cases d
  · exact ⟨'{', '{', rfl, rfl⟩
  · exact ⟨'{', '%', rfl, rfl⟩

theorem closing_of_isClosedBy {d : Delimiter} {a b : Char} (h : d.isClosedBy a b = true) : d.closing = [a, b] :=
  (eq_of_beq h).symm

end Delimiter

/-- A stretch of template source. -/
inductive Piece where
  /-- Characters outside all markup. -/
  | text (content : List Char)
  /-- A markup with what stands between its delimiters. -/
  | markup (delimiter : Delimiter) (body : List Char)
  /-- A markup that nothing closes, with all that follows its opening. -/
  | unclosed (delimiter : Delimiter) (body : List Char)
deriving DecidableEq, Repr

namespace Piece

/-- The characters that a piece was cut from. -/
def source : Piece → List Char
  | text content => content
  | markup d body => d.opening ++ body ++ d.closing
  | unclosed d body => d.opening ++ body

/-- Where the scan stands; the characters met since are kept latest first. -/
inductive Mode where
  | outside (met : List Char)
  | inside (delimiter : Delimiter) (met : List Char)

/-- The characters that the scan has read and not yet put into a piece. -/
def Mode.source : Mode → List Char
  | outside met => met.reverse
  | inside d met => d.opening ++ met.reverse

/-- The text that ends here, unless it is empty. -/
def flush : List Char → List Piece
  | [] => []
  | met => [text met.reverse]

/-- The pieces of the source from here on. -/
def scan : Mode → List Char → List Piece
  | .outside met, [] => flush met
  | .outside met, [a] => flush (a :: met)
  | .outside met, a :: b :: rest =>
    match Delimiter.opened? a b with
    | some d => flush met ++ scan (.inside d []) rest
    | none => scan (.outside (a :: met)) (b :: rest)
  | .inside d met, [] => [unclosed d met.reverse]
  | .inside d met, [a] => [unclosed d (a :: met).reverse]
  | .inside d met, a :: b :: rest =>
    if d.isClosedBy a b then markup d met.reverse :: scan (.outside []) rest
    else scan (.inside d (a :: met)) (b :: rest)

/-- The pieces of a template source. -/
def ofSource (cs : List Char) : List Piece :=
  scan (.outside []) cs

/-! ## The pieces tile the source -/

theorem flatMap_source_flush (met : List Char) : (flush met).flatMap source = met.reverse := by
  cases met <;> simp [flush, source]

theorem flatMap_source_scan (m : Mode) (cs : List Char) : (scan m cs).flatMap source = m.source ++ cs := by
  fun_induction scan m cs with
  | case1 met => simp [flatMap_source_flush, Mode.source]
  | case2 met a => simp [flatMap_source_flush, Mode.source]
  | case3 met a b rest d h ih =>
    simp [List.flatMap_append, flatMap_source_flush, ih, Mode.source, Delimiter.opening_of_opened? h]
  | case4 met a b rest h ih => simp [ih, Mode.source]
  | case5 d met => simp [source, Mode.source]
  | case6 d met a => simp [source, Mode.source]
  | case7 d met a b rest h ih => simp [ih, source, Mode.source, Delimiter.closing_of_isClosedBy h]
  | case8 d met a b rest h ih => simp [ih, Mode.source]

/-- The pieces, one after the other, are the source. -/
theorem source_ofSource (cs : List Char) : (ofSource cs).flatMap source = cs := by
  simp [ofSource, flatMap_source_scan, Mode.source]

end Piece

end HybridTemplate
