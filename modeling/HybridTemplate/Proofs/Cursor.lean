import HybridTemplate.Proofs.Grammar
import HybridTemplate.Text.Slice

/-!
# Reading a source by byte positions

A template source can be read with nothing but a byte position: from there on the next markup is searched, its text is
sliced out, and the position moves behind it. `Cursor.round?` is one such round, in which every slice is checked. It has
no result if a slice is out of range or begins or ends inside a character.

* `Cursor.Ahead` — what stands at a position of a source: text to the end, a markup that is not closed, or a markup;
* `Cursor.At` — where the loop stands: what is behind the position are the first pieces of the source, and what is ahead
  is cut by itself. One round keeps it (`At.exists_round`), and so it holds wherever the loop comes
  (`Reaches.exists_at`);
* `Cursor.loop_in_range` — no slice is ever out of range, each markup takes at least four bytes, the pieces tile the
  source, and the loop ends with what `Template.parse` answers.
-/

namespace HybridTemplate

namespace Cursor

open Text Grammar

/-! ## The loop -/

/-- The byte at which the next markup opens, whichever of the two comes first. -/
def nextMarkup? (rest : List Char) : Option Nat :=
  match find? Delimiter.output.opening rest, find? Delimiter.tag.opening rest with
  | some a, some b => some (min a b)
  | some a, none => some a
  | none, b => b

/-- What one round makes of the source from its position on. -/
inductive Round where
  /-- No markup opens any more, and the rest is text. -/
  | last (rest : String)
  /-- The text before a markup, unless it is empty, the markup with its node, and the position behind it. -/
  | next (texts : List String) (delimiter : Delimiter) (body : String) (node : Node) (pos : Nat)
  /-- The first fault of the source. -/
  | fault (e : ParseError)

/-- The text before a markup that opens at byte `start`, unless it is empty. -/
def textBefore? (rest : String) (start : Nat) : Option (List String) :=
  if 0 < start then (slice? rest 0 start).map ([·]) else some []

/-- One round of the loop from byte `pos` on; none if a slice is out of range or cuts through a character. -/
def round? (source : String) (pos : Nat) : Option Round := do
  let rest ← slice? source pos source.utf8ByteSize
  match nextMarkup? rest.toList with
  | none => return .last rest
  | some start =>
    let texts ← textBefore? rest start
    let offset := pos + start
    let opened ← slice? rest start rest.utf8ByteSize
    let delimiter := if Delimiter.output.opening <+: opened.toList then Delimiter.output else .tag
    let inner ← slice? opened 2 opened.utf8ByteSize
    match find? delimiter.closing inner.toList with
    | none => return .fault (.unclosed delimiter offset)
    | some length =>
      let body ← slice? opened 2 (2 + length)
      match Node.ofMarkup delimiter body.toList with
      | .error e => return .fault e
      | .ok node => return .next texts delimiter body node (offset + 2 + length + 2)

/-- The loop from byte `pos` on, with the nodes so far; none if a round has no result or if the loop does not end within
the rounds. -/
def loop? (source : String) : Nat → Nat → List Node → Option (Except ParseError (List Node))
  | 0, pos, nodes => if pos < source.utf8ByteSize then none else some (.ok nodes)
  | rounds + 1, pos, nodes =>
    if pos < source.utf8ByteSize then
      match round? source pos with
      | none => none
      | some (.last rest) => some (.ok (nodes ++ [.text rest]))
      | some (.fault e) => some (.error e)
      | some (.next texts _ _ node pos) => loop? source rounds pos (nodes ++ (texts.map .text ++ [node]))
    else some (.ok nodes)

/-- The pieces that a round with a markup goes through. -/
def pieces (texts : List String) (d : Delimiter) (body : String) : List Piece :=
  texts.map (fun s => .text s.toList) ++ [.markup d body.toList]

/-- The loop begins a round at byte `pos`, or ends there, after it has met these pieces. -/
inductive Reaches (source : String) : Nat → List Piece → Prop
  | start : Reaches source 0 []
  | next {pos pos' : Nat} {met : List Piece} {texts : List String} {d : Delimiter} {body : String} {node : Node}
      (h : Reaches source pos met) (hpos : pos < source.utf8ByteSize)
      (hround : round? source pos = some (.next texts d body node pos')) :
      Reaches source pos' (met ++ pieces texts d body)

/-- The bytes from `i` up to `j` are those of the pieces, one after the other. -/
inductive Tiles (source : String) : Nat → List Piece → Nat → Prop
  | nil {i : Nat} : Tiles source i [] i
  | cons {i j k : Nat} {p : Piece} {ps : List Piece} (hp : slice? source i j = some (String.ofList p.source))
      (h : Tiles source j ps k) : Tiles source i (p :: ps) k

/-- The quoted name in the body of a tag: what stands behind the word `include`, without blanks around it. -/
def quotedName (body : List Char) : String :=
  String.ofList (trim ((trim body).drop Inclusion.word.length))

/-! ## Searching -/

theorem find?_of_prefix {mark cs : List Char} (h : mark <+: cs) : find? mark cs = some 0 := by
  cases cs with
  | nil => rw [find?, if_pos (List.prefix_nil.mp h)]
  | cons c cs => rw [find?, if_pos h]

/-- The search goes through a text in which the mark does not begin. -/
theorem find?_append {mark cs after : List Char} (h : NoneBegins [mark] cs after) :
    find? mark (cs ++ after) = (find? mark after).map (utf8Length cs + ·) := by
  induction cs with
  | nil => simp
  | cons c cs ih =>
    have hhead : ¬mark <+: c :: (cs ++ after) := h [] (c :: cs) rfl (List.cons_ne_nil c cs) mark (by simp)
    have htail : NoneBegins [mark] cs after := by
      rintro pre post rfl hne mark hm
      exact h (c :: pre) post rfl hne mark hm
    rw [List.cons_append, find?, if_neg hhead, ih htail, Option.map_map, utf8Length_cons]
    congr 1
    funext n
    exact (Nat.add_assoc _ _ _).symm

theorem find?_closing {d : Delimiter} {body after : List Char} (h : NoneBegins [d.closing] body (d.closing ++ after)) :
    find? d.closing (body ++ (d.closing ++ after)) = some (utf8Length body) := by
  rw [find?_append h, find?_of_prefix (List.prefix_append _ _)]
  rfl

theorem find?_eq_none {mark cs : List Char} (hne : mark ≠ []) (h : NoneBegins [mark] cs []) : find? mark cs = none := by
  rw [← List.append_nil cs, find?_append h, find?, if_neg hne]
  rfl

theorem noneBegins_of_mem {marks : List (List Char)} {cs after mark : List Char} (h : NoneBegins marks cs after)
    (hm : mark ∈ marks) : NoneBegins [mark] cs after := by
  intro pre post hcs hne mark' hm'
  obtain rfl := List.mem_singleton.mp hm'
  exact h pre post hcs hne _ hm

theorem nextMarkup?_eq_none {cs : List Char} (h : NoneBegins openings cs []) : nextMarkup? cs = none := by
  have hnone : ∀ mark ∈ openings, mark ≠ [] → find? mark cs = none := fun mark hm hne =>
    find?_eq_none hne (noneBegins_of_mem h hm)
  rw [nextMarkup?, hnone _ (by decide) (by decide), hnone _ (by decide) (by decide)]

theorem nextMarkup?_append {d : Delimiter} {content inner : List Char}
    (h : NoneBegins openings content (d.opening ++ inner)) :
    nextMarkup? (content ++ (d.opening ++ inner)) = some (utf8Length content) := by
  have hopens : find? d.opening (d.opening ++ inner) = some 0 := find?_of_prefix (List.prefix_append _ _)
  rw [nextMarkup?, find?_append (noneBegins_of_mem h (by decide)), find?_append (noneBegins_of_mem h (by decide))]
  cases d with
  | output =>
    rw [hopens]
    cases find? Delimiter.tag.opening (Delimiter.output.opening ++ inner) <;> simp
  | tag =>
    rw [hopens]
    cases find? Delimiter.output.opening (Delimiter.tag.opening ++ inner) <;> simp

/-! ## What stands at a position -/

/-- The text before a markup, unless it is empty. -/
def textOf (content : List Char) : List String :=
  if content = [] then [] else [String.ofList content]

/-- The pieces that a round which starts with this text goes through, and those behind. -/
theorem cut_textOf {content rest : List Char} {ps : List Piece} (hfree : NoneBegins openings content rest)
    (hend : ∃ mark ∈ openings, mark <+: rest) (h : Cut rest ps) :
    Cut (content ++ rest) ((textOf content).map (fun s => .text s.toList) ++ ps) := by
  rw [textOf]
  split
  · rename_i hnil
    subst hnil
    exact h
  · rename_i hne
    rw [List.map_singleton, String.toList_ofList]
    exact .text hne hfree (.inr hend) h

theorem opening_begins (d : Delimiter) (inner : List Char) : ∃ mark ∈ openings, mark <+: d.opening ++ inner :=
  ⟨d.opening, by cases d <;> simp [openings], List.prefix_append _ _⟩

/-- What is ahead in a source, by the markup that opens next. -/
inductive Ahead : List Char → Prop
  | text {cs : List Char} (hfree : NoneBegins openings cs []) : Ahead cs
  | unclosed {content inner : List Char} {d : Delimiter} (hfree : NoneBegins openings content (d.opening ++ inner))
      (hnone : NoneBegins [d.closing] inner []) : Ahead (content ++ (d.opening ++ inner))
  | markup {content body after : List Char} {d : Delimiter}
      (hfree : NoneBegins openings content (d.opening ++ (body ++ (d.closing ++ after))))
      (hfirst : NoneBegins [d.closing] body (d.closing ++ after)) :
      Ahead (content ++ (d.opening ++ (body ++ (d.closing ++ after))))

theorem noneBegins_nil (marks : List (List Char)) (after : List Char) : NoneBegins marks [] after := by
  intro pre post hnil hne
  exact absurd (List.append_eq_nil_iff.mp hnil.symm).2 hne

/-- Where a cut begins with a markup, that is what is ahead, behind any text. -/
theorem ahead_of_opening (content : List Char) {rest : List Char} {ps : List Piece}
    (hfree : NoneBegins openings content rest) (hopens : ∃ mark ∈ openings, mark <+: rest) (h : Cut rest ps) :
    Ahead (content ++ rest) := by
  cases h with
  | nil =>
    obtain ⟨mark, hm, hprefix⟩ := hopens
    rw [List.prefix_nil.mp hprefix] at hm
    exact absurd hm (by decide)
  | @text content' rest' _ hne hfree' =>
    obtain ⟨mark, hm, hprefix⟩ := hopens
    exact absurd hprefix (hfree' [] content' rfl hne mark hm)
  | @markup d body after _ hfirst _ =>
    rw [List.append_assoc, List.append_assoc] at hfree ⊢
    exact .markup hfree hfirst
  | unclosed hnone => exact .unclosed hfree hnone

/-- One of the three stands at any position. -/
theorem Ahead.exhaustive (cs : List Char) : Ahead cs := by
  have hcut : Cut cs (Piece.ofSource cs) := cut_iff.mpr rfl
  by_cases hopens : ∃ mark ∈ openings, mark <+: cs
  · exact ahead_of_opening [] (noneBegins_nil _ _) hopens hcut
  generalize Piece.ofSource cs = ps at hcut
  cases hcut with
  | nil => exact .text (noneBegins_nil _ _)
  | @text content rest _ hne hfree hend h =>
    rcases hend with rfl | hopens
    · rw [List.append_nil]
      exact .text hfree
    · exact ahead_of_opening content hfree hopens h
  | @markup d body rest =>
    rw [List.append_assoc, List.append_assoc] at hopens
    exact absurd (opening_begins d _) hopens
  | @unclosed d body => exact absurd (opening_begins d body) hopens

section

variable {content inner body after : List Char} {d : Delimiter}

theorem ofSource_text {cs : List Char} (hne : cs ≠ []) (hfree : NoneBegins openings cs []) :
    Piece.ofSource cs = [.text cs] := by
  have hcut := Cut.text hne hfree (.inl rfl) .nil
  rw [List.append_nil] at hcut
  exact hcut.eq_ofSource.symm

theorem ofSource_unclosed (hfree : NoneBegins openings content (d.opening ++ inner))
    (hnone : NoneBegins [d.closing] inner []) : Piece.ofSource (content ++ (d.opening ++ inner)) =
      (textOf content).map (fun s => .text s.toList) ++ [.unclosed d inner] :=
  (cut_textOf hfree (opening_begins d inner) (.unclosed hnone)).eq_ofSource.symm

theorem ofSource_markup (hfree : NoneBegins openings content (d.opening ++ (body ++ (d.closing ++ after))))
    (hfirst : NoneBegins [d.closing] body (d.closing ++ after)) :
    Piece.ofSource (content ++ (d.opening ++ (body ++ (d.closing ++ after)))) =
      (textOf content).map (fun s => .text s.toList) ++ .markup d body :: Piece.ofSource after := by
  have hcut := Cut.markup hfirst (cut_iff.mpr rfl)
  rw [List.append_assoc, List.append_assoc] at hcut
  exact (cut_textOf hfree (opening_begins d _) hcut).eq_ofSource.symm

end

/-! ## One round -/

/-- The loop stands behind the first pieces of a source; what is ahead is cut by itself. -/
structure At (source : String) (pos : Nat) (met : List Piece) (cs : List Char) : Prop where
  split : source.toList = met.flatMap Piece.source ++ cs
  pos : utf8Length (met.flatMap Piece.source) = pos
  ahead : Piece.ofSource source.toList = met ++ Piece.ofSource cs

section

variable {source : String} {pos : Nat} {met : List Piece} {cs content inner body after : List Char} {d : Delimiter}

theorem At.start (source : String) : At source 0 [] source.toList :=
  ⟨rfl, rfl, rfl⟩

theorem At.size (h : At source pos met cs) : source.utf8ByteSize = pos + utf8Length cs := by
  rw [← utf8Length_toList, h.split, utf8Length_append, h.pos]

theorem At.rest (h : At source pos met cs) :
    slice? source pos source.utf8ByteSize = some (String.ofList cs) :=
  slice?_of_toList _ cs [] (by rw [h.split, List.append_nil]) h.pos h.size.symm

theorem utf8Length_opening (d : Delimiter) : utf8Length d.opening = 2 := by
  cases d <;> rfl

theorem utf8Length_closing (d : Delimiter) : utf8Length d.closing = 2 := by
  cases d <;> rfl

theorem textBefore?_append (content rest : List Char) :
    textBefore? (String.ofList (content ++ rest)) (utf8Length content) = some (textOf content) := by
  have hslice : slice? (String.ofList (content ++ rest)) 0 (utf8Length content) = some (String.ofList content) :=
    slice?_of_toList [] content rest (by simp) rfl (Nat.zero_add _)
  rw [textBefore?, textOf]
  by_cases hne : content = []
  · rw [if_neg (by simp [hne]), if_pos hne]
  · rw [if_pos (utf8Length_pos hne), if_neg hne, hslice]
    rfl

/-- Without a markup ahead, the rest is text. -/
theorem At.round?_text (h : At source pos met cs) (hfree : NoneBegins openings cs []) :
    round? source pos = some (.last (String.ofList cs)) := by
  rw [round?, h.rest]
  simp only [Option.bind_eq_bind, Option.bind_some, String.toList_ofList, nextMarkup?_eq_none hfree]
  rfl

/-- Where a markup opens ahead, the round slices out the text before it and searches for its end. -/
theorem At.round?_opening (h : At source pos met (content ++ (d.opening ++ inner)))
    (hfree : NoneBegins openings content (d.opening ++ inner)) :
    round? source pos = match find? d.closing inner with
      | none => some (.fault (.unclosed d (pos + utf8Length content)))
      | some length => do
        let body ← slice? (String.ofList (d.opening ++ inner)) 2 (2 + length)
        match Node.ofMarkup d body.toList with
        | .error e => return .fault e
        | .ok node => return .next (textOf content) d body node (pos + utf8Length content + 2 + length + 2) := by
  have htexts := textBefore?_append content (d.opening ++ inner)
  have hopened : slice? (String.ofList (content ++ (d.opening ++ inner))) (utf8Length content)
      (String.ofList (content ++ (d.opening ++ inner))).utf8ByteSize = some (String.ofList (d.opening ++ inner)) :=
    slice?_of_toList content _ [] (by simp) rfl (by rw [utf8ByteSize_ofList, utf8Length_append content])
  have hinner : slice? (String.ofList (d.opening ++ inner)) 2 (String.ofList (d.opening ++ inner)).utf8ByteSize =
      some (String.ofList inner) :=
    slice?_of_toList d.opening inner [] (by simp) (utf8Length_opening d)
      (by rw [utf8ByteSize_ofList, utf8Length_append, utf8Length_opening])
  have hdelimiter : (if Delimiter.output.opening <+: d.opening ++ inner then Delimiter.output else .tag) = d := by
    cases d <;> simp [Delimiter.opening]
  rw [round?, h.rest]
  simp only [Option.bind_eq_bind, Option.bind_some, String.toList_ofList, nextMarkup?_append hfree, htexts, hopened,
    hinner, hdelimiter]
  rfl

/-- A markup that nothing closes is the fault. -/
theorem At.round?_unclosed (h : At source pos met (content ++ (d.opening ++ inner)))
    (hfree : NoneBegins openings content (d.opening ++ inner)) (hnone : NoneBegins [d.closing] inner []) :
    round? source pos = some (.fault (.unclosed d (pos + utf8Length content))) := by
  have hclosing : d.closing ≠ [] := by cases d <;> exact List.cons_ne_nil _ _
  rw [h.round?_opening hfree, find?_eq_none hclosing hnone]

/-- A markup is read, and the loop goes on behind it. -/
theorem At.round?_markup (h : At source pos met (content ++ (d.opening ++ (body ++ (d.closing ++ after)))))
    (hfree : NoneBegins openings content (d.opening ++ (body ++ (d.closing ++ after))))
    (hfirst : NoneBegins [d.closing] body (d.closing ++ after)) :
    round? source pos = some (match Node.ofMarkup d body with
      | .error e => .fault e
      | .ok node => .next (textOf content) d (String.ofList body) node
          (pos + utf8Length content + 2 + utf8Length body + 2)) := by
  have hbody : slice? (String.ofList (d.opening ++ (body ++ (d.closing ++ after)))) 2 (2 + utf8Length body) =
      some (String.ofList body) :=
    slice?_of_toList d.opening body (d.closing ++ after) (by simp) (utf8Length_opening d) rfl
  rw [h.round?_opening hfree, find?_closing hfirst]
  simp only [hbody, Option.bind_eq_bind, Option.bind_some, String.toList_ofList]
  cases Node.ofMarkup d body <;> rfl

/-- Behind the markup the loop stands again. -/
theorem At.next (h : At source pos met (content ++ (d.opening ++ (body ++ (d.closing ++ after)))))
    (hfree : NoneBegins openings content (d.opening ++ (body ++ (d.closing ++ after))))
    (hfirst : NoneBegins [d.closing] body (d.closing ++ after)) :
    At source (pos + utf8Length content + 2 + utf8Length body + 2)
      (met ++ pieces (textOf content) d (String.ofList body)) after := by
  have hpieces : (pieces (textOf content) d (String.ofList body)).flatMap Piece.source =
      content ++ (d.opening ++ (body ++ d.closing)) := by
    rw [pieces, textOf]
    split <;> simp_all [Piece.source]
  refine ⟨?_, ?_, ?_⟩
  · rw [List.flatMap_append, hpieces, h.split]
    simp
  · rw [List.flatMap_append, hpieces, utf8Length_append, h.pos]
    simp [utf8Length_opening, utf8Length_closing]
    omega
  · rw [h.ahead, ofSource_markup hfree hfirst, pieces]
    simp

/-- What a round leads to: the end of the source, a place behind a markup at least four bytes on, or a fault. -/
inductive Outcome (source : String) (pos : Nat) (met : List Piece) (cs : List Char) : Round → Prop
  | last : Outcome source pos met cs (.last (String.ofList cs))
  | next {ts : List String} {d : Delimiter} {body : String} {node : Node} {pos' : Nat} {after : List Char}
      (hat : At source pos' (met ++ pieces ts d body) after) (hmoves : pos + 4 ≤ pos')
      (hnode : Node.ofMarkup d body.toList = .ok node) : Outcome source pos met cs (.next ts d body node pos')
  | fault {e : ParseError} : Outcome source pos met cs (.fault e)

/-- Every round has a result, so none of its slices is out of range. -/
theorem At.exists_round (h : At source pos met cs) :
    ∃ round, round? source pos = some round ∧ Outcome source pos met cs round := by
  cases Ahead.exhaustive cs with
  | text hfree => exact ⟨_, h.round?_text hfree, .last⟩
  | unclosed hfree hnone => exact ⟨_, h.round?_unclosed hfree hnone, .fault⟩
  | @markup content body after d hfree hfirst =>
    refine ⟨_, h.round?_markup hfree hfirst, ?_⟩
    cases hnode : Node.ofMarkup d body with
    | error e => exact .fault
    | ok node => exact .next (h.next hfree hfirst) (by omega) (by rw [String.toList_ofList, hnode])

theorem At.outcome (h : At source pos met cs) {round : Round} (hround : round? source pos = some round) :
    Outcome source pos met cs round := by
  obtain ⟨round', hround', houtcome⟩ := h.exists_round
  rw [hround] at hround'
  cases hround'
  exact houtcome

/-- The loop never comes to any other place. -/
theorem Reaches.exists_at (h : Reaches source pos met) : ∃ cs, At source pos met cs := by
  induction h with
  | start => exact ⟨_, At.start source⟩
  | next _ _ hround ih =>
    obtain ⟨cs, h⟩ := ih
    cases h.outcome hround with
    | next hat => exact ⟨_, hat⟩

end

/-! ## The whole loop -/

/-- The text before a markup is read as it is. -/
theorem ofPieces_textOf (offset : Nat) (content : List Char) (ps : List Piece) :
    Node.ofPieces offset ((textOf content).map (fun s => .text s.toList) ++ ps) =
      (Node.ofPieces (offset + utf8Length content) ps).map ((textOf content).map Node.text ++ ·) := by
  rw [textOf]
  split
  · rename_i hnil
    subst hnil
    cases h : Node.ofPieces offset ps <;> simp [h, Except.map]
  · simp only [List.map_singleton, List.singleton_append, String.toList_ofList, Node.ofPieces, Node.ofPiece,
      Piece.source]
    cases Node.ofPieces (offset + utf8Length content) ps <;> rfl

theorem ofPieces_markup (offset : Nat) (d : Delimiter) (body : List Char) (ps : List Piece) :
    Node.ofPieces offset (.markup d body :: ps) = match Node.ofMarkup d body with
      | .error e => .error e
      | .ok node => (Node.ofPieces (offset + 2 + utf8Length body + 2) ps).map (node :: ·) := by
  have hlength : utf8Length (Piece.markup d body).source = 2 + utf8Length body + 2 := by
    rw [Piece.source, utf8Length_append, utf8Length_append, utf8Length_opening, utf8Length_closing]
  rw [Node.ofPieces, Node.ofPiece, hlength, ← Nat.add_assoc, ← Nat.add_assoc]
  cases Node.ofMarkup d body with
  | error e => rfl
  | ok node => cases Node.ofPieces (offset + 2 + utf8Length body + 2) ps <;> rfl

/-- With a round for every four bytes that are left and one more, the loop ends with the nodes of what is ahead, or with
the first fault in it. -/
theorem At.loop?_eq {source : String} {pos : Nat} {met : List Piece} {cs : List Char} (h : At source pos met cs)
    {rounds : Nat} (hrounds : utf8Length cs < 4 * rounds) (nodes : List Node) :
    loop? source rounds pos nodes = some ((Node.ofPieces pos (Piece.ofSource cs)).map (nodes ++ ·)) := by
  induction rounds generalizing pos met cs nodes with
  | zero => omega
  | succ rounds ih =>
    have hsize := h.size
    rw [loop?]
    by_cases hcs : cs = []
    · subst hcs
      rw [if_neg (by simp [hsize]), ← Cut.nil.eq_ofSource]
      simp [Node.ofPieces, Except.map]
    rw [if_pos (by have := utf8Length_pos hcs; omega)]
    cases Ahead.exhaustive cs with
    | text hfree =>
      rw [h.round?_text hfree, ofSource_text hcs hfree]
      rfl
    | @unclosed content inner d hfree hnone =>
      rw [h.round?_unclosed hfree hnone, ofSource_unclosed hfree hnone, ofPieces_textOf]
      rfl
    | @markup content body after d hfree hfirst =>
      rw [h.round?_markup hfree hfirst, ofSource_markup hfree hfirst, ofPieces_textOf, ofPieces_markup]
      cases hnode : Node.ofMarkup d body with
      | error e => rfl
      | ok node =>
        have hafter : utf8Length after < 4 * rounds := by
          simp only [utf8Length_append, utf8Length_opening, utf8Length_closing] at hrounds
          omega
        have hnext := ih (h.next hfree hfirst) hafter (nodes ++ ((textOf content).map .text ++ [node]))
        simp only [hnext]
        cases Node.ofPieces (pos + utf8Length content + 2 + utf8Length body + 2) (Piece.ofSource after) <;>
          simp [Except.map]

/-! ## Tiles -/

/-- Pieces that follow one another in a source are its bytes between the places where the first begins and the last
ends. -/
theorem tiles_of_split {source : String} {ps : List Piece} {i j : Nat} (pre after : List Char)
    (h : source.toList = pre ++ ps.flatMap Piece.source ++ after) (hi : utf8Length pre = i)
    (hj : i + utf8Length (ps.flatMap Piece.source) = j) : Tiles source i ps j := by
  induction ps generalizing pre i with
  | nil =>
    obtain rfl : i = j := by simpa using hj
    exact .nil
  | cons p ps ih =>
    rw [List.flatMap_cons] at h hj
    refine .cons (slice?_of_toList pre p.source (ps.flatMap Piece.source ++ after) (by simp [h]) hi rfl) ?_
    refine ih (pre ++ p.source) (by simp [h]) (by rw [utf8Length_append, hi]) ?_
    rw [utf8Length_append] at hj
    omega

/-! ## Quoted names -/

theorem utf8Size_of_isQuote {c : Char} (h : Inclusion.isQuote c = true) : c.utf8Size = 1 := by
  rcases isQuote_iff.mp h with rfl | rfl <;> rfl

theorem exists_unquote? {d : Delimiter} {body : List Char} {tag : Inclusion}
    (h : Node.ofMarkup d body = .ok (.inclusion tag)) : ∃ quote key,
      Inclusion.unquote? (trim ((trim body).drop Inclusion.word.length)) = some (quote, key) ∧
        tag.key = String.ofList key := by
  cases d with
  | output =>
    simp only [Node.ofMarkup] at h
    split at h <;> cases h
  | tag =>
    simp only [Node.ofMarkup] at h
    split at h
    · split at h
      · rename_i i hread
        cases h
        obtain ⟨⟨quote, key⟩, hunquote, rfl⟩ := Option.map_eq_some_iff.mp hread
        exact ⟨quote, key, hunquote, rfl⟩
      · cases h
    · cases h

/-- The name of a tag is what stands between the first and the last byte of the quoted name. -/
theorem slice?_quotedName {d : Delimiter} {body : List Char} {tag : Inclusion}
    (h : Node.ofMarkup d body = .ok (.inclusion tag)) :
    slice? (quotedName body) 1 ((quotedName body).utf8ByteSize - 1) = some tag.key ∧ tag.key ≠ "" := by
  obtain ⟨quote, key, hunquote, hkey⟩ := exists_unquote? h
  obtain ⟨hquoted, hquote, hne, -⟩ := unquote?_iff.mp hunquote
  have hsize := utf8Size_of_isQuote hquote
  rw [quotedName, hquoted, hkey]
  refine ⟨slice?_of_toList [quote] key [quote] (by simp) (by simp [hsize]) ?_, by simpa using hne⟩
  rw [utf8ByteSize_ofList]
  simp [hsize]
  omega

/-! ## Safety -/

section

variable {source : String} {pos : Nat} {met : List Piece} {cs : List Char}

/-- The loop stands between two characters. -/
theorem At.isValid (h : At source pos met cs) : String.Pos.Raw.IsValid source ⟨pos⟩ := by
  obtain ⟨before, after, hsplit, hbefore, -⟩ := slice?_eq_some_iff.mp h.rest
  refine String.Pos.Raw.isValid_iff_exists_append.mpr ⟨before, String.ofList cs ++ after, ?_, ?_⟩
  · rw [hsplit, String.append_assoc]
  · rw [← hbefore]
    rfl

theorem At.tiles (h : At source pos met cs) : Tiles source 0 met pos :=
  tiles_of_split [] cs h.split rfl (by rw [h.pos, Nat.zero_add])

theorem At.tiles_last (h : At source pos met cs) : Tiles source 0 (met ++ [.text cs]) source.utf8ByteSize := by
  refine tiles_of_split [] [] ?_ rfl ?_
  · simp [h.split, Piece.source]
  · simp [h.size, h.pos, Piece.source]

end

/-- Wherever the loop comes, it stands between two characters of the source, and what it has met are the first pieces
of the source, which tile the bytes up to there. The next round takes no slice that is out of range. If it comes to the
end, the text that it meets there is the last tile; if it goes on, it has moved by four bytes or more; and if it has read
a tag, the name in it is what stands inside the first and the last byte of the quoted name, and it is not empty. So the
loop ends, after at most one round for every four bytes of the source and one more, with what the source says. -/
theorem loop_in_range (source : String) :
    (∀ pos met, Reaches source pos met →
      pos ≤ source.utf8ByteSize ∧ String.Pos.Raw.IsValid source ⟨pos⟩ ∧ Tiles source 0 met pos ∧
        met <+: Piece.ofSource source.toList ∧ (∃ round, round? source pos = some round) ∧
        (∀ rest, round? source pos = some (.last rest) →
          Tiles source 0 (met ++ [.text rest.toList]) source.utf8ByteSize) ∧
        ∀ texts d body node pos', round? source pos = some (.next texts d body node pos') → pos + 4 ≤ pos' ∧
          ∀ tag, node = .inclusion tag → tag.key ≠ "" ∧
            slice? (quotedName body.toList) 1 ((quotedName body.toList).utf8ByteSize - 1) = some tag.key) ∧
    ∀ rounds, source.utf8ByteSize / 4 < rounds →
      loop? source rounds 0 [] = some ((Template.parse source).map Template.nodes) := by
  refine ⟨fun pos met hreach => ?_, fun rounds hrounds => ?_⟩
  · obtain ⟨cs, h⟩ := hreach.exists_at
    obtain ⟨round, hround, -⟩ := h.exists_round
    refine ⟨h.isValid.le_utf8ByteSize, h.isValid, h.tiles, ⟨_, h.ahead.symm⟩, ⟨round, hround⟩, fun rest hlast => ?_,
      fun texts d body node pos' hnext => ?_⟩
    · cases h.outcome hlast with
      | last =>
        rw [String.toList_ofList]
        exact h.tiles_last
    · cases h.outcome hnext with
      | next hat hmoves hnode =>
        refine ⟨hmoves, ?_⟩
        rintro tag rfl
        exact (slice?_quotedName hnode).symm
  · have hbytes : utf8Length source.toList < 4 * rounds := by
      rw [utf8Length_toList]
      omega
    rw [(At.start source).loop?_eq hbytes, Template.parse_eq_map]
    cases Node.ofPieces 0 (Piece.ofSource source.toList) <;> rfl

end Cursor

namespace Sample

open Text Grammar Cursor

/-- A text and a name with characters of two bytes, and a brace before a tag that does not open it. -/
def accented : String :=
  "\u00fc\x7b \x7b%include 'r\u00f6w'%\x7d\x7b\x7buser\x7d\x7d"

/-- The first round goes over the text and the tag, and the second one begins at byte 22, where the output opens. -/
theorem loop_in_range_accented :
    round? accented 0 =
        some (.next ["\u00fc\x7b "] .tag "include 'r\u00f6w'" (.inclusion ⟨" ", '\'', "r\u00f6w"⟩) 22) ∧
      slice? (quotedName "include 'r\u00f6w'".toList) 1 5 = some "r\u00f6w" ∧
      Reaches accented 22 (pieces ["\u00fc\x7b "] .tag "include 'r\u00f6w'") ∧
      String.Pos.Raw.IsValid accented ⟨22⟩ ∧
      Tiles accented 0 (pieces ["\u00fc\x7b "] .tag "include 'r\u00f6w'") 22 ∧
      accented.utf8ByteSize / 4 < 8 ∧ loop? accented 8 0 [] = some ((Template.parse accented).map Template.nodes) := by
  obtain ⟨hrounds, hends⟩ := loop_in_range accented
  have hsplit : accented.toList = "\u00fc\x7b ".toList ++ (Delimiter.tag.opening ++ ("include 'r\u00f6w'".toList ++
      (Delimiter.tag.closing ++ "\x7b\x7buser\x7d\x7d".toList))) := by decide
  have hround : round? accented 0 =
      some (.next ["\u00fc\x7b "] .tag "include 'r\u00f6w'" (.inclusion ⟨" ", '\'', "r\u00f6w"⟩) 22) := by
    have hat := hsplit ▸ At.start accented
    rw [hat.round?_markup (noneBegins_openings_iff.mpr (by decide)) (noneBegins_closing_iff.mpr (by decide))]
    rfl
  have hname : (quotedName "include 'r\u00f6w'".toList).utf8ByteSize - 1 = 5 := by
    rw [quotedName, utf8ByteSize_ofList]
    decide
  have hsize : accented.utf8ByteSize = 30 := by decide
  have hreaches : Reaches accented 22 (pieces ["\u00fc\x7b "] .tag "include 'r\u00f6w'") :=
    .next .start (by rw [hsize]; decide) hround
  obtain ⟨-, -, -, -, -, -, hnext⟩ := hrounds 0 [] .start
  obtain ⟨-, hslice⟩ := (hnext _ _ _ _ _ hround).2 _ rfl
  obtain ⟨-, hvalid, htiles, -⟩ := hrounds 22 _ hreaches
  rw [hname] at hslice
  have henough : accented.utf8ByteSize / 4 < 8 := by rw [hsize]; decide
  exact ⟨hround, hslice, hreaches, hvalid, htiles, henough, hends 8 henough⟩

end Sample

end HybridTemplate
