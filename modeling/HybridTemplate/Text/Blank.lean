import HybridTemplate.Text.CodeRange

/-!
# Blank characters

The characters with the Unicode property `White_Space`, and the cutting of texts at them:

* `isBlank` — the property, as ranges of code points;
* `trim` — a text without the blanks around it (`exists_eq_append_trim`);
* `firstWord` — the first stretch of a text that holds no blank.
-/

namespace HybridTemplate.Text

/-- The property `White_Space`. -/
def blankRanges : List CodeRange :=
  [⟨0x0009, 0x000D⟩, ⟨0x0020, 0x0020⟩, ⟨0x0085, 0x0085⟩, ⟨0x00A0, 0x00A0⟩, ⟨0x1680, 0x1680⟩, ⟨0x2000, 0x200A⟩,
   ⟨0x2028, 0x2029⟩, ⟨0x202F, 0x202F⟩, ⟨0x205F, 0x205F⟩, ⟨0x3000, 0x3000⟩]

/-- A character is blank if it has the property `White_Space`. -/
def isBlank (c : Char) : Bool :=
  CodeRange.anyHolds blankRanges c.toNat

example : CodeRange.ascending blankRanges = true := by
  decide

example : CodeRange.count blankRanges = 25 := by
  decide

/-- What is left of a text behind its leading blanks. -/
def trimLeft (cs : List Char) : List Char :=
  cs.dropWhile isBlank

/-- What is left of a text before its trailing blanks. -/
def trimRight (cs : List Char) : List Char :=
  (cs.reverse.dropWhile isBlank).reverse

/-- A text without the blanks around it. -/
def trim (cs : List Char) : List Char :=
  trimRight (trimLeft cs)

/-- The first stretch of a text that holds no blank; empty if all is blank. -/
def firstWord (cs : List Char) : List Char :=
  (trimLeft cs).takeWhile fun c => !isBlank c

theorem exists_eq_append_trimLeft (cs : List Char) :
    ∃ pre, cs = pre ++ trimLeft cs ∧ ∀ c ∈ pre, isBlank c = true :=
  ⟨cs.takeWhile isBlank, (List.takeWhile_append_dropWhile).symm, List.all_eq_true.mp List.all_takeWhile⟩

theorem exists_eq_trimRight_append (cs : List Char) :
    ∃ post, cs = trimRight cs ++ post ∧ ∀ c ∈ post, isBlank c = true := by
  obtain ⟨pre, h, hb⟩ := exists_eq_append_trimLeft cs.reverse
  refine ⟨pre.reverse, ?_, fun c hc => hb c (List.mem_reverse.mp hc)⟩
  have := congrArg List.reverse h
  simpa [trimLeft, trimRight] using this

/-- Only blanks are cut off. -/
theorem exists_eq_append_trim (cs : List Char) :
    ∃ pre post, cs = pre ++ trim cs ++ post ∧ (∀ c ∈ pre, isBlank c = true) ∧ ∀ c ∈ post, isBlank c = true := by
  obtain ⟨pre, h₁, hpre⟩ := exists_eq_append_trimLeft cs
  obtain ⟨post, h₂, hpost⟩ := exists_eq_trimRight_append (trimLeft cs)
  exact ⟨pre, post, by rw [List.append_assoc, trim, ← h₂, ← h₁], hpre, hpost⟩

end HybridTemplate.Text
