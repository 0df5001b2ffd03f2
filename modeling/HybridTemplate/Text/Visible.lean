import HybridTemplate.Text.Extending
import HybridTemplate.Text.Unseen

/-!
# Visible characters

A character is visible if a reader sees it for itself, wherever it stands: it has a glyph, the glyph is not drawn onto
its neighbour, and no display is free to leave it out. The space counts as visible, and so do the two sound marks of
halfwidth katakana: they extend the character before in the sense of Unicode, but take up a cell of their own.
-/

namespace HybridTemplate.Text

/-- The property `Default_Ignorable_Code_Point`, as of Unicode 17.0. -/
def ignorableRanges : List CodeRange :=
  [⟨0x00AD, 0x00AD⟩, ⟨0x034F, 0x034F⟩, ⟨0x061C, 0x061C⟩, ⟨0x115F, 0x1160⟩, ⟨0x17B4, 0x17B5⟩, ⟨0x180B, 0x180F⟩,
   ⟨0x200B, 0x200F⟩, ⟨0x202A, 0x202E⟩, ⟨0x2060, 0x206F⟩, ⟨0x3164, 0x3164⟩, ⟨0xFE00, 0xFE0F⟩, ⟨0xFEFF, 0xFEFF⟩,
   ⟨0xFFA0, 0xFFA0⟩, ⟨0xFFF0, 0xFFF8⟩, ⟨0x1BCA0, 0x1BCA3⟩, ⟨0x1D173, 0x1D17A⟩, ⟨0xE0000, 0xE0FFF⟩]

/-- A character that a display leaves out if it cannot show it otherwise, such as the Hangul fillers. -/
def isIgnorable (c : Char) : Bool :=
  CodeRange.anyHolds ignorableRanges c.toNat

example : CodeRange.ascending ignorableRanges = true := by
  decide

example : CodeRange.count ignorableRanges = 4174 := by
  decide

/-- The voiced and the semi-voiced sound mark of halfwidth katakana. -/
def isHalfwidthSoundMark (c : Char) : Bool :=
  c == '\uFF9E' || c == '\uFF9F'

/-- A character that is seen for itself. -/
def isVisible (c : Char) : Bool :=
  c == ' ' || !(isUnseen c || isIgnorable c || (isExtending c && !isHalfwidthSoundMark c))

end HybridTemplate.Text
