import HybridTemplate.Text.Utf8

/-!
# Parts of a text by their bytes

* `slice?` — the text from one byte up to another, if both are places between characters (`slice?_eq_some_iff`);
* `find?` — the byte at which a mark first begins in a text.
-/

namespace HybridTemplate.Text

/-- The text from byte `i` up to byte `j`; none if one of them is beyond the text or inside a character, or if `j` comes
before `i`. -/
def slice? (s : String) (i j : Nat) : Option String :=
  if h : String.Pos.Raw.IsValid s ⟨i⟩ ∧ String.Pos.Raw.IsValid s ⟨j⟩ then
    (s.slice? (s.pos ⟨i⟩ h.1) (s.pos ⟨j⟩ h.2)).map String.Slice.copy
  else none

/-- A slice is what is left of the text between some of its first characters, of `i` bytes, and some of its last. -/
theorem slice?_eq_some_iff {s t : String} {i j : Nat} : slice? s i j = some t ↔
    ∃ before after, s = before ++ t ++ after ∧ before.utf8ByteSize = i ∧ i + t.utf8ByteSize = j := by
  constructor
  · intro h
    rw [slice?] at h
    split at h
    · rename_i hvalid
      obtain ⟨part, hpart, hcopy⟩ := Option.map_eq_some_iff.mp h
      rw [String.slice?] at hpart
      split at hpart
      · rename_i hle
        cases hpart
        obtain ⟨before, after, hi, hj⟩ := String.copy_slice_eq_iff_splits.mp ⟨hle, hcopy⟩
        have hi' := congrArg String.Pos.Raw.byteIdx hi.offset_eq_rawEndPos
        have hj' := congrArg String.Pos.Raw.byteIdx hj.offset_eq_rawEndPos
        refine ⟨before, after, hj.eq_append, by simpa using hi'.symm, ?_⟩
        simp at hi' hj'
        omega
      · cases hpart
    · cases h
  · rintro ⟨before, after, rfl, rfl, rfl⟩
    have hvalid : String.Pos.Raw.IsValid (before ++ t ++ after) ⟨before.utf8ByteSize⟩ ∧
        String.Pos.Raw.IsValid (before ++ t ++ after) ⟨before.utf8ByteSize + t.utf8ByteSize⟩ := by
      constructor
      · exact String.Pos.Raw.isValid_iff_exists_append.mpr ⟨before, t ++ after, String.append_assoc, rfl⟩
      · exact String.Pos.Raw.isValid_iff_exists_append.mpr ⟨before ++ t, after, rfl, by simp [String.Pos.Raw.ext_iff]⟩
    obtain ⟨hle, hcopy⟩ : ∃ hle, ((before ++ t ++ after).slice (String.pos _ _ hvalid.1) (String.pos _ _ hvalid.2)
        hle).copy = t := by
      refine String.copy_slice_eq_iff_splits.mpr ⟨before, after, ⟨?_, ?_⟩, ⟨rfl, ?_⟩⟩
      · exact String.append_assoc
      · simp [String.Pos.Raw.ext_iff]
      · simp [String.Pos.Raw.ext_iff]
    rw [slice?, dif_pos hvalid, String.slice?, dif_pos hle, Option.map_some, hcopy]

theorem slice?_of_toList {s : String} {i j : Nat} (pre mid post : List Char) (h : s.toList = pre ++ mid ++ post)
    (hi : utf8Length pre = i) (hj : i + utf8Length mid = j) : slice? s i j = some (String.ofList mid) := by
  refine slice?_eq_some_iff.mpr ⟨String.ofList pre, String.ofList post, ?_, by rw [utf8ByteSize_ofList, hi],
    by rw [utf8ByteSize_ofList, hj]⟩
  rw [← String.ofList_append, ← String.ofList_append, ← h, String.ofList_toList]

/-- The byte at which a mark first begins in a text. -/
def find? (mark : List Char) : List Char → Option Nat
  | [] => if mark = [] then some 0 else none
  | c :: cs => if mark <+: c :: cs then some 0 else (find? mark cs).map (c.utf8Size + ·)

end HybridTemplate.Text
