import HybridTemplate.Object.Scripted
import HybridTemplate.Proofs.Spelling

/-!
# Arrays by index

A template reads an array in two ways: as a whole, when it goes into the output, and item by item, when a path takes a
step into it. The two agree.

* `Json.Denotes` — the keys that denote a number; an index is read from just these (`Json.index?_eq_some_iff`);
* `Json.indexWithin?` — indices from keys where numbers are bounded: who gives up beyond the bound finds the same items
  in an array that the bound can count (`Json.item_eq_within`);
* `Value.array_read_by_index` — the text of an array is the texts of what its indices find, the helpers name items at
  an index or the number of items, any other key finds the item that it denotes or null, and null stays null.
-/

namespace HybridTemplate

namespace Json

/-! ## Digits -/

namespace Numeral

theorem natValue_replicate_append (zeros : Nat) (ds : List Char) :
    natValue (List.replicate zeros '0' ++ ds) = natValue ds := by
  induction zeros with
  | zero => rfl
  | succ zeros ih =>
    rw [List.replicate_succ, List.cons_append]
    exact ih

theorem digitChar_digitValue {d : Char} (hd : d.isDigit = true) :
    digitValue d < 10 ∧ Nat.digitChar (digitValue d) = d := by
  simp only [Char.isDigit, Bool.and_eq_true, decide_eq_true_eq] at hd
  have hlow : '0'.toNat ≤ d.toNat := hd.1
  have hhigh : d.toNat ≤ '9'.toNat := hd.2
  have hzero : '0'.toNat = 48 := rfl
  have hnine : '9'.toNat = 57 := rfl
  have hlt : digitValue d < 10 := by
    unfold digitValue
    omega
  refine ⟨hlt, Char.toNat_inj.mp ?_⟩
  rw [Nat.toNat_digitChar_of_lt_ten hlt]
  unfold digitValue
  omega

/-- Digits are the decimal of the number that they write, behind zeros. -/
theorem exists_eq_replicate_append {ds : List Char} (hne : ds ≠ []) (hd : ∀ d ∈ ds, d.isDigit = true) :
    ∃ zeros, ds = List.replicate zeros '0' ++ Nat.toDigits 10 (natValue ds) := by
  induction ds using List.reverseRecOn with
  | nil => exact absurd rfl hne
  | append_singleton ds d ih =>
    obtain ⟨hlt, hchar⟩ := digitChar_digitValue (hd d (by simp))
    have hsingle : [d] = Nat.toDigits 10 (digitValue d) := by rw [Nat.toDigits_of_lt_base hlt, hchar]
    by_cases hnil : ds = []
    · refine ⟨0, ?_⟩
      subst hnil
      rw [natValue_append]
      simpa [natValue] using hsingle
    obtain ⟨zeros, hzeros⟩ := ih hnil fun d hd' => hd d (by simp [hd'])
    rcases Nat.eq_zero_or_pos (natValue ds) with hzero | hpos
    · -- the digits so far are all zeros, and so they stay in front
      refine ⟨zeros + 1, ?_⟩
      rw [natValue_append, hzero, Nat.mul_zero, Nat.zero_add, ← hsingle]
      rw [hzero] at hzeros
      rw [List.replicate_succ']
      exact congrArg (· ++ [d]) hzeros
    · refine ⟨zeros, ?_⟩
      rw [natValue_append, ← Nat.toDigits_append_toDigits (by decide) hpos hlt, ← List.append_assoc, ← hzeros,
        hsingle]

/-- The number that digits write, read one digit after the other and given up beyond `limit`. -/
def natWithin? (limit : Nat) (ds : List Char) : Option Nat :=
  ds.foldlM (fun n d => if 10 * n + digitValue d ≤ limit then some (10 * n + digitValue d) else none) 0

/-- The number is given up on the way just if it is beyond the limit in the end. -/
theorem natWithin?_eq (limit : Nat) (ds : List Char) :
    natWithin? limit ds = if natValue ds ≤ limit then some (natValue ds) else none := by
  induction ds using List.reverseRecOn with
  | nil => exact (if_pos (Nat.zero_le limit)).symm
  | append_singleton ds d ih =>
    rw [natWithin?] at ih ⊢
    rw [List.foldlM_append, ih, natValue_append]
    by_cases hds : natValue ds ≤ limit
    · simp [hds]
    · have hmore : ¬10 * natValue ds + digitValue d ≤ limit := by omega
      simp [hds, hmore]

end Numeral

/-! ## Keys -/

/-- The key is the decimal of a number, behind any zeros and at most one plus sign. -/
def Denotes (key : String) (i : Nat) : Prop :=
  ∃ plus zeros, (plus = [] ∨ plus = ['+']) ∧ key.toList = plus ++ List.replicate zeros '0' ++ Nat.toDigits 10 i

/-- The digits of a key; a plus sign may stand before them. -/
def keyDigits (key : String) : List Char :=
  match key.toList with
  | '+' :: ds => ds
  | ds => ds

theorem index?_eq (key : String) : index? key =
    if !(keyDigits key).isEmpty && (keyDigits key).all Char.isDigit then some (Numeral.natValue (keyDigits key))
    else none :=
  rfl

theorem keyDigits_of_eq_append {key : String} {plus ds : List Char} (hplus : plus = [] ∨ plus = ['+'])
    (hds : ∀ d ∈ ds, d.isDigit = true) (h : key.toList = plus ++ ds) : keyDigits key = ds := by
  rw [keyDigits, h]
  rcases hplus with rfl | rfl
  · rcases ds with _ | ⟨d, ds⟩
    · rfl
    · split
      · next heq =>
        obtain ⟨rfl, -⟩ := List.cons.inj heq
        exact absurd (hds '+' List.mem_cons_self) (by decide)
      · rfl
  · rfl

theorem eq_append_keyDigits (key : String) :
    ∃ plus, (plus = [] ∨ plus = ['+']) ∧ key.toList = plus ++ keyDigits key := by
  unfold keyDigits
  split
  · next ds heq => exact ⟨['+'], .inr rfl, heq⟩
  · exact ⟨[], .inl rfl, rfl⟩

/-- An index is read from just the keys that denote it. -/
theorem index?_eq_some_iff {key : String} {i : Nat} : index? key = some i ↔ Denotes key i := by
  rw [index?_eq]
  constructor
  · intro h
    split at h
    · rename_i hc
      cases h
      simp only [Bool.and_eq_true, Bool.not_eq_true', List.isEmpty_eq_false_iff, List.all_eq_true] at hc
      obtain ⟨plus, hplus, hkey⟩ := eq_append_keyDigits key
      obtain ⟨zeros, hzeros⟩ := Numeral.exists_eq_replicate_append hc.1 hc.2
      exact ⟨plus, zeros, hplus, by rw [List.append_assoc, ← hzeros, hkey]⟩
    · cases h
  · rintro ⟨plus, zeros, hplus, hkey⟩
    have hdigits : ∀ d ∈ List.replicate zeros '0' ++ Nat.toDigits 10 i, d.isDigit = true := by
      intro d hd
      rcases List.mem_append.mp hd with hd | hd
      · rw [List.eq_of_mem_replicate hd]
        decide
      · exact Nat.isDigit_of_mem_toDigits (by decide) (by decide) hd
    rw [List.append_assoc] at hkey
    rw [keyDigits_of_eq_append hplus hdigits hkey, Numeral.natValue_replicate_append, Numeral.natValue_toDigits, if_pos]
    simp only [Bool.and_eq_true, Bool.not_eq_true', List.isEmpty_eq_false_iff, List.all_eq_true]
    exact ⟨List.append_ne_nil_of_right_ne_nil _ Nat.toDigits_ne_nil, hdigits⟩

theorem Denotes.eq {key : String} {i j : Nat} (hi : Denotes key i) (hj : Denotes key j) : i = j :=
  Option.some.inj ((index?_eq_some_iff.mpr hi).symm.trans (index?_eq_some_iff.mpr hj))

theorem denotes_toString (i : Nat) : Denotes (toString i) i :=
  ⟨[], 0, .inl rfl, by simp⟩

/-- The index that a key of digits writes, read one digit after the other and given up beyond `limit`. -/
def indexWithin? (limit : Nat) (key : String) : Option Nat :=
  if !(keyDigits key).isEmpty && (keyDigits key).all Char.isDigit then Numeral.natWithin? limit (keyDigits key)
  else none

theorem indexWithin?_eq_filter (limit : Nat) (key : String) :
    indexWithin? limit key = (index? key).filter (· ≤ limit) := by
  rw [indexWithin?, index?_eq]
  split
  · simp [Numeral.natWithin?_eq, Option.filter]
  · rfl

/-! ## Items -/

/-- The keys that name something else than an index. -/
def helpers : List String :=
  ["size", "first", "last"]

theorem item_of_notMem_helpers {key : String} (hkey : key ∉ helpers) (items : List Json) :
    item items key = ((index? key).bind (items[·]?)).getD null := by
  simp only [helpers, List.mem_cons, List.not_mem_nil, or_false, not_or] at hkey
  rw [item, if_neg hkey.1, if_neg hkey.2.1, if_neg hkey.2.2]

theorem Denotes.notMem_helpers {key : String} {i : Nat} (h : Denotes key i) : key ∉ helpers := by
  intro hkey
  have hnone : ∀ helper ∈ helpers, index? helper = none := by decide
  exact Option.some_ne_none i ((index?_eq_some_iff.mpr h).symm.trans (hnone key hkey))

theorem item_of_denotes {key : String} {i : Nat} (h : Denotes key i) (items : List Json) :
    item items key = items[i]?.getD null := by
  rw [item_of_notMem_helpers h.notMem_helpers, index?_eq_some_iff.mpr h, Option.bind_some]

theorem item_eq_null {key : String} {items : List Json} (hkey : key ∉ helpers)
    (h : ∀ i < items.length, ¬Denotes key i) : item items key = null := by
  rw [item_of_notMem_helpers hkey]
  rcases hi : index? key with _ | i
  · rfl
  · have hout : items.length ≤ i := Nat.le_of_not_lt fun hlt => h i hlt (index?_eq_some_iff.mp hi)
    rw [Option.bind_some, List.getElem?_eq_none hout]
    rfl

/-- In an array that the limit can count, giving up beyond it makes no difference. -/
theorem item_eq_within {key : String} {items : List Json} {limit : Nat} (hkey : key ∉ helpers)
    (hlimit : items.length ≤ limit) :
    item items key = ((indexWithin? limit key).bind (items[·]?)).getD null := by
  rw [item_of_notMem_helpers hkey, indexWithin?_eq_filter]
  rcases index? key with _ | i
  · rfl
  · by_cases hi : i ≤ limit
    · simp [Option.filter, hi]
    · have hout : items.length ≤ i := by omega
      simp [Option.filter, hi, List.getElem?_eq_none hout]

theorem renderItems_eq_join (items : List Json) : renderItems items = String.join (items.map render) := by
  induction items with
  | nil => rfl
  | cons v items ih => rw [renderItems, ih, List.map_cons, String.join_cons]

/-- The items of an array are what its indices find. -/
theorem map_item_range (items : List Json) :
    (List.range items.length).map (fun i => item items (toString i)) = items := by
  refine List.ext_getElem (by simp) fun i h _ => ?_
  rw [List.getElem_map, List.getElem_range, item_of_denotes (denotes_toString i),
    List.getElem?_eq_getElem (by simpa using h)]
  rfl

theorem item_first (items : List Json) : item items "first" = item items "0" := by
  have hzero : Denotes "0" 0 := denotes_toString 0
  rw [item_of_denotes hzero, ← List.head?_eq_getElem?]
  rfl

theorem item_last (items : List Json) : item items "last" = item items (toString (items.length - 1)) := by
  rw [item_of_denotes (denotes_toString _), ← List.getLast?_eq_getElem?]
  rfl

theorem render_ofNat (n : Nat) : (ofNat n).render = toString n := by
  have hsign : ¬(n : Int) < 0 := by omega
  simp [ofNat, render, Number.text, Number.numeral, Numeral.ofInt, Numeral.chars, hsign, Nat.repr_eq_ofList_toDigits]

end Json

/-! ## Values -/

namespace Value

variable {ω σ : Type} [DataModel ω σ]

/-- From null every path leads to null. -/
theorem getAll_null (path : List String) : getAll path (null : Value ω) = pure null := by
  induction path with
  | nil => rfl
  | cons key path ih =>
    rw [getAll]
    exact ih

/-- The text of an array is the texts of what its indices find, one after the other. The first index finds what `first`
finds, the last one what `last` finds, and `size` is the number of the items. Any other key finds the item at the index
that it denotes, and null if there is none. No item is missed by who reads digit by digit and gives up beyond a limit
that can count the items, as indices of a fixed width are read. From null every path leads to null, and its text is
empty. -/
theorem array_read_by_index (items : List Json) :
    (json (.array items) : Value ω).render =
        (do
          let texts ← (List.range items.length).mapM fun i => do
            (← (json (.array items) : Value ω).get (toString i)).render
          return String.join texts) ∧
      (json (.array items) : Value ω).get "first" = (json (.array items)).get "0" ∧
      (json (.array items) : Value ω).get "last" = (json (.array items)).get (toString (items.length - 1)) ∧
      (do (← (json (.array items) : Value ω).get "size").render) = pure (toString items.length) ∧
      (∀ (key : String) (i : Nat) (hi : i < items.length), Json.Denotes key i →
        (json (.array items) : Value ω).get key = pure (json items[i])) ∧
      (∀ key ∉ ["size", "first", "last"], (∀ i < items.length, ¬Json.Denotes key i) →
        (json (.array items) : Value ω).get key = pure null) ∧
      (∀ key ∉ ["size", "first", "last"], ∀ limit, items.length ≤ limit →
        (json (.array items) : Value ω).get key =
          pure (json (((Json.indexWithin? limit key).bind (items[·]?)).getD .null))) ∧
      ∀ path, getAll path (null : Value ω) = pure null ∧
        (do (← getAll path (null : Value ω)).render) = (pure "" : ObjectRun σ String) := by
  have hget : ∀ key, (json (.array items) : Value ω).get key = pure (json (Json.item items key)) := fun key => rfl
  refine ⟨?_, ?_, ?_, ?_, fun key i hi hkey => ?_, fun key hkey hnone => ?_, fun key hkey limit hlimit => ?_,
    fun path => ⟨getAll_null path, ?_⟩⟩
  · have htexts : (List.range items.length).map (fun i => (Json.item items (toString i)).render) =
        items.map Json.render := by
      conv_rhs => rw [← Json.map_item_range items, List.map_map]
      rfl
    simp only [hget, pure_bind, render, List.mapM_pure, htexts, ← Json.renderItems_eq_join]
    rfl
  · rw [hget, hget, Json.item_first]
  · rw [hget, hget, Json.item_last]
  · rw [hget, pure_bind]
    exact congrArg pure (Json.render_ofNat items.length)
  · rw [hget, Json.item_of_denotes hkey, List.getElem?_eq_getElem hi, Option.getD_some]
  · rw [hget, Json.item_eq_null hkey hnone]
    rfl
  · rw [hget, Json.item_eq_within hkey hlimit]
  · rw [getAll_null, pure_bind]
    rfl

end Value

namespace Sample

/-- An array, an object, null and a text. -/
def mixed : List Json :=
  [.array [.number (.integer 1), .string "\u00fc"], .object [("a", .null)], .null, .string "x"]

/-- A key with a sign and a zero finds the item that it denotes. A number of more than 64 bits, of which the last 64 are
those of one, finds nothing, whether it is read or not. -/
theorem array_read_by_index_mixed :
    (1 < mixed.length ∧ Json.Denotes "+01" 1 ∧
      (Value.json (.array mixed) : Value Scripted).get "+01" = pure (.json (.object [("a", .null)]))) ∧
    ("18446744073709551617" ∉ ["size", "first", "last"] ∧
      (∀ i < mixed.length, ¬Json.Denotes "18446744073709551617" i) ∧
      (Value.json (.array mixed) : Value Scripted).get "18446744073709551617" = pure .null) ∧
    mixed.length ≤ Json.Number.maxWord ∧
      Json.indexWithin? Json.Number.maxWord "18446744073709551617" = none ∧
      (Value.json (.array mixed) : Value Scripted).get "18446744073709551617" =
        pure (.json (((Json.indexWithin? Json.Number.maxWord "18446744073709551617").bind (mixed[·]?)).getD .null)) := by
  obtain ⟨-, -, -, -, hfound, hmissed, hwithin, -⟩ :=
    Value.array_read_by_index (ω := Scripted) (σ := Heap) mixed
  have hone : Json.Denotes "+01" 1 := ⟨['+'], 1, .inr rfl, by decide⟩
  have hindex : Json.index? "18446744073709551617" = some 18446744073709551617 := by decide
  have hkey : "18446744073709551617" ∉ ["size", "first", "last"] := by decide
  have hnone : ∀ i < mixed.length, ¬Json.Denotes "18446744073709551617" i := by
    intro i hi hdenotes
    have heq := hdenotes.eq (Json.index?_eq_some_iff.mp hindex)
    have hlength : mixed.length = 4 := rfl
    omega
  have hlimit : mixed.length ≤ Json.Number.maxWord := by decide
  have hgiven : Json.indexWithin? Json.Number.maxWord "18446744073709551617" = none := by
    rw [Json.indexWithin?_eq_filter, hindex]
    rfl
  exact ⟨⟨by decide, hone, hfound "+01" 1 (by decide) hone⟩, ⟨hkey, hnone, hmissed _ hkey hnone⟩, hlimit, hgiven,
    hwithin _ hkey _ hlimit⟩

end Sample

end HybridTemplate
