/-!
# Ranges of code points

A Unicode property is written down as a list of closed ranges of code points, ascending and apart:

* `CodeRange.ascending`, `CodeRange.count` — the order of a list of ranges and the number of its code points;
* `CodeRange.anyHolds` — whether a code point lies in one of the ranges (`anyHolds_iff`).
-/

namespace HybridTemplate.Text

/-- The code points from `first` to `last`, both included. -/
structure CodeRange where
  /-- The least code point. -/
  first : Nat
  /-- The greatest code point. -/
  last : Nat

namespace CodeRange

variable {r s : CodeRange} {rs : List CodeRange} {n : Nat}

/-- No range is empty, and each ends before the next one starts, with a gap between the two. -/
def ascending : List CodeRange → Bool
  | [] => true
  | [r] => r.first ≤ r.last
  | r :: s :: rs => r.first ≤ r.last && r.last + 1 < s.first && ascending (s :: rs)

/-- The number of code points in ranges that do not overlap. -/
def count : List CodeRange → Nat
  | [] => 0
  | r :: rs => (r.last + 1 - r.first) + count rs

/-- Whether a code point lies in one of the ranges, which ascend: the first that does not end before it decides. -/
def anyHolds : List CodeRange → Nat → Bool
  | [], _ => false
  | r :: rs, n => if n ≤ r.last then r.first ≤ n else anyHolds rs n

theorem ascending_of_cons (h : ascending (r :: rs) = true) : ascending rs = true := by
  cases rs with
  | nil => rfl
  | cons s rs => exact (Bool.and_eq_true_iff.mp h).2

/-- What follows a range lies behind it. -/
theorem last_lt_first (h : ascending (r :: rs) = true) (hs : s ∈ rs) : r.last < s.first := by
  induction rs generalizing r with
  | nil => cases hs
  | cons t rs ih =>
    simp only [ascending, Bool.and_eq_true, decide_eq_true_eq] at h
    rcases List.mem_cons.mp hs with rfl | hs
    · omega
    · have ht := ih h.2 hs
      have : t.first ≤ t.last := by
        cases rs with
        | nil => cases hs
        | cons u rs =>
          have := h.2
          simp only [ascending, Bool.and_eq_true, decide_eq_true_eq] at this
          exact this.1.1
      omega

/-- A code point that is found lies in one of the ranges. -/
theorem exists_of_anyHolds (h : anyHolds rs n = true) : ∃ r ∈ rs, r.first ≤ n ∧ n ≤ r.last := by
  induction rs with
  | nil => cases h
  | cons r rs ih =>
    rw [anyHolds] at h
    split at h
    · exact ⟨r, List.mem_cons_self, of_decide_eq_true h, ‹_›⟩
    · obtain ⟨s, hs, h⟩ := ih h
      exact ⟨s, List.mem_cons_of_mem _ hs, h⟩

/-- Of ranges that ascend, those code points are found that lie in one. -/
theorem anyHolds_iff (ho : ascending rs = true) : anyHolds rs n = true ↔ ∃ r ∈ rs, r.first ≤ n ∧ n ≤ r.last := by
  refine ⟨exists_of_anyHolds, ?_⟩
  induction rs with
  | nil => rintro ⟨_, h, _⟩; cases h
  | cons r rs ih =>
    rintro ⟨s, hs, h₁, h₂⟩
    rw [anyHolds]
    rcases List.mem_cons.mp hs with rfl | hs
    · simp [h₁, h₂]
    · have := last_lt_first ho hs
      rw [if_neg (by omega)]
      exact ih (ascending_of_cons ho) ⟨s, hs, h₁, h₂⟩

end CodeRange

end HybridTemplate.Text
