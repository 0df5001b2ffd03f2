import HybridTemplate.Registers.Basic

/-!
# What an inclusion leaves on the stack

Whatever happens during an inclusion, the frames around it keep their names, and all that is left on them can be said in
one step: `FrameStack.absorb` marks the frames or not, and adds names to what the innermost frame has inlined.

* `markUncacheable_eq_absorb`, `recordInlined_eq_absorb` — the operations are such steps;
* `absorb_absorb` — two steps are one;
* `pop?_absorb_push` — a step on a fresh frame, seen after the frame is popped: its flag and its inlined names are those
  of the step, and under the propagating policy the frames below are marked as well.
-/

namespace HybridTemplate

/-! ## Sets of names -/

namespace NameSet

variable (r s t : NameSet) (name : String)

instance : Decidable (name ∈ s) :=
  inferInstanceAs (Decidable (s.contains name = true))

@[simp] theorem union_empty : s.union ∅ = s :=
  ext_mem fun k => by simp

@[simp] theorem empty_union : (∅ : NameSet).union s = s :=
  ext_mem fun k => by simp

theorem union_assoc : (r.union s).union t = r.union (s.union t) :=
  ext_mem fun k => by simp only [mem_union, or_assoc]

theorem union_insert : s.union (t.insert name) = (s.union t).insert name :=
  ext_mem fun k => by simp only [mem_union, mem_insert, or_left_comm]

end NameSet

/-! ## Steps on the stack -/

/-- Whether a mark reaches the frames below the innermost one. -/
def TaintPolicy.spreads : TaintPolicy → Bool
  | propagating => true
  | localOnly => false

namespace FrameStack

/-- Marks the frames that the policy selects, if `marked`, and adds names to what the innermost frame has inlined. -/
def absorb (marked : Bool) (names : NameSet) (s : FrameStack) : FrameStack :=
  { s with frames := match s.frames with
      | [] => []
      | f :: fs =>
        { f with cacheable := f.cacheable && !marked, inlined := f.inlined.union names } ::
          if marked && s.policy.spreads then fs.map Frame.mark else fs }

variable (s : FrameStack) (f : Frame)

@[simp] theorem policy_absorb (m : Bool) (names : NameSet) : (s.absorb m names).policy = s.policy := rfl

@[simp] theorem absorb_false_empty : s.absorb false ∅ = s := by
  obtain ⟨π, _ | ⟨f, fs⟩⟩ := s <;> simp [absorb]

theorem markUncacheable_eq_absorb : s.markUncacheable = s.absorb true ∅ := by
  obtain ⟨_ | _, _ | ⟨f, fs⟩⟩ := s <;> simp [absorb, markUncacheable, mapTop, TaintPolicy.spreads, Frame.mark]

theorem recordInlined_eq_absorb : s.recordInlined f = s.absorb false (f.inlined.insert f.name) := by
  obtain ⟨π, _ | ⟨g, fs⟩⟩ := s
  · rfl
  · simp [absorb, recordInlined, mapTop, Frame.inline, NameSet.union_insert]

/-- Two steps are one. -/
theorem absorb_absorb (m n : Bool) (a b : NameSet) :
    (s.absorb m a).absorb n b = s.absorb (m || n) (a.union b) := by
  obtain ⟨π, _ | ⟨f, fs⟩⟩ := s
  · rfl
  · cases m <;> cases n <;> cases π <;>
      simp [absorb, TaintPolicy.spreads, NameSet.union_assoc, Frame.mark]

/-- A second mark changes nothing. -/
theorem markUncacheable_markUncacheable : s.markUncacheable.markUncacheable = s.markUncacheable := by
  simp [markUncacheable_eq_absorb, absorb_absorb]

/-- A step on a fresh frame ends up on the frame that is popped, and as a mark on those below. -/
theorem pop?_absorb_push (name : String) (m : Bool) (names : NameSet) :
    ((s.push name).absorb m names).pop? =
      some (⟨name, !m, names⟩, s.absorb (m && s.policy.spreads) ∅) := by
  obtain ⟨π, fs⟩ := s
  cases m <;> cases π <;> cases fs <;> simp [absorb, push, pop?, TaintPolicy.spreads, Frame.mark]

end FrameStack

end HybridTemplate
