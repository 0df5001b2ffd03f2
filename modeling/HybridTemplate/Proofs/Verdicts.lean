import Mathlib.Data.List.Induction
import HybridTemplate.Proofs.Runs

/-!
# Verdicts of the stack

A frame that is popped says what happened since it was pushed. This is told here by the history alone, the list of the
operations on the stack, in which a push and a pop belong together as brackets do.

* `Op.Matched` — the pushes and pops among some operations are matched with each other; `Op.OnTop` — an operation among
  others that is done while the frame beneath them all is on top;
* `Verdict` — what the frame of a push has to say after the operations that came behind the push: this leaves one frame
  only (`Verdict.unique`);
* `exists_after_push` — while the frame is on the stack it says just that, and the frames beneath it have at most been
  marked: one step keeps it (`Held.step`), so every run does;
* `pop?_after` — a pop gives the frame of the latest push that is not matched, and fails just if there is none.
-/

namespace HybridTemplate

namespace FrameStack

/-- An operation on the stack. -/
inductive Op where
  | push (name : String)
  | pop
  | mark
  | record (child : Frame)
deriving DecidableEq

/-- The stack after an operation. A pop without a frame to give leaves it as it is. -/
def step (s : FrameStack) : Op → FrameStack
  | .push name => s.push name
  | .pop => (s.pop?.map Prod.snd).getD s
  | .mark => s.markUncacheable
  | .record child => s.recordInlined child

/-- The stack after operations, one after the other. -/
def after (s : FrameStack) (ops : List Op) : FrameStack :=
  ops.foldl step s

/-- The frame that an operation gives: a pop gives the innermost one, if there is one. -/
def given (s : FrameStack) : Op → Option Frame
  | .pop => s.top?
  | _ => none

/-- The frames that operations give, one after the other. -/
def allGiven (s : FrameStack) : List Op → List Frame
  | [] => []
  | op :: ops => (s.given op).toList ++ (s.step op).allGiven ops

/-! ## Histories -/

namespace Op

/-- Whether the operation is a push. -/
def isPush : Op → Bool
  | push _ => true
  | _ => false

/-- How many more frames there are after an operation, where a pop has a frame to give. -/
def rise : Op → Int
  | push _ => 1
  | pop => -1
  | mark => 0
  | record _ => 0

/-- How many more frames there are after operations, where each pop has a frame to give. -/
def height : List Op → Int
  | [] => 0
  | op :: ops => op.rise + height ops

/-- At no point more has been popped than pushed. -/
def Above (ops : List Op) : Prop :=
  ∀ pre, pre <+: ops → 0 ≤ height pre

/-- As much is popped as is pushed, and at no point more: each push has its pop, and each pop its push. -/
structure Matched (ops : List Op) : Prop where
  level : height ops = 0
  above : Above ops

/-- The operation is done at a place where the operations before it are matched, so the frame is on top that was there
at the beginning. -/
def OnTop (op : Op) (ops : List Op) : Prop :=
  ∃ pre post, ops = pre ++ op :: post ∧ Matched pre

section

variable {op o : Op} {ops : List Op}

@[simp] theorem height_nil : height [] = 0 := rfl

@[simp] theorem height_cons (op : Op) (ops : List Op) : height (op :: ops) = op.rise + height ops := rfl

@[simp] theorem height_append (as bs : List Op) : height (as ++ bs) = height as + height bs := by
  induction as with
  | nil => exact (Int.zero_add _).symm
  | cons op as ih => rw [List.cons_append, height_cons, height_cons, ih, Int.add_assoc]

theorem above_nil : Above [] := by
  intro pre hpre
  rw [List.prefix_nil.mp hpre]
  exact Int.le_refl 0

theorem Above.of_append {as bs : List Op} (h : Above (as ++ bs)) : Above as :=
  fun pre hpre => h pre (hpre.trans (List.prefix_append as bs))

theorem Above.height_nonneg (h : Above ops) : 0 ≤ height ops :=
  h ops (List.prefix_refl ops)

/-- Operations that end no lower than they began can be followed by others that stay above that. -/
theorem Above.append {as bs : List Op} (ha : Above as) (hb : ∀ pre, pre <+: bs → 0 ≤ height as + height pre) :
    Above (as ++ bs) := by
  intro pre hpre
  rcases List.prefix_or_prefix_of_prefix hpre (List.prefix_append as bs) with h | ⟨pre', rfl⟩
  · exact ha pre h
  · rw [height_append]
    exact hb pre' ((List.prefix_append_right_inj as).mp hpre)

theorem matched_nil : Matched [] :=
  ⟨rfl, above_nil⟩

theorem Matched.append {as bs : List Op} (ha : Matched as) (hb : Matched bs) : Matched (as ++ bs) where
  level := by rw [height_append, ha.level, hb.level, Int.add_zero]
  above := ha.above.append fun pre hpre => by
    rw [ha.level, Int.zero_add]
    exact hb.above pre hpre

theorem matched_singleton (hop : op.rise = 0) : Matched [op] where
  level := by simp [hop]
  above pre hpre := by
    rcases List.prefix_cons_iff.mp hpre with rfl | ⟨rest, rfl, hrest⟩
    · exact Int.le_refl 0
    · rw [List.prefix_nil.mp hrest, height_cons, height_nil, hop]
      exact Int.le_refl 0

/-- A push and a pop around matched operations are matched with each other. -/
theorem Matched.bracket {name : String} (h : Matched ops) : Matched (.push name :: ops ++ [.pop]) where
  level := by simp [rise, h.level]
  above pre hpre := by
    rcases List.prefix_concat_iff.mp hpre with rfl | hpre
    · simp [rise, h.level]
    · rcases List.prefix_cons_iff.mp hpre with rfl | ⟨rest, rfl, hrest⟩
      · exact Int.le_refl 0
      · have hnonneg := h.above rest hrest
        rw [height_cons, rise]
        omega

/-- The last operation is done on top just if those before it are matched. -/
theorem onTop_concat : OnTop op (ops ++ [o]) ↔ OnTop op ops ∨ op = o ∧ Matched ops := by
  constructor
  · rintro ⟨pre, post, heq, hpre⟩
    rcases List.eq_nil_or_concat post with rfl | ⟨post, last, rfl⟩
    · obtain ⟨rfl, hop⟩ := List.append_inj' heq rfl
      exact .inr ⟨(List.singleton_inj.mp hop).symm, hpre⟩
    · have hconcat : ops ++ [o] = (pre ++ op :: post) ++ [last] := by simpa using heq
      obtain ⟨rfl, -⟩ := List.append_inj' hconcat rfl
      exact .inl ⟨pre, post, rfl, hpre⟩
  · rintro (⟨pre, post, rfl, hpre⟩ | ⟨rfl, h⟩)
    · exact ⟨pre, post ++ [o], by simp, hpre⟩
    · exact ⟨ops, [], rfl, h⟩

end

end Op

/-! ## Verdicts -/

open Op

/-- A mark reached the frame during the operations: under the policy that spreads each mark does, and otherwise one that
is made while the frame is on top. -/
def Tainted : TaintPolicy → List Op → Prop
  | .propagating, ops => .mark ∈ ops
  | .localOnly, ops => OnTop .mark ops

/-- What the frame of a push says after the operations that came behind the push. -/
structure Verdict (π : TaintPolicy) (name : String) (ops : List Op) (f : Frame) : Prop where
  name : f.name = name
  cacheable : f.cacheable = true ↔ ¬Tainted π ops
  inlined : ∀ k, k ∈ f.inlined ↔ ∃ child, OnTop (.record child) ops ∧ (k = child.name ∨ k ∈ child.inlined)

/-- Frames after the marks among operations that went on above them. -/
def beneath (π : TaintPolicy) (ops : List Op) (fs : List Frame) : List Frame :=
  if π = .propagating ∧ .mark ∈ ops then fs.map Frame.mark else fs

/-- On the stack are frames that were pushed by the operations and not popped, the frame of the push before them, and
beneath it the frames that were there already. -/
structure Held (π : TaintPolicy) (name : String) (below : List Frame) (ops : List Op) (s : FrameStack)
    (inner : List Frame) (f : Frame) : Prop where
  stack : s = ⟨π, inner ++ f :: beneath π ops below⟩
  length : (inner.length : Int) = height ops
  verdict : Verdict π name ops f

section

variable {π : TaintPolicy} {name : String} {below : List Frame} {op : Op} {ops : List Op} {s : FrameStack} {f g : Frame}
  {inner : List Frame}

/-- The operations behind a push settle the frame. -/
theorem Verdict.unique (hf : Verdict π name ops f) (hg : Verdict π name ops g) : f = g := by
  obtain ⟨n, c, i⟩ := f
  obtain ⟨n', c', i'⟩ := g
  obtain rfl : n = n' := hf.name.trans hg.name.symm
  obtain rfl : c = c' := Bool.eq_iff_iff.mpr (hf.cacheable.trans hg.cacheable.symm)
  obtain rfl : i = i' := NameSet.ext_mem fun k => (hf.inlined k).trans (hg.inlined k).symm
  rfl

theorem verdict_nil (π : TaintPolicy) (name : String) : Verdict π name [] { name } where
  name := rfl
  cacheable := by
    cases π <;> simp [Tainted, OnTop]
  inlined k := by simp [OnTop]

/-- An operation that neither reaches the frame with a mark nor records anything on it leaves the verdict as it is. -/
theorem Verdict.concat (h : Verdict π name ops f) (hmark : Tainted π (ops ++ [op]) ↔ Tainted π ops)
    (hrecord : ∀ child, OnTop (.record child) (ops ++ [op]) ↔ OnTop (.record child) ops) :
    Verdict π name (ops ++ [op]) f where
  name := h.name
  cacheable := by rw [hmark, h.cacheable]
  inlined k := by simp only [hrecord, h.inlined]

/-- A mark that reaches the frame lowers its flag. -/
theorem Verdict.mark (h : Verdict π name ops f) (hmark : Tainted π (ops ++ [.mark])) :
    Verdict π name (ops ++ [.mark]) f.mark where
  name := h.name
  cacheable := by simp [Frame.mark, hmark]
  inlined k := by
    simp only [onTop_concat, reduceCtorEq, false_and, or_false]
    exact h.inlined k

/-- A record adds to the frame that is on top. -/
theorem Verdict.record (h : Verdict π name ops f) (hops : Matched ops) (child : Frame) :
    Verdict π name (ops ++ [.record child]) (f.inline child) where
  name := h.name
  cacheable := by
    refine h.cacheable.trans (not_congr ?_)
    cases π <;> simp [Tainted, onTop_concat]
  inlined k := by
    simp only [Frame.inline, NameSet.mem_insert, NameSet.mem_union, h.inlined, onTop_concat, Op.record.injEq, hops,
      and_true, or_and_right, exists_or, exists_eq_left]
    exact or_left_comm

theorem beneath_nil (ops : List Op) : beneath π ops [] = [] :=
  ite_self []

theorem beneath_concat (hop : op ≠ .mark) (fs : List Frame) : beneath π (ops ++ [op]) fs = beneath π ops fs := by
  simp [beneath, hop.symm]

/-- A mark that spreads reaches what is beneath, once and for all. -/
theorem map_mark_beneath (ops : List Op) (fs : List Frame) :
    (beneath .propagating ops fs).map Frame.mark = beneath .propagating (ops ++ [.mark]) fs := by
  by_cases h : .mark ∈ ops <;> simp [beneath, h, Frame.mark]

theorem tainted_concat (hop : op ≠ .mark) : Tainted π (ops ++ [op]) ↔ Tainted π ops := by
  cases π <;> simp [Tainted, onTop_concat, hop.symm]

/-- An operation that leaves alone what was on the stack can only push or pop. -/
theorem Verdict.of_bracket (h : Verdict π name ops f) (hmark : op ≠ .mark) (hrecord : ∀ child, op ≠ .record child) :
    Verdict π name (ops ++ [op]) f :=
  h.concat (tainted_concat hmark) fun child => by simp [onTop_concat, (hrecord child).symm]

namespace Held

theorem push (h : Held π name below ops s inner f) (n : String) :
    Held π name below (ops ++ [.push n]) (s.push n) ({ name := n } :: inner) f where
  stack := by rw [h.stack, beneath_concat (by simp)]; rfl
  length := by simp [rise, ← h.length]
  verdict := h.verdict.of_bracket (by simp) (by simp)

theorem pop (h : Held π name below ops s (g :: inner) f) :
    s.pop? = some (g, s.step .pop) ∧ Held π name below (ops ++ [.pop]) (s.step .pop) inner f := by
  have hpop : s.pop? = some (g, ⟨π, inner ++ f :: beneath π ops below⟩) := by rw [h.stack]; rfl
  rw [step, hpop]
  refine ⟨rfl, ⟨?_, ?_, h.verdict.of_bracket (by simp) (by simp)⟩⟩
  · rw [beneath_concat (by simp)]; rfl
  · have hlength := h.length
    rw [List.length_cons] at hlength
    simp only [height_append, height_cons, rise, height_nil]
    omega

/-- An operation on the innermost frame is one on the frame itself just if the operations before it are matched. -/
theorem mapTop (h : Held π name below ops s inner f) {change : Frame → Frame} (hops : Above ops) (hop : op.rise = 0)
    (hbeneath : beneath π (ops ++ [op]) below = beneath π ops below)
    (hon : Matched ops → Verdict π name (ops ++ [op]) (change f))
    (hoff : ¬Matched ops → Verdict π name (ops ++ [op]) f) :
    ∃ inner' f', Held π name below (ops ++ [op]) ⟨π, FrameStack.mapTop change s.frames⟩ inner' f' := by
  have hheight : Op.height (ops ++ [op]) = Op.height ops := by simp [hop]
  rw [h.stack]
  cases inner with
  | nil =>
    have hmatched : Matched ops := ⟨h.length.symm, hops⟩
    exact ⟨[], change f, by rw [hbeneath]; rfl, by rw [hheight]; exact h.length, hon hmatched⟩
  | cons g inner =>
    have hlength := h.length
    have hmatched : ¬Matched ops := by
      intro hm
      rw [hm.level] at hlength
      exact absurd hlength (by simp; omega)
    exact ⟨change g :: inner, f, by rw [hbeneath]; rfl, by rw [hheight]; exact hlength, hoff hmatched⟩

theorem mark (h : Held π name below ops s inner f) (hops : Above ops) :
    ∃ inner' f', Held π name below (ops ++ [.mark]) s.markUncacheable inner' f' := by
  cases π with
  | propagating =>
    have htainted : Tainted .propagating (ops ++ [.mark]) := by simp [Tainted]
    refine ⟨inner.map Frame.mark, f.mark, ?_, ?_, h.verdict.mark htainted⟩
    · rw [h.stack]
      simp [markUncacheable, map_mark_beneath]
    · simp [rise, h.length]
  | localOnly =>
    have hmark : s.markUncacheable = ⟨.localOnly, FrameStack.mapTop Frame.mark s.frames⟩ := by rw [h.stack]; rfl
    rw [hmark]
    refine h.mapTop hops rfl rfl (fun hm => h.verdict.mark (onTop_concat.mpr (.inr ⟨rfl, hm⟩))) fun hm => ?_
    exact h.verdict.concat (by simp [Tainted, onTop_concat, hm]) fun child => by simp [onTop_concat]

theorem record (h : Held π name below ops s inner f) (hops : Above ops) (child : Frame) :
    ∃ inner' f', Held π name below (ops ++ [.record child]) (s.recordInlined child) inner' f' := by
  have hrecord : s.recordInlined child = ⟨π, FrameStack.mapTop (·.inline child) s.frames⟩ := by rw [h.stack]; rfl
  rw [hrecord]
  refine h.mapTop hops rfl (beneath_concat (by simp) below) (fun hm => h.verdict.record hm child) fun hm => ?_
  exact h.verdict.concat (tainted_concat (by simp)) fun child => by simp [onTop_concat, hm]

/-- One operation keeps the frame on the stack, unless it pops it, and brings its verdict up to date. -/
theorem step (h : Held π name below ops s inner f) (hops : Above (ops ++ [op])) :
    ∃ inner' f', Held π name below (ops ++ [op]) (s.step op) inner' f' := by
  cases op with
  | push n => exact ⟨_, f, h.push n⟩
  | mark => exact h.mark hops.of_append
  | record child => exact h.record hops.of_append child
  | pop =>
    cases inner with
    | cons g inner => exact ⟨inner, f, h.pop.2⟩
    | nil =>
      -- this pop would be one of the frame itself
      have hlength := h.length
      have hnonneg := hops.height_nonneg
      simp [rise, ← hlength] at hnonneg

end Held

/-- While the operations stay above it, the frame of a push is on the stack and says what they did. -/
theorem exists_after_push (s : FrameStack) (name : String) (hops : Above ops) :
    ∃ inner f, Held s.policy name s.frames ops ((s.push name).after ops) inner f := by
  induction ops using List.reverseRecOn with
  | nil => exact ⟨[], { name }, by simp [beneath, after, push], rfl, verdict_nil s.policy name⟩
  | append_singleton ops op ih =>
    obtain ⟨inner, f, h⟩ := ih hops.of_append
    rw [after, List.foldl_append]
    exact h.step hops

end

/-! ## Pops -/

section

variable {s : FrameStack} {op : Op} {ops : List Op}

/-- The stack on which no inclusion has begun. -/
def empty (π : TaintPolicy) : FrameStack :=
  { policy := π }

theorem after_append (s : FrameStack) (as bs : List Op) : s.after (as ++ bs) = (s.after as).after bs :=
  List.foldl_append

theorem after_concat (s : FrameStack) (ops : List Op) (op : Op) : s.after (ops ++ [op]) = (s.after ops).step op :=
  after_append s ops [op]

@[simp] theorem policy_step (s : FrameStack) (op : Op) : (s.step op).policy = s.policy := by
  cases op with
  | push name => rfl
  | mark => exact s.policy_mark
  | record child => rfl
  | pop =>
    obtain ⟨π, _ | ⟨f, fs⟩⟩ := s <;> rfl

@[simp] theorem policy_after (s : FrameStack) (ops : List Op) : (s.after ops).policy = s.policy := by
  induction ops generalizing s with
  | nil => rfl
  | cons op ops ih => exact (ih (s.step op)).trans (s.policy_step op)

/-- Behind matched operations the frame of the push before them is popped, and the frames beneath it have at most been
marked. -/
theorem exists_pop?_of_matched (s : FrameStack) (name : String) (hops : Matched ops) :
    ∃ f, Verdict s.policy name ops f ∧
      ((s.push name).after ops).pop? = some (f, { s with frames := beneath s.policy ops s.frames }) := by
  obtain ⟨inner, f, hstack, hlength, hverdict⟩ := exists_after_push s name hops.above
  rw [hops.level] at hlength
  obtain rfl : inner = [] := List.length_eq_zero_iff.mp (by exact_mod_cast hlength)
  exact ⟨f, hverdict, by rw [hstack]; rfl⟩

/-- A push and a pop around matched operations leave the frames that were there. -/
theorem after_bracket (s : FrameStack) (name : String) (hops : Matched ops) :
    s.after (.push name :: ops ++ [.pop]) = { s with frames := beneath s.policy ops s.frames } := by
  obtain ⟨f, -, hpop⟩ := s.exists_pop?_of_matched name hops
  rw [after_concat]
  show ((s.push name).after ops).step .pop = _
  rw [step, hpop]
  rfl

theorem step_of_frames_eq_nil (hs : s.frames = []) (hop : op.isPush = false) : s.step op = s := by
  obtain ⟨π, fs⟩ := s
  obtain rfl : fs = [] := hs
  cases op with
  | push name => cases hop
  | pop => rfl
  | mark => cases π <;> rfl
  | record child => rfl

/-- Of a history either no frame is left, or there is a push with nothing but matched operations behind it. -/
theorem frames_after_eq_nil_or (π : TaintPolicy) (ops : List Op) :
    ((empty π).after ops).frames = [] ∨
      ∃ before name later, ops = before ++ .push name :: later ∧ Matched later := by
  induction hn : ops.length using Nat.strongRecOn generalizing ops with
  | _ n ih =>
    rcases List.eq_nil_or_concat ops with rfl | ⟨ops, op, rfl⟩
    · exact .inl rfl
    · rw [List.concat_eq_append] at hn ⊢
      have hlength : ops.length < n := by rw [← hn, List.length_append]; exact Nat.lt_succ_self _
      rw [after_concat]
      by_cases hrise : op.rise = 0
      · rcases ih _ hlength ops rfl with hnil | ⟨before, name, later, rfl, hlater⟩
        · have hpush : op.isPush = false := by cases op <;> simp_all [rise, isPush]
          exact .inl (by rw [step_of_frames_eq_nil hnil hpush]; exact hnil)
        · exact .inr ⟨before, name, later ++ [op], by simp, hlater.append (matched_singleton hrise)⟩
      · cases op with
        | mark => exact absurd rfl hrise
        | record child => exact absurd rfl hrise
        | push name => exact .inr ⟨ops, name, [], rfl, matched_nil⟩
        | pop =>
          rcases ih _ hlength ops rfl with hnil | ⟨before, name, later, rfl, hlater⟩
          · exact .inl (by rw [step_of_frames_eq_nil hnil rfl]; exact hnil)
          · -- the pop is the one of the push, so whether a frame is left was decided before that
            have hbefore : before.length < n :=
              Nat.lt_of_le_of_lt (by rw [List.length_append]; exact Nat.le_add_right _ _) hlength
            rcases ih _ hbefore before rfl with hnil | ⟨before, name', later', rfl, hlater'⟩
            · rw [← after_concat, List.append_assoc, after_append, after_bracket _ name hlater, hnil]
              exact .inl (beneath_nil later)
            · exact .inr ⟨before, name', later' ++ (.push name :: later ++ [.pop]), by simp,
                hlater'.append hlater.bracket⟩

/-- Each frame was pushed, and is on the stack until it is popped. -/
theorem length_after (s : FrameStack) (ops : List Op) :
    (s.after ops).depth + (s.allGiven ops).length = s.depth + ops.countP isPush := by
  induction ops generalizing s with
  | nil => rfl
  | cons op ops ih =>
    have hstep : (s.step op).depth + (s.given op).toList.length = s.depth + [op].countP isPush := by
      cases op with
      | push name => simp [step, given, isPush, depth, push]
      | mark => simp [step, given, isPush]
      | record child => simp [step, given, isPush]
      | pop => obtain ⟨π, _ | ⟨f, fs⟩⟩ := s <;> rfl
    have hrest := ih (s.step op)
    rw [after, List.foldl_cons, ← after, allGiven, List.length_append, ← List.singleton_append, List.countP_append]
    omega

/-- A pop gives the frame of the latest push that is not matched, with the verdict on what came behind it. It fails just
if as many frames have been popped as were pushed, and then the stack is left as it is and the run is aborted. -/
theorem pop?_after (π : TaintPolicy) (ops : List Op) :
    (∀ f s, ((empty π).after ops).pop? = some (f, s) →
      ∃ before name later, ops = before ++ .push name :: later ∧ Matched later ∧ Verdict π name later f) ∧
    (((empty π).after ops).pop? = none ↔ ops.countP isPush = ((empty π).allGiven ops).length) ∧
    (((empty π).after ops).pop? = none → (empty π).after (ops ++ [.pop]) = (empty π).after ops ∧
      ∀ {σ ε : Type} (w : World σ) (h : Registers.Handle), (w.registers.get h).stack = (empty π).after ops →
        (World.popFrame h : Run (World σ) ε Frame).run w = (.error (.abort .stackUnderflow), w)) := by
  refine ⟨fun f s hpop => ?_, ?_, fun hpop => ⟨?_, fun w h hstack => ?_⟩⟩
  · rcases frames_after_eq_nil_or π ops with hnil | ⟨before, name, later, rfl, hlater⟩
    · rw [(pop?_eq_none_iff _).mpr hnil] at hpop
      cases hpop
    · obtain ⟨g, hverdict, hpop'⟩ := exists_pop?_of_matched ((empty π).after before) name hlater
      rw [after_append] at hpop
      obtain ⟨rfl, -⟩ := Prod.mk.inj (Option.some.inj (hpop'.symm.trans hpop))
      rw [policy_after] at hverdict
      exact ⟨before, name, later, rfl, hlater, hverdict⟩
  · have hlength := length_after (empty π) ops
    rw [pop?_eq_none_iff, ← List.length_eq_zero_iff]
    rw [depth, depth, empty, List.length_nil] at hlength
    rw [empty]
    omega
  · rw [after_concat, step, hpop]
    rfl
  · simp only [World.popFrame, Run.run, hstack, hpop]

/-- A mark in an inner frame reaches the frame beneath just where marks spread. -/
example :
    ((empty .localOnly).after [.push "page", .push "row", .mark, .pop]).top? = some { name := "page" } ∧
      ((empty .propagating).after [.push "page", .push "row", .mark, .pop]).top? =
        some { name := "page", cacheable := false } := by
  decide

end

end FrameStack

end HybridTemplate
