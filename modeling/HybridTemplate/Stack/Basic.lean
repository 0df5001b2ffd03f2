import HybridTemplate.Names.NameSet

/-!
# The stack of inclusions

While a template is rendered, each inclusion in progress has a `Frame` on the `FrameStack`. A frame starts out
cacheable; an access to dynamic data marks frames uncacheable, and a `TaintPolicy` says which. Once an inclusion is
done, its frame is popped, and its text may be recorded as inlined into the frame below.

* `push`, `pop?` — the innermost frame comes first (`pop?_push`);
* `markUncacheable` — no flag ever turns back to cacheable, and names and inlined sets stay (`map_name_mark`,
  `map_inlined_mark`);
* `recordInlined` — the frame below takes over the popped frame's name and what it had inlined itself.
-/

namespace HybridTemplate

/-- Which inclusions an access to dynamic data makes uncacheable. -/
inductive TaintPolicy where
  /-- All inclusions in progress, since each of them embeds the dynamic text. -/
  | propagating
  /-- The innermost inclusion alone. -/
  | localOnly
deriving DecidableEq, Repr, Inhabited

/-- The name of a policy. -/
def TaintPolicy.name : TaintPolicy → String
  | propagating => "propagating"
  | localOnly => "local_only"

/-- An inclusion in progress. -/
structure Frame where
  /-- The name of the included template. -/
  name : String
  /-- Whether no access to dynamic data has marked the inclusion. -/
  cacheable : Bool := true
  /-- The templates rendered beneath this one whose text went into its own. -/
  inlined : NameSet := ∅
deriving DecidableEq

namespace Frame

/-- The frame with its flag lowered. -/
def mark (f : Frame) : Frame :=
  { f with cacheable := false }

/-- The frame after the text of `child` went into its own. -/
def inline (f child : Frame) : Frame :=
  { f with inlined := (f.inlined.union child.inlined).insert child.name }

end Frame

/-- The inclusions in progress. -/
structure FrameStack where
  policy : TaintPolicy
  /-- The frames, innermost first. -/
  frames : List Frame := []
deriving DecidableEq

namespace FrameStack

/-- Starts an inclusion. -/
def push (s : FrameStack) (name : String) : FrameStack :=
  { s with frames := { name } :: s.frames }

/-- Ends the innermost inclusion. -/
def pop? (s : FrameStack) : Option (Frame × FrameStack) :=
  match s.frames with
  | [] => none
  | f :: fs => some (f, { s with frames := fs })

/-- Changes the innermost frame. -/
def mapTop (g : Frame → Frame) : List Frame → List Frame
  | [] => []
  | f :: fs => g f :: fs

/-- Marks the frames that the policy selects. -/
def markUncacheable (s : FrameStack) : FrameStack :=
  match s.policy with
  | .propagating => { s with frames := s.frames.map Frame.mark }
  | .localOnly => { s with frames := mapTop Frame.mark s.frames }

/-- Records that the text of `child` went into the innermost inclusion, if there is one. -/
def recordInlined (s : FrameStack) (child : Frame) : FrameStack :=
  { s with frames := mapTop (·.inline child) s.frames }

/-- The innermost frame. -/
def top? (s : FrameStack) : Option Frame :=
  s.frames.head?

/-- Whether the innermost inclusion is cacheable; without one there is nothing that is not. -/
def isTopCacheable (s : FrameStack) : Bool :=
  s.top?.all (·.cacheable)

/-- The number of inclusions in progress. -/
def depth (s : FrameStack) : Nat :=
  s.frames.length

/-- Whether no inclusion is in progress. -/
def isEmpty (s : FrameStack) : Bool :=
  s.frames.isEmpty

/-- The frames from the outermost to the innermost. -/
def fromOutermost (s : FrameStack) : List Frame :=
  s.frames.reverse

/-- No frames, under the same policy. -/
def cleared (s : FrameStack) : FrameStack :=
  { s with frames := [] }

/-! ## What the operations do to the frames -/

section

variable (s : FrameStack) (f : Frame)

@[simp] theorem pop?_push (name : String) : (s.push name).pop? = some ({ name }, s) := rfl

theorem pop?_eq_none_iff : s.pop? = none ↔ s.frames = [] := by
  unfold pop?; split <;> simp_all

@[simp] theorem policy_push (name : String) : (s.push name).policy = s.policy := rfl

@[simp] theorem policy_mark : s.markUncacheable.policy = s.policy := by
  unfold markUncacheable; split <;> rfl

@[simp] theorem policy_recordInlined : (s.recordInlined f).policy = s.policy := rfl

theorem map_mapTop {β : Type} {p : Frame → β} {g : Frame → Frame} (h : ∀ f, p (g f) = p f) (fs : List Frame) :
    (mapTop g fs).map p = fs.map p := by
  cases fs <;> simp [mapTop, h]

/-- A mark changes no name. -/
theorem map_name_mark : s.markUncacheable.frames.map Frame.name = s.frames.map Frame.name := by
  unfold markUncacheable
  split
  · simp [Function.comp_def, Frame.mark]
  · exact map_mapTop (fun f => by rfl) s.frames

/-- A mark changes no inlined set. -/
theorem map_inlined_mark : s.markUncacheable.frames.map Frame.inlined = s.frames.map Frame.inlined := by
  unfold markUncacheable
  split
  · simp [Function.comp_def, Frame.mark]
  · exact map_mapTop (fun f => by rfl) s.frames

/-- A record changes no name. -/
theorem map_name_recordInlined : (s.recordInlined f).frames.map Frame.name = s.frames.map Frame.name := by
  simp [recordInlined, map_mapTop, Frame.inline]

/-- A record changes no flag. -/
theorem map_cacheable_recordInlined :
    (s.recordInlined f).frames.map Frame.cacheable = s.frames.map Frame.cacheable := by
  simp [recordInlined, map_mapTop, Frame.inline]

@[simp] theorem length_mapTop (g : Frame → Frame) (fs : List Frame) : (mapTop g fs).length = fs.length := by
  cases fs <;> rfl

@[simp] theorem depth_mark : s.markUncacheable.depth = s.depth := by
  unfold markUncacheable depth; split <;> simp

@[simp] theorem depth_recordInlined : (s.recordInlined f).depth = s.depth := by
  simp [recordInlined, depth]

end

end FrameStack

end HybridTemplate
