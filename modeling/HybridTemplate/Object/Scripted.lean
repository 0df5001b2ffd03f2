import HybridTemplate.Object.Basic

/-!
# Scripted objects

Data objects that answer by a script and write down every call, for trying out renders.

* `Script` — the members of an object with an `Act` for each of them, and how the object is converted for templates;
* `Heap` — how often each object has acted, and the calls in order;
* `Scripted` — an object at work: its script, its place on the heap and the registers that it was told. An act counts
  itself, works on these registers and then answers; `Scripted.perform` says how.
-/

namespace HybridTemplate

open Registers (Handle)

/-- What an act does to the registers that its object was told. -/
inductive Effect where
  | mark
  | cachingOn
  | cachingOff
deriving DecidableEq, Repr

/-- What an act looks up in the registers that its object was told. -/
inductive Probe where
  | depth
  | cacheable
  | caching
  | policy
  | frames
deriving DecidableEq, Repr

mutual

/-- What an object is like. -/
inductive Script where
  | mk (id : String) (members : List (String × Act)) (fallback : Option Act) (output : Option Act) (layers : Nat)
    (conversion : Option Conversion) (plain : Bool)

/-- What an object does when it is accessed. -/
inductive Act where
  | mk (effects : List Effect) (answer : Answer)

/-- What an object answers. -/
inductive Answer where
  | error (message : String)
  | notFound (name : String)
  /-- How often the object has acted. -/
  | count
  | probe (p : Probe)
  /-- A new object, which may be prepared for the render first. -/
  | object (script : Script) (exposed : Bool)
  | json (value : Json)

/-- What an object turns into for templates: a new object, or itself behind more layers. -/
inductive Conversion where
  | mk (into : Option Script) (layers : Nat)

end

instance : Inhabited Answer := ⟨.json .null⟩

instance : Inhabited Act := ⟨.mk [] default⟩

instance : Inhabited Script := ⟨.mk "" [] none none 0 none false⟩

instance : Inhabited Conversion := ⟨.mk none 0⟩

namespace Script

/-- The name of an object in the list of calls. -/
def id : Script → String
  | mk id _ _ _ _ _ _ => id

/-- The act for a member, or the one for members without an act of their own. -/
def actFor? (member : String) : Script → Option Act
  | mk _ members fallback _ _ _ _ => (members.lookup member).or fallback

/-- The act that gives the text of the object. -/
def output : Script → Option Act
  | mk _ _ _ output _ _ _ => output

/-- The number of layers that a new object is put behind. -/
def layers : Script → Nat
  | mk _ _ _ _ layers _ _ => layers

/-- What the object turns into. -/
def conversion : Script → Conversion
  | mk _ _ _ _ _ conversion _ => conversion.getD (.mk none 0)

/-- Whether the object has no text of its own and takes no notice of registers. -/
def plain : Script → Bool
  | mk _ _ _ _ _ _ plain => plain

mutual

/-- A bound on the number of objects each of which gives its text by the text of the next. -/
def height : Script → Nat
  | mk _ _ _ output _ conversion _ => 1 + outputHeight output + conversionHeight conversion

/-- The bound behind an act. -/
def outputHeight : Option Act → Nat
  | some (.mk _ (.object script _)) => script.height
  | _ => 0

/-- The bound behind a conversion. -/
def conversionHeight : Option Conversion → Nat
  | some (.mk (some script) _) => script.height
  | _ => 0

end

end Script

/-- How often objects have acted, and the calls to them. -/
structure Heap where
  /-- The number of acts of each object. -/
  counts : List Nat := []
  /-- The calls so far, latest first. -/
  calls : List String := []
deriving Inhabited

/-- An object that answers by its script. -/
structure Scripted where
  script : Script
  /-- The place of its count on the heap. -/
  cell : Nat
  /-- The registers that it was told last. -/
  registers : Option Handle := none

/-- Works on registers. -/
def Effect.apply (r : Registers) : Effect → Registers
  | .mark => r.markUncacheable
  | .cachingOn => r.setCaching true
  | .cachingOff => r.setCaching false

/-- A frame in a line of text: its name, whether it is cacheable, and what it has inlined. -/
def Probe.frameText (f : Frame) : String :=
  f.name ++ (if f.cacheable then "+" else "-") ++ "[" ++ ",".intercalate f.inlined.toList ++ "]"

/-- Looks something up in registers. -/
def Probe.read (r : Registers) : Probe → Json
  | .depth => .ofNat r.depth
  | .cacheable => .bool r.isCacheable
  | .caching => .bool r.caching
  | .policy => .string r.policy.name
  | .frames => .string ("|".intercalate (r.stack.fromOutermost.map frameText))

namespace Scripted

/-- Changes the state of the objects. -/
def onHeap (g : Heap → Heap) (w : Shared Heap) : Shared Heap :=
  { w with objects := g w.objects }

/-- Writes down a call. -/
def call (o : Scripted) (what : String) : Shared Heap → Shared Heap :=
  onHeap fun m => { m with calls := (o.script.id ++ "." ++ what) :: m.calls }

/-- A new object by a script, behind the layers that the script names. -/
def make (script : Script) : StateM (Shared Heap) (DataObject Scripted) := do
  let w ← get
  set (onHeap (fun m => { m with counts := m.counts ++ [0] }) w)
  return (DataObject.bare { script, cell := w.objects.counts.length }).wrap script.layers

/-- Takes note of the registers of the render. -/
def setRegisters (o : Scripted) (h : Handle) : StateM (Shared Heap) Scripted := do
  if o.script.plain then return o
  else
    modify (o.call "set_registers")
    return { o with registers := some h }

/-- Turns into the new object of the conversion, or goes behind its layers. -/
def toRenderable (o : Scripted) : StateM (Shared Heap) (DataObject Scripted) := do
  modify (o.call "to_renderable")
  match o.script.conversion with
  | .mk (some script) _ => make script
  | .mk none layers => return (DataObject.bare o).wrap layers

instance : Exposable Scripted Heap := ⟨setRegisters, toRenderable⟩

/-- A step that cannot fail. -/
def always {α : Type} (x : StateM (Shared Heap) α) : ObjectRun Heap α :=
  fun w => let (a, w) := x.run w; (.ok a, w)

/-- Counts one more act, and answers with the number of acts so far. -/
def countAct (o : Scripted) : ObjectRun Heap Nat := do
  Run.modify (onHeap fun m => { m with counts := m.counts.modify o.cell (· + 1) })
  Run.look fun w => w.objects.counts.getD o.cell 0

/-- Acts on an access to `member`. -/
def perform (o : Scripted) (member : String) : Act → ObjectRun Heap (Value Scripted)
  | .mk effects answer => do
    let count ← o.countAct
    if let some h := o.registers then
      Run.modify fun w => w.modifyRegisters h (effects.foldl Effect.apply)
    match answer with
    | .error message => .raise (.object member message)
    | .notFound name => .raise (.source (.notFound name))
    | .count => return .json (.ofNat count)
    | .probe p =>
      match o.registers with
      | none => return .null
      | some h => return .json (Probe.read (← Run.look fun w => w.registers.get h) p)
    | .object script false => return .object (← always (make script))
    | .object script true =>
      let object ← always (do (← make script).toRenderable)
      match o.registers with
      | none => return .object object
      | some h => return .object (← always (object.setRegisters h))
    | .json value => return .json value

/-- The value of a member. -/
def invoke (o : Scripted) (member : String) : ObjectRun Heap (Value Scripted) := do
  Run.modify (o.call ("invoke(" ++ member ++ ")"))
  match o.script.actFor? member with
  | some act => o.perform member act
  | none => .raise (.object member "no such member")

/-- The text of an object that gives it by the texts of fewer than `n` others. -/
def outputWithin : Nat → Scripted → ObjectRun Heap String
  | 0, _ => pure ""
  | n + 1, o => do
    if o.script.plain then return ""
    Run.modify (o.call "to_output")
    match o.script.output with
    | none => return ""
    | some act =>
      match ← o.perform "to_output" act with
      | .json value => return value.render
      | .object object => object.access "to_output" (outputWithin n)

/-- The text of the object: the text of the value that its output act answers. -/
def toOutput (o : Scripted) : ObjectRun Heap String :=
  outputWithin o.script.height o

instance : DataModel Scripted Heap := ⟨invoke, toOutput⟩

end Scripted

end HybridTemplate
