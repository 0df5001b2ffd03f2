/-!
# Sources of templates

A `Source` answers reads of template sources by name and remembers them. The answer may depend on the reads before it:
a source is *stable* if it does not (`Source.Stable`).
-/

namespace HybridTemplate

/-- Why a source has no answer. -/
inductive SourceError where
  | notFound (name : String)
deriving DecidableEq, Repr

/-- The error in words. -/
def SourceError.message : SourceError → String
  | notFound name => "template not found: " ++ name

/-- A provider of template sources. -/
structure Source where
  /-- The answer to a read of a name after the given earlier reads, latest first. -/
  answer : List String → String → Except SourceError String
  /-- The names read so far, latest first. -/
  reads : List String := []

namespace Source

/-- Reads a name. -/
def read (s : Source) (name : String) : Except SourceError String × Source :=
  (s.answer s.reads name, { s with reads := name :: s.reads })

/-- How often a name has been read, failed reads included. -/
def readCount (s : Source) (name : String) : Nat :=
  s.reads.count name

/-- A source is stable if all reads of a name have the same answer. -/
def Stable (s : Source) : Prop :=
  ∀ earlier earlier' name, s.answer earlier name = s.answer earlier' name

/-- A source without any template. -/
def empty : Source :=
  { answer := fun _ name => .error (.notFound name) }

instance : Inhabited Source := ⟨empty⟩

/-- The source that answers each name by a look-up. -/
def ofLookup (get? : String → Option String) : Source :=
  { answer := fun _ name => match get? name with
      | some text => .ok text
      | none => .error (.notFound name) }

theorem stable_ofLookup (get? : String → Option String) : (ofLookup get?).Stable :=
  fun _ _ _ => rfl

@[simp] theorem answer_read (s : Source) (name : String) : (s.read name).2.answer = s.answer := rfl

@[simp] theorem reads_read (s : Source) (name : String) : (s.read name).2.reads = name :: s.reads := rfl

theorem readCount_read (s : Source) (name k : String) :
    (s.read name).2.readCount k = s.readCount k + if name = k then 1 else 0 := by
  simp [readCount, List.count_cons]

end Source

end HybridTemplate
