import HybridTemplate.Json.Basic
import HybridTemplate.Stack.Basic

/-!
# Events of a render

What a render reports about itself, in order. `Event` says what happened, and `Event.entry` how it stands in the log:
spans are entered and left, and notes have a level, a message and fields.
-/

namespace HybridTemplate

/-- Something that happens in a render. -/
inductive Event where
  | renderStarted (caching : Bool)
  | renderEnded
  | precompileStarted
  | precompileEnded
  /-- An inclusion without access to dynamic data became text of the output. -/
  | frozen (template : String)
  /-- An inclusion with access to dynamic data stays a directive. -/
  | deferred (template : String) (depth inlined : Nat) (policy : TaintPolicy)
  /-- A precompilation is done: the number of templates kept, and the length of the output in bytes. -/
  | precompiled (dynamic bytes : Nat)
  /-- A member of dynamic data was read while `depth` inclusions were in progress. -/
  | accessed (member : String) (depth : Nat)
deriving DecidableEq, Repr

/-- How important a note is. -/
inductive Level where
  | debug
  | trace
deriving DecidableEq, Repr

/-- The level in capitals. -/
def Level.name : Level → String
  | debug => "DEBUG"
  | trace => "TRACE"

/-- A line of the log. -/
inductive LogEntry where
  | entered (span : String) (fields : List (String × Json))
  | left (span : String)
  | note (level : Level) (message : String) (fields : List (String × Json))

/-- The policy as it stands in the log. -/
def TaintPolicy.label : TaintPolicy → String
  | propagating => "Propagating"
  | localOnly => "LocalOnly"

/-- The line of an event. -/
def Event.entry : Event → LogEntry
  | renderStarted caching => .entered "render" [("caching", .bool caching)]
  | renderEnded => .left "render"
  | precompileStarted => .entered "precompile" []
  | precompileEnded => .left "precompile"
  | frozen template => .note .debug "partial frozen into output" [("template", .string template)]
  | deferred template depth inlined policy =>
    .note .debug "partial uncacheable, emitting directive"
      [("template", .string template), ("depth", .ofNat depth), ("inlined", .ofNat inlined),
        ("policy", .string policy.label)]
  | precompiled dynamic bytes =>
    .note .debug "precompiled template" [("dynamic", .ofNat dynamic), ("bytes", .ofNat bytes)]
  | accessed member depth =>
    .note .trace "dynamic data accessed" [("member", .string member), ("depth", .ofNat depth)]

end HybridTemplate
