import DebugAgent.Event.Basic
import DebugAgent.Record.Codec

/-!
# Events as JSON

A modifier is an object whose single member is named for the kind of the modifier.  The details of
an event name their kind in a member `type` beside their own members, so those are held back until
the kind is known.
-/

namespace DebugAgent

namespace EventKind

def names : List (String × EventKind) := all.map fun kind => (kind.name, kind)

def toJson (kind : EventKind) : Json := .ofString kind.name

def ofJson? (j : Json) : Option EventKind := j.enum? .direct names

end EventKind

namespace SuspendPolicy

def names : List (String × SuspendPolicy) :=
  [("None", .none), ("EventThread", .eventThread), ("All", .all)]

def toJson (policy : SuspendPolicy) : Json := .ofString policy.name

def ofJson? (j : Json) : Option SuspendPolicy := j.enum? .direct names

end SuspendPolicy

namespace StepSize

def names : List (String × StepSize) := [("Min", .min), ("Line", .line)]

def toJson : StepSize → Json
  | .min => .ofString "Min"
  | .line => .ofString "Line"

def ofJson? (j : Json) : Option StepSize := j.enum? .direct names

end StepSize

namespace StepDepth

def names : List (String × StepDepth) := [("Into", .into), ("Over", .over), ("Out", .out)]

def toJson : StepDepth → Json
  | .into => .ofString "Into"
  | .over => .ofString "Over"
  | .out => .ofString "Out"

def ofJson? (j : Json) : Option StepDepth := j.enum? .direct names

end StepDepth

namespace EventModifier

def toJson : EventModifier → Json
  | .count times => .record [("Count", .ofInt times)]
  | .threadOnly thread => .record [("ThreadOnly", .ofNat thread)]
  | .classOnly refType => .record [("ClassOnly", .ofNat refType)]
  | .classMatch pattern => .record [("ClassMatch", .ofString pattern)]
  | .classExclude pattern => .record [("ClassExclude", .ofString pattern)]
  | .locationOnly location => .record [("LocationOnly", location.toJson)]
  | .exceptionOnly refType caught uncaught =>
      .record
        [("ExceptionOnly",
          .record
            [("ref_type", .ofNat refType), ("caught", .bool caught), ("uncaught", .bool uncaught)])]
  | .fieldOnly refType fieldId =>
      .record
        [("FieldOnly", .record [("ref_type", .ofNat refType), ("field_id", .ofNat fieldId)])]
  | .step thread size depth =>
      .record
        [("Step",
          .record
            [("thread", .ofNat thread), ("size", size.toJson), ("depth", depth.toJson)])]
  | .instanceOnly object => .record [("InstanceOnly", .ofNat object)]

/-- The modifier with a given kind and content. -/
def ofMember? (kind : String) (content : Json) : Option EventModifier :=
  match kind with
  | "Count" => content.int32?.map .count
  | "ThreadOnly" => content.word64?.map .threadOnly
  | "ClassOnly" => content.word64?.map .classOnly
  | "ClassMatch" => content.string?.map .classMatch
  | "ClassExclude" => content.string?.map .classExclude
  | "LocationOnly" => (Location.ofJson? .direct content).map .locationOnly
  | "ExceptionOnly" => do
      let members ← content.known? ["ref_type", "caught", "uncaught"]
      let refType ← Json.field? members "ref_type" Json.word64?
      let caught ← Json.field? members "caught" Json.bool?
      let uncaught ← Json.field? members "uncaught" Json.bool?
      return .exceptionOnly refType caught uncaught
  | "FieldOnly" => do
      let members ← content.known? ["ref_type", "field_id"]
      let refType ← Json.field? members "ref_type" Json.word64?
      let fieldId ← Json.field? members "field_id" Json.word64?
      return .fieldOnly refType fieldId
  | "Step" => do
      let members ← content.known? ["thread", "size", "depth"]
      let thread ← Json.field? members "thread" Json.word64?
      let size ← Json.field? members "size" StepSize.ofJson?
      let depth ← Json.field? members "depth" StepDepth.ofJson?
      return .step thread size depth
  | "InstanceOnly" => content.word64?.map .instanceOnly
  | _ => none

def ofJson? : Json → Option EventModifier
  | .object [(some kind, content)] => ofMember? kind content
  | _ => none

end EventModifier

namespace EventDetails

def toJson : EventDetails → Json
  | .vmDeath => .record [("type", .ofString "VmDeath")]
  | .threadStart thread => .record [("type", .ofString "ThreadStart"), ("thread", .ofNat thread)]
  | .threadDeath thread => .record [("type", .ofString "ThreadDeath"), ("thread", .ofNat thread)]
  | .classPrepare thread refType signature status =>
      .record
        [("type", .ofString "ClassPrepare"), ("thread", .ofNat thread),
          ("ref_type", refType.toJson), ("signature", .ofString signature),
          ("status", status.toJson)]
  | .breakpoint thread location => located "Breakpoint" thread location
  | .step thread location => located "Step" thread location
  | .exception thread location thrown catchLocation =>
      .record
        [("type", .ofString "Exception"), ("thread", .ofNat thread),
          ("location", location.toJson), ("exception", thrown.toJson),
          ("catch_location", .ofOption Location.toJson catchLocation)]
  | .methodEntry thread location => located "MethodEntry" thread location
  | .methodExit thread location => located "MethodExit" thread location
where
  located (type : String) (thread : ObjectId) (location : Location) : Json :=
    .record
      [("type", .ofString type), ("thread", .ofNat thread), ("location", location.toJson)]

/-- The thread and the position of details that have no other members. -/
def locatedOfJson? (content : Json) : Option (ObjectId × Location) := do
  let members ← content.known? ["thread", "location"]
  let thread ← Json.field? members "thread" Json.word64?
  let location ← Json.field? members "location" (Location.ofJson? .heldBack)
  return (thread, location)

/-- The thread of details that have no other members. -/
def threadOfJson? (content : Json) : Option ObjectId := do
  let members ← content.known? ["thread"]
  Json.field? members "thread" Json.word64?

/-- The details of a given type. -/
def ofType? (type : String) (content : Json) : Option EventDetails :=
  match type with
  | "VmDeath" => (content.known? []).map fun _ => .vmDeath
  | "ThreadStart" => (threadOfJson? content).map .threadStart
  | "ThreadDeath" => (threadOfJson? content).map .threadDeath
  | "ClassPrepare" => do
      let members ← content.known? ["thread", "ref_type", "signature", "status"]
      let thread ← Json.field? members "thread" Json.word64?
      let refType ← Json.field? members "ref_type" (TaggedTypeId.ofJson? .heldBack)
      let signature ← Json.field? members "signature" Json.string?
      let status ← Json.field? members "status" ClassStatus.ofJson?
      return .classPrepare thread refType signature status
  | "Breakpoint" => (locatedOfJson? content).map fun p => .breakpoint p.1 p.2
  | "Step" => (locatedOfJson? content).map fun p => .step p.1 p.2
  | "Exception" => do
      let members ← content.known? ["thread", "location", "exception", "catch_location"]
      let thread ← Json.field? members "thread" Json.word64?
      let location ← Json.field? members "location" (Location.ofJson? .heldBack)
      let thrown ← Json.field? members "exception" (TaggedObjectId.ofJson? .heldBack)
      let catchLocation ←
        Json.fieldOr? members "catch_location" none (Json.option? (Location.ofJson? .heldBack))
      return .exception thread location thrown catchLocation
  | "MethodEntry" => (locatedOfJson? content).map fun p => .methodEntry p.1 p.2
  | "MethodExit" => (locatedOfJson? content).map fun p => .methodExit p.1 p.2
  | _ => none

/-- Levels of nesting that remain for the details of an event inside an event set: at most 127
containers are nested in one another, three of which enclose the details. -/
def depthLeft : Nat := 124

/-- The type must occur exactly once, or come first in an array; the members beside it are held
back. -/
def ofJson? : Json → Option EventDetails
  | .array (first :: rest) => do
      let type ← first.string?
      if (Json.array rest).fits depthLeft then ofType? type (.array rest) else none
  | j => do
      let typed ← j.known? ["type"]
      let type ← Json.field? typed "type" Json.string?
      if j.fits depthLeft then ofType? type j else none

end EventDetails

namespace Event

def toJson (e : Event) : Json :=
  .record
    [("kind", e.kind.toJson), ("request_id", .ofInt e.requestId), ("details", e.details.toJson)]

def ofJson? (j : Json) : Option Event := do
  let members ← j.known? ["kind", "request_id", "details"]
  let kind ← Json.field? members "kind" EventKind.ofJson?
  let requestId ← Json.field? members "request_id" Json.int32?
  let details ← Json.field? members "details" EventDetails.ofJson?
  return ⟨kind, requestId, details⟩

end Event

namespace EventSet

def toJson (s : EventSet) : Json :=
  .record
    [("suspend_policy", s.suspendPolicy.toJson), ("events", .array (s.events.map Event.toJson))]

def ofJson? (j : Json) : Option EventSet := do
  let members ← j.known? ["suspend_policy", "events"]
  let suspendPolicy ← Json.field? members "suspend_policy" SuspendPolicy.ofJson?
  let events ← Json.field? members "events" (Json.array? Event.ofJson?)
  return ⟨suspendPolicy, events⟩

end EventSet

end DebugAgent
