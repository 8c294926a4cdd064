import DebugAgent.Record.Basic

/-!
# Events

An event request names a kind of event and may narrow it by modifiers.  When requests fire, the
client receives one event set: an event per request that fired, all of the same occurrence, under
one suspend policy.
-/

namespace DebugAgent

/-- Kinds of events that the protocol knows. -/
inductive EventKind where
  | singleStep
  | breakpoint
  | framePop
  | exception
  | userDefined
  | threadStart
  | threadDeath
  | classPrepare
  | classUnload
  | classLoad
  | fieldAccess
  | fieldModification
  | exceptionCatch
  | methodEntry
  | methodExit
  | methodExitWithReturnValue
  | monitorContendedEnter
  | monitorContendedEntered
  | monitorWait
  | monitorWaited
  | vmStart
  | vmDeath
  deriving DecidableEq, Repr

namespace EventKind

def all : List EventKind :=
  [.singleStep, .breakpoint, .framePop, .exception, .userDefined, .threadStart, .threadDeath,
    .classPrepare, .classUnload, .classLoad, .fieldAccess, .fieldModification, .exceptionCatch,
    .methodEntry, .methodExit, .methodExitWithReturnValue, .monitorContendedEnter,
    .monitorContendedEntered, .monitorWait, .monitorWaited, .vmStart, .vmDeath]

/-- The name of a kind in records. -/
def name : EventKind → String
  | .singleStep => "SingleStep"
  | .breakpoint => "Breakpoint"
  | .framePop => "FramePop"
  | .exception => "Exception"
  | .userDefined => "UserDefined"
  | .threadStart => "ThreadStart"
  | .threadDeath => "ThreadDeath"
  | .classPrepare => "ClassPrepare"
  | .classUnload => "ClassUnload"
  | .classLoad => "ClassLoad"
  | .fieldAccess => "FieldAccess"
  | .fieldModification => "FieldModification"
  | .exceptionCatch => "ExceptionCatch"
  | .methodEntry => "MethodEntry"
  | .methodExit => "MethodExit"
  | .methodExitWithReturnValue => "MethodExitWithReturnValue"
  | .monitorContendedEnter => "MonitorContendedEnter"
  | .monitorContendedEntered => "MonitorContendedEntered"
  | .monitorWait => "MonitorWait"
  | .monitorWaited => "MonitorWaited"
  | .vmStart => "VmStart"
  | .vmDeath => "VmDeath"

def code : EventKind → Nat
  | .singleStep => 1
  | .breakpoint => 2
  | .framePop => 3
  | .exception => 4
  | .userDefined => 5
  | .threadStart => 6
  | .threadDeath => 7
  | .classPrepare => 8
  | .classUnload => 9
  | .classLoad => 10
  | .fieldAccess => 20
  | .fieldModification => 21
  | .exceptionCatch => 30
  | .methodEntry => 40
  | .methodExit => 41
  | .methodExitWithReturnValue => 42
  | .monitorContendedEnter => 43
  | .monitorContendedEntered => 44
  | .monitorWait => 45
  | .monitorWaited => 46
  | .vmStart => 90
  | .vmDeath => 99

/-- The kind with a given code. -/
def ofCode (code : Nat) : Except ProtocolError EventKind :=
  match all.find? fun kind => kind.code = code with
  | some kind => .ok kind
  | none => .error .invalidEventType

/-- Kinds that requests can be registered for. -/
def isSupported : EventKind → Bool
  | .singleStep | .breakpoint | .exception | .threadStart | .threadDeath | .classPrepare
  | .methodEntry | .methodExit | .vmDeath => true
  | _ => false

end EventKind

/-- Which threads stop while the client looks at an event, from the weakest policy to the strongest.
-/
inductive SuspendPolicy where
  | none
  | eventThread
  | all
  deriving DecidableEq, Repr

namespace SuspendPolicy

def name : SuspendPolicy → String
  | .none => "None"
  | .eventThread => "EventThread"
  | .all => "All"

def code : SuspendPolicy → Nat
  | .none => 0
  | .eventThread => 1
  | .all => 2

/-- The policy `a` is weaker than `b`. -/
def isWeaker (a b : SuspendPolicy) : Bool := a.code < b.code

/-- The stronger of two policies. -/
def strongest (a b : SuspendPolicy) : SuspendPolicy :=
  if a.isWeaker b then b else a

end SuspendPolicy

/-- How far a step goes before it counts. -/
inductive StepSize where
  | min
  | line
  deriving DecidableEq, Repr

/-- Whether a step enters calls, passes over them or leaves the method. -/
inductive StepDepth where
  | into
  | over
  | out
  deriving DecidableEq, Repr

/-- Narrows an event request. -/
inductive EventModifier where
  /-- Fires this many times, then expires. -/
  | count (times : Int)
  | threadOnly (thread : ObjectId)
  | classOnly (refType : ObjectId)
  | classMatch (pattern : String)
  | classExclude (pattern : String)
  | locationOnly (location : Location)
  /-- The type 0 stands for exceptions of any type. -/
  | exceptionOnly (refType : ObjectId) (caught uncaught : Bool)
  | fieldOnly (refType : ObjectId) (fieldId : FieldId)
  | step (thread : ObjectId) (size : StepSize) (depth : StepDepth)
  | instanceOnly (object : ObjectId)
  deriving DecidableEq, Repr

/-- What happened. -/
inductive EventDetails where
  | vmDeath
  | threadStart (thread : ObjectId)
  | threadDeath (thread : ObjectId)
  | classPrepare (thread : ObjectId) (refType : TaggedTypeId) (signature : String)
      (status : ClassStatus)
  | breakpoint (thread : ObjectId) (location : Location)
  | step (thread : ObjectId) (location : Location)
  | exception (thread : ObjectId) (location : Location) (thrown : TaggedObjectId)
      (catchLocation : Option Location)
  | methodEntry (thread : ObjectId) (location : Location)
  | methodExit (thread : ObjectId) (location : Location)
  deriving DecidableEq, Repr

namespace EventDetails

/-- The thread in which it happened. -/
def thread? : EventDetails → Option ObjectId
  | .vmDeath => none
  | .threadStart thread | .threadDeath thread | .classPrepare thread _ _ _
  | .breakpoint thread _ | .step thread _ | .exception thread _ _ _ | .methodEntry thread _
  | .methodExit thread _ => some thread

/-- The position at which it happened. -/
def location? : EventDetails → Option Location
  | .breakpoint _ location | .step _ location | .exception _ location _ _
  | .methodEntry _ location | .methodExit _ location => some location
  | _ => none

end EventDetails

/-- One event for one request.  The request 0 stands for events that are sent without a request. -/
structure Event where
  kind : EventKind
  requestId : RequestId
  details : EventDetails
  deriving DecidableEq, Repr

/-- The events that one occurrence caused. -/
structure EventSet where
  suspendPolicy : SuspendPolicy
  events : List Event
  deriving DecidableEq, Repr

end DebugAgent
