import DebugAgent.Event.Basic
import DebugAgent.Vm.Basic

/-!
# Event requests

A registered request keeps its modifiers as filters.  Two kinds of filters carry state that changes
when the request fires: a counter counts down, and a step remembers where it last stopped.

The machine knows nothing of requests.  It is asked once for each breakpoint and each kind of
callback, however many requests need it; the table counts the requests behind every such
registration.
-/

namespace DebugAgent

/-- Where a thread stands: how many frames it has, the method of the topmost one and the source line
in it, if there is line information. -/
structure StepPoint where
  frameDepth : Int
  method : MethodId
  line : Option Int
  deriving DecidableEq, Repr

/-- A step that has been asked for, and the point that it started from or last reached. -/
structure StepState where
  thread : ObjectId
  size : StepSize
  depth : StepDepth
  start : StepPoint
  deriving DecidableEq, Repr

/-- What an event has to be like for a request to fire. -/
inductive Filter where
  | count (remaining : Int)
  | threadOnly (thread : ObjectId)
  | classOnly (refType : ObjectId)
  | classMatch (pattern : String)
  | classExclude (pattern : String)
  | locationOnly (method : MethodId) (index : CodeIndex)
  | exceptionOnly (refType : ObjectId) (caught uncaught : Bool)
  | step (state : StepState)
  | instanceOnly (object : ObjectId)
  deriving DecidableEq, Repr

/-- A kind of callback, for all threads or for one. -/
abbrev NotificationKey := CallbackKind × Option ObjectId

/-- What a request needs from the machine. -/
structure Registration where
  breakpoint : Option (MethodId × CodeIndex)
  notification : NotificationKey
  deriving DecidableEq, Repr

/-- A registered event request. -/
structure Request where
  id : RequestId
  kind : EventKind
  policy : SuspendPolicy
  filters : List Filter
  registration : Registration
  deriving DecidableEq, Repr

/-- An enabled notification: the number of requests behind it and, if it is for one thread, a global
reference to the thread.  The number has no bound here: the overflow of a counter of fixed width is
out of range. -/
structure Notification where
  count : Nat
  thread : Option Handle
  deriving DecidableEq, Repr

/-- The registered requests in the order of their identifiers, the identifier of the next one, and
what they share.  Identifiers and the counts behind breakpoints have no bound here either: overflow is
out of range. -/
structure RequestTable where
  nextId : RequestId := 1
  requests : List Request := []
  breakpoints : Table (MethodId × CodeIndex) Nat := {}
  notifications : Table NotificationKey Notification := {}
  deriving Repr

namespace RequestTable

def find? (t : RequestTable) (id : RequestId) : Option Request :=
  t.requests.find? fun r => r.id = id

def contains (t : RequestTable) (id : RequestId) : Bool := (t.find? id).isSome

/-- Number of registered requests. -/
def size (t : RequestTable) : Nat := t.requests.length

def remove (t : RequestTable) (id : RequestId) : RequestTable :=
  { t with requests := t.requests.filter fun r => r.id ≠ id }

/-- Puts a request in the place of the one with its identifier. -/
def replace (t : RequestTable) (request : Request) : RequestTable :=
  { t with requests := t.requests.map fun r => if r.id = request.id then request else r }

/-- Registers a request under the next identifier. -/
def add (t : RequestTable) (kind : EventKind) (policy : SuspendPolicy) (filters : List Filter)
    (registration : Registration) : RequestTable :=
  { t with
    nextId := t.nextId + 1
    requests := t.requests ++ [⟨t.nextId, kind, policy, filters, registration⟩] }

end RequestTable

end DebugAgent
