import DebugAgent.Event.Pattern
import DebugAgent.Request.Basic
import DebugAgent.Tracker
import DebugAgent.Vm.Jvmti

/-!
# Filters

A request fires if all its filters accept what happened.  What they look at is gathered once per
callback in a `Context`; each filter is then a test on the context, the machine and the identifiers
in use.

Counts accept everything.  They count only the callbacks that all other filters of their request
accept, and the request expires with the first count that is used up.
-/

namespace DebugAgent

/-- What the filters look at in a callback. -/
structure Context where
  /-- Identifier and object of the thread; 0 and none where there is no thread. -/
  threadId : ObjectId
  thread : Option HeapId := none
  /-- Where it happened. -/
  position : Option (MethodId × CodeIndex) := none
  /-- The class that declares the method there, or the class that was prepared. -/
  cls : Option HeapId := none
  className : Option String := none
  /-- The class of the thrown exception, and whether it is going to be caught. -/
  exceptionClass : Option HeapId := none
  caught : Bool := false
  /-- Known for steps only. -/
  frameDepth : Option Int := none
  line : Option Int := none
  /-- The receiver of the running method, if a filter asks for it. -/
  receiver : Option HeapId := none
  details : EventDetails
  deriving Repr

namespace Context

/-- Where the thread stands, as far as a step can tell. -/
def point? (ctx : Context) : Option StepPoint :=
  match ctx.frameDepth, ctx.position with
  | some frameDepth, some (method, _) => some ⟨frameDepth, method, ctx.line⟩
  | _, _ => none

end Context

namespace StepState

/-- The thread has moved far enough within a frame.  Without line information every instruction
counts as a line of its own. -/
def moved (step : StepState) (point : StepPoint) : Bool :=
  match step.size with
  | .min => true
  | .line =>
      point.method ≠ step.start.method || point.line.isNone || point.line ≠ step.start.line

/-- The step is complete at a point. -/
def reaches (step : StepState) (point : StepPoint) : Bool :=
  let start := step.start.frameDepth
  match step.depth with
  | .out => point.frameDepth < start
  | .over => point.frameDepth < start || (point.frameDepth = start && step.moved point)
  | .into => point.frameDepth ≠ start || step.moved point

end StepState

namespace Filter

/-- A class is the one that an identifier names, or can be kept in its place. -/
def isKindOf (vm : Vm) (tracker : Tracker) (refType : ObjectId) (cls : Option HeapId) : Bool :=
  match cls, tracker.target? vm refType with
  | some cls, some sup => vm.assignable cls sup
  | _, _ => false

/-- The name of a class matches a pattern.  Where there is no class nothing matches. -/
def nameMatches (pattern : String) (className : Option String) : Bool :=
  className.any fun name => classPatternMatches pattern.toList name.toList

/-- What happened is something that the filter lets through.  A step belongs to the thread that its
request is registered for, whatever became of the thread's identifier since; `stepThread` is the
reference that the registration holds. -/
def accepts (vm : Vm) (tracker : Tracker) (ctx : Context) (stepThread : Option Handle) :
    Filter → Bool
  | .count _ => true
  | .threadOnly thread => ctx.threadId = thread
  | .classOnly refType => isKindOf vm tracker refType ctx.cls
  | .classMatch pattern => nameMatches pattern ctx.className
  | .classExclude pattern => !nameMatches pattern ctx.className
  | .locationOnly method index => ctx.position = some (method, index)
  | .exceptionOnly refType caught uncaught =>
      (if ctx.caught then caught else uncaught) &&
        (refType = 0 || isKindOf vm tracker refType ctx.exceptionClass)
  | .step state =>
      ctx.point?.any state.reaches && stepThread.any fun thread => vm.target? thread = ctx.thread
  | .instanceOnly object =>
      match ctx.receiver, tracker.target? vm object with
      | some receiver, some target => receiver = target
      | _, _ => false

/-- The filter after its request fired: a count is one less and a step starts where it arrived. -/
def advance (ctx : Context) : Filter → Filter
  | .count remaining => .count (remaining - 1)
  | .step state =>
      match ctx.point? with
      | some point => .step { state with start := point }
      | none => .step state
  | filter => filter

/-- A count that is used up. -/
def isExhausted : Filter → Bool
  | .count remaining => remaining ≤ 0
  | _ => false

def isInstanceOnly : Filter → Bool
  | .instanceOnly _ => true
  | _ => false

end Filter

namespace Request

def fires (vm : Vm) (tracker : Tracker) (ctx : Context) (stepThread : Option Handle)
    (request : Request) : Bool :=
  request.filters.all (Filter.accepts vm tracker ctx stepThread)

/-- The request after it fired. -/
def advance (ctx : Context) (request : Request) : Request :=
  { request with filters := request.filters.map (Filter.advance ctx) }

/-- The request has fired as often as it was asked to. -/
def isExpired (request : Request) : Bool := request.filters.any Filter.isExhausted

/-- The request looks at the receiver of the running method. -/
def wantsReceiver (request : Request) : Bool := request.filters.any Filter.isInstanceOnly

end Request

namespace RequestTable

def ofKind (t : RequestTable) (kind : EventKind) : List Request :=
  t.requests.filter fun r => r.kind = kind

/-- The thread that the notification behind a request is held for. -/
def stepThread? (t : RequestTable) (request : Request) : Option Handle :=
  (t.notifications.get? request.registration.notification).bind Notification.thread

end RequestTable

end DebugAgent
