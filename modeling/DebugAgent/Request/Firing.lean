import DebugAgent.Request.Capture
import DebugAgent.Request.Registration

/-!
# Firing requests

A callback fires the registered requests of its kind whose filters accept it.  Together they make
one event set, in the order of their identifiers, under the strongest of their policies.  Requests
that expire with it are removed before the set is sent.

The death of the machine is reported to the client even if no request asks for it.
-/

namespace DebugAgent

/-- The threads that stop before an event set is sent. -/
inductive SuspendTarget where
  | thread (thread : ObjectId)
  | all
  deriving DecidableEq, Repr

/-- An event set on its way to the client. -/
structure Fired where
  events : EventSet
  suspend : Option SuspendTarget
  deriving DecidableEq, Repr

namespace SuspendPolicy

/-- The threads that a policy stops for an event in the given thread. -/
def target? (thread : ObjectId) : SuspendPolicy → Option SuspendTarget
  | .none => Option.none
  | .eventThread => if thread = 0 then Option.none else some (.thread thread)
  | .all => some .all

end SuspendPolicy

open Command

namespace Filter

/-- A class is the one that an identifier names, or can be kept in its place.  The class behind the
identifier is referred to for the time of the test. -/
def checkKind (refType : ObjectId) (cls : Option HeapId) : Command Bool := do
  match cls with
  | none => return false
  | some cls =>
      let sup ← Tracking.acquire refType
      withLocal sup do see fun vm => (vm.target? sup).any (vm.assignable cls)

/-- Tests a filter.  Filters that name an object by its identifier refer to it for the time of the
test; the others look at the context only. -/
def check (ctx : Context) (stepThread : Option Handle) : Filter → Command Bool
  | .classOnly refType => checkKind refType ctx.cls
  | .exceptionOnly refType caught uncaught => do
      if !(if ctx.caught then caught else uncaught) then return false
      else if refType = 0 then return true
      else checkKind refType ctx.exceptionClass
  | .instanceOnly object => do
      match ctx.receiver with
      | none => return false
      | some receiver =>
          let h ← Tracking.acquire object
          withLocal h do see fun vm => vm.target? h = some receiver
  | filter => Action.look fun a => filter.accepts a.vm a.tracker ctx stepThread

end Filter

namespace Firing

/-- The events that a kind of callback causes without a request. -/
def unrequested : EventKind → List Event
  | .vmDeath => [⟨.vmDeath, 0, .vmDeath⟩]
  | _ => []

/-- What a pass over the registered requests has come to. -/
structure Pass where
  events : List Event
  policy : SuspendPolicy := .none
  expired : List Request := []
  deriving DecidableEq, Repr

namespace Pass

/-- One more request fires; it is given as it is after that. -/
def fire (ctx : Context) (request : Request) (pass : Pass) : Pass where
  events := pass.events ++ [⟨request.kind, request.id, ctx.details⟩]
  policy := pass.policy.strongest request.policy
  expired := if request.isExpired then pass.expired ++ [request] else pass.expired

/-- The event set of the pass, if there is anything to tell. -/
def fired? (ctx : Context) (pass : Pass) : Option Fired :=
  if pass.events.isEmpty then none
  else some ⟨⟨pass.policy, pass.events⟩, pass.policy.target? ctx.threadId⟩

end Pass

/-- Tests the filters of a request one after another.  If all accept, the request fires and takes
note of it. -/
def visit (ctx : Context) (pass : Pass) (request : Request) : Command Pass := do
  let stepThread ← Action.look fun a => a.requests.stepThread? request
  if ← request.filters.allM (Filter.check ctx stepThread) then
    let request := request.advance ctx
    Action.change fun a => { a with requests := a.requests.replace request }
    return pass.fire ctx request
  else return pass

/-- Matches a callback against the registered requests.  Where nothing could fire the callback is
not even looked at. -/
def process (c : Callback Handle) : Command (Option Fired) := do
  let kind := c.kind.eventKind
  let candidates := (← Action.look Agent.requests).ofKind kind
  if candidates.isEmpty && (unrequested kind).isEmpty then return none
  let ctx ← Capture.capture (candidates.any Request.wantsReceiver) c
  let candidates := (← Action.look Agent.requests).ofKind kind
  let pass ← candidates.foldlM (visit ctx) { events := unrequested kind }
  pass.expired.forM Registration.remove
  return pass.fired? ctx

end Firing

end DebugAgent
