import DebugAgent.Request.Registration

/-!
# Commands on event requests
-/

namespace DebugAgent

namespace Command.EventRequest

/-- Sets a request for the kind of event with the given code. -/
def set (kindCode : Nat) (policy : SuspendPolicy) (modifiers : List EventModifier) :
    Command RequestId := do
  let kind ← Action.ofExcept (EventKind.ofCode kindCode)
  Registration.register kind policy modifiers

/-- Clears a request for the kind of event with the given code. -/
def clear (kindCode : Nat) (id : RequestId) : Command Unit := do
  let kind ← Action.ofExcept (EventKind.ofCode kindCode)
  Registration.clear kind id

/-- Sets a breakpoint that no modifier narrows further. -/
def setBreakpoint (location : Location) (policy : SuspendPolicy) : Command RequestId :=
  set EventKind.breakpoint.code policy [.locationOnly location]

def clearBreakpoint (id : RequestId) : Command Unit := clear EventKind.breakpoint.code id

end Command.EventRequest

end DebugAgent
