import DebugAgent.Request.Firing
import DebugAgent.Suspension

/-!
# Delivery

The agent serves one session at a time.  Event sets reach it in the order of the callbacks that
caused them.  Before a set is sent its suspend policy is applied, by a native thread of the agent
that does nothing else; a suspension that fails does not keep the set back.  Without a session, and
once the client has stopped listening, sets are lost.
-/

namespace DebugAgent

/-- Puts an event set into the session's hands.  The runtime that delivers it is taken to live on and
the channel to keep order, so a client that listens gets the set after all that were sent before. -/
def Session.receive (set : EventSet) (s : Session) : Session :=
  if s.listening then { s with sets := s.sets ++ [set] } else s

open Command

namespace Delivery

/-- Stops the threads that an event set asks for. -/
def applySuspension : SuspendTarget → Command Unit
  | .thread thread => Suspension.suspend .delivery thread
  | .all => Suspension.suspendAll .delivery

/-- Stops threads on the delivering thread, as far as it goes. -/
def suspendFor (target : Option SuspendTarget) (a : Agent) : Agent :=
  match target with
  | none => a
  | some target => (answer .delivery (applySuspension target) a).2

/-- Sends an event set to the session, if there is one. -/
def send (fired : Fired) (a : Agent) : Agent :=
  match a.session with
  | none => a
  | some _ =>
      let a := suspendFor fired.suspend a
      { a with session := a.session.map (Session.receive fired.events) }

end Delivery

namespace Agent

/-- The machine calls the agent back on a native thread.  A callback that cannot be processed causes
no events. -/
def onCallback (caller : NativeThread) (c : Callback Handle) (a : Agent) : Agent :=
  match answer caller (Firing.process c) a with
  | (.ok (some fired), a) => Delivery.send fired a
  | (_, a) => a

/-- Something happens in the machine, on a native thread.  Says whether the agent was called back.
-/
def deliver (caller : NativeThread) (c : Callback HeapId) (a : Agent) : Bool × Agent :=
  if a.vm.delivers c then
    let (carried, vm) := a.vm.enterCallback c
    let a := (a.setVm vm).onCallback caller carried
    (true, a.setVm (a.vm.leaveCallback c carried))
  else (false, a)

/-! ### The session -/

def isAttached (a : Agent) : Bool := a.session.isSome

/-- What opening the session comes to.  There is only ever one, and it needs something to run its
delivery on. -/
def opening (canDeliver : Bool) : Command Unit := do
  Action.guard (!(← Action.look isAttached)) .duplicate
  Action.guard canDeliver .internal
  Registration.enable (.vmDeath, none)
  Action.change fun a => { a with session := some {} }

/-- Opens the session. -/
def attach (caller : NativeThread) (canDeliver : Bool) : Answer Unit :=
  answer caller (opening canDeliver)

/-- The client stops listening. -/
def closeSession (a : Agent) : Agent :=
  { a with session := a.session.map fun _ => { listening := false } }

/-- Takes the event sets that have reached the session. -/
def drain (a : Agent) : List EventSet × Agent :=
  match a.session with
  | none => ([], a)
  | some s => (s.sets, { a with session := some { s with sets := [] } })

end Agent

end DebugAgent
