import DebugAgent.Positions
import DebugAgent.Suspension

/-!
# Commands on threads
-/

namespace DebugAgent

namespace Command.Thread

open Tracking

variable {α : Type}

/-- Runs a command on what the machine tells about a live thread. -/
def withInfo (id : ObjectId) (x : Vm.ThreadInfo → Command α) : Command α :=
  withThread id fun thread => do
    let info ← call (Vm.threadInfo thread)
    withLocals [info.loader, info.group] (x info)

def name (id : ObjectId) : Command String := withInfo id fun info => return info.name

/-- The group of a thread. -/
def group (id : ObjectId) : Command ObjectId := withInfo id fun info => trackNew info.group

/-- The state bits of a live thread. -/
def state (id : ObjectId) : Command Int32 :=
  withThread id fun thread => ask fun vm => vm.threadStateOf thread

def status (id : ObjectId) : Command (ThreadStatus × SuspendStatus) := do
  let state ← state id
  return (.ofState state, .ofState state)

/-- Suspensions do not nest, so the count is 0 or 1. -/
def suspendCount (id : ObjectId) : Command Int := do
  return if hasAny (← state id) ThreadState.suspended then 1 else 0

def frameCount (id : ObjectId) : Command Int :=
  withThread id fun thread => ask fun vm => vm.frameCount thread

/-- Number of frames that are asked for, `-1` standing for all that are left. -/
def runLength (left length : Int) : Except ProtocolError Int :=
  if length = -1 then .ok left
  else if length < 0 ∨ left < length then .error .invalidLength
  else .ok length

/-- The frames of a stack from a depth on.  A frame is identified by its depth. -/
def frames (id : ObjectId) (start length : Int) : Command (List FrameInfo) :=
  withThread id fun thread => do
    let count ← ask fun vm => vm.frameCount thread
    Action.guard (0 ≤ start ∧ start ≤ count) .invalidIndex
    let length ← Action.ofExcept (runLength (count - start) length)
    let frames ← ask fun vm => vm.stackTrace thread start length
    frames.zipIdx.mapM fun ((method, index), offset) =>
      return ⟨start.toNat + offset, ← Positions.locate method index⟩

end Command.Thread

end DebugAgent
