import DebugAgent.Positions
import DebugAgent.Request.Filter

/-!
# Registering requests

A request that the client sets is checked modifier by modifier and turned into filters.  Then the
machine is asked for what the request needs: a breakpoint at its position and notification of its
kind of callback.  Requests share both, so the machine is asked when the first request needs one and
told when the last one is gone.
-/

namespace DebugAgent

/-- The callback that causes events of a kind. -/
def EventKind.callbackKind : EventKind → Except ProtocolError CallbackKind
  | .singleStep => .ok .singleStep
  | .breakpoint => .ok .breakpoint
  | .exception => .ok .exception
  | .threadStart => .ok .threadStart
  | .threadDeath => .ok .threadEnd
  | .classPrepare => .ok .classPrepare
  | .methodEntry => .ok .methodEntry
  | .methodExit => .ok .methodExit
  | .vmDeath => .ok .vmDeath
  | _ => .error .notImplemented

/-- A modifier makes sense for a kind of event. -/
def EventModifier.appliesTo (kind : EventKind) : EventModifier → Bool
  | .count _ => true
  | .threadOnly _ => kind ≠ .vmDeath
  | .classOnly _ | .classMatch _ | .classExclude _ =>
      kind ∉ [.threadStart, .threadDeath, .vmDeath]
  | .locationOnly _ => kind ∈ [.breakpoint, .singleStep, .exception]
  | .exceptionOnly _ _ _ => kind = .exception
  | .fieldOnly _ _ => kind ∈ [.fieldAccess, .fieldModification]
  | .step _ _ _ => kind = .singleStep
  | .instanceOnly _ => kind ∈ [.breakpoint, .singleStep, .exception, .methodEntry, .methodExit]

/-- A method identifier of the protocol; 0 names no method. -/
def checkMethod (method : MethodId) : Except ProtocolError Unit :=
  if method = 0 then .error .invalidMethodId else .ok ()

open Command Tracking

namespace Registration

/-! ### From modifiers to filters -/

/-- The point that a step of a thread starts from. -/
def startPoint (thread : Handle) : Command StepPoint := do
  let frameDepth ← ask fun vm => vm.frameCount thread
  let (method, index) ← ask fun vm => vm.frameLocation thread 0
  return ⟨frameDepth, method, ← see fun vm => vm.lineAt method index⟩

/-- Checks a modifier of a request for a kind of event, and makes it a filter.  A code index of the
protocol has 64 bits without a sign, one of the machine 64 bits with a sign. -/
def filterOf (kind : EventKind) (modifier : EventModifier) : Command Filter := do
  Action.guard (modifier.appliesTo kind) .illegalArgument
  match modifier with
  | .count times =>
      Action.guard (0 < times) .illegalArgument
      return .count times
  | .threadOnly thread => withThread thread fun _ => return .threadOnly thread
  | .classOnly refType => withClass refType fun _ => return .classOnly refType
  | .classMatch pattern => return .classMatch pattern
  | .classExclude pattern => return .classExclude pattern
  | .locationOnly location =>
      Action.ofExcept (checkMethod location.methodId)
      withClass location.classId fun _ =>
        return .locationOnly location.methodId (Int.bmod location.index 0x10000000000000000)
  | .exceptionOnly refType caught uncaught =>
      if refType ≠ 0 then withClass refType fun _ => return ()
      return .exceptionOnly refType caught uncaught
  | .fieldOnly _ _ => Action.refuse .illegalArgument
  | .step thread size depth =>
      withThread thread fun h => return .step ⟨thread, size, depth, ← startPoint h⟩
  | .instanceOnly object => withObject object fun _ => return .instanceOnly object

def positionOf? : Filter → Option (MethodId × CodeIndex)
  | .locationOnly method index => some (method, index)
  | _ => none

def stepThreadOf? : Filter → Option ObjectId
  | .step state => some state.thread
  | _ => none

/-- What a request with these filters needs from the machine.  A breakpoint is at exactly one
position and a step is for exactly one thread. -/
def needed (kind : EventKind) (filters : List Filter) : Except ProtocolError Registration := do
  let callback ← kind.callbackKind
  match kind with
  | .breakpoint =>
      match filters.filterMap positionOf? with
      | [position] => return ⟨some position, (callback, none)⟩
      | _ => .error .illegalArgument
  | .singleStep =>
      match filters.filterMap stepThreadOf? with
      | [thread] => return ⟨none, (callback, some thread)⟩
      | _ => .error .illegalArgument
  | _ => return ⟨none, (callback, none)⟩

/-! ### Notifications -/

def setNotifications (notifications : Table NotificationKey Notification) : Command Unit :=
  .change fun a => { a with requests := { a.requests with notifications } }

/-- A global reference to the thread that a notification is for, if it is for one. -/
def holdThread : Option ObjectId → Command (Option Handle)
  | none => return none
  | some thread =>
      withThread thread fun h => do
        let global ← touch (Vm.newGlobalRef h)
        requireRef global .outOfMemory
        return some global

/-- Gives up the reference to the thread of a notification. -/
def freeThread : Option Handle → Command Unit
  | none => return ()
  | some global => adjust fun vm => vm.deleteGlobalRef global

/-- One more request needs a notification. -/
def enable (key : NotificationKey) : Command Unit := do
  let notifications ← Action.look fun a => a.requests.notifications
  match notifications.get? key with
  | some held => setNotifications (notifications.insert key { held with count := held.count + 1 })
  | none =>
      let thread ← holdThread key.2
      match ← tryCall (Vm.setNotification true key.1 thread) with
      | .ok () => setNotifications (notifications.insert key ⟨1, thread⟩)
      | .error e =>
          freeThread thread
          Action.refuse e.toProtocol

/-- One request less needs a notification.  That the machine refuses to disable it changes nothing.
-/
def disable (key : NotificationKey) : Command Unit := do
  let notifications ← Action.look fun a => a.requests.notifications
  match notifications.get? key with
  | none => return ()
  | some held =>
      if 1 < held.count then
        setNotifications (notifications.insert key { held with count := held.count - 1 })
      else
        setNotifications (notifications.erase key)
        let _ ← tryCall (Vm.setNotification false key.1 held.thread)
        freeThread held.thread

/-! ### Breakpoints -/

def setBreakpoints (breakpoints : Table (MethodId × CodeIndex) Nat) : Command Unit :=
  .change fun a => { a with requests := { a.requests with breakpoints } }

/-- One more request needs a breakpoint. -/
def holdBreakpoint (position : MethodId × CodeIndex) : Command Unit := do
  let breakpoints ← Action.look fun a => a.requests.breakpoints
  match breakpoints.get? position with
  | some count => setBreakpoints (breakpoints.insert position (count + 1))
  | none =>
      call (Vm.setBreakpoint position.1 position.2)
      setBreakpoints (breakpoints.insert position 1)

/-- One request less needs a breakpoint.  That the machine refuses to clear it changes nothing. -/
def releaseBreakpoint (position : MethodId × CodeIndex) : Command Unit := do
  let breakpoints ← Action.look fun a => a.requests.breakpoints
  match breakpoints.get? position with
  | none => return ()
  | some 0 => Action.collapse
  | some 1 =>
      setBreakpoints (breakpoints.erase position)
      let _ ← tryCall (Vm.clearBreakpoint position.1 position.2)
  | some (count + 1) => setBreakpoints (breakpoints.insert position count)

/-! ### Requests -/

/-- Asks the machine for what a request needs: all of it or nothing. -/
def acquire (registration : Registration) : Command Unit := do
  if let some position := registration.breakpoint then holdBreakpoint position
  match ← (enable registration.notification).attempt with
  | .ok () => return ()
  | .error cause =>
      if let some position := registration.breakpoint then releaseBreakpoint position
      Action.refuse cause

/-- Gives up what a request needed. -/
def release (registration : Registration) : Command Unit := do
  if let some position := registration.breakpoint then releaseBreakpoint position
  disable registration.notification

/-- Registers a request and returns its identifier. -/
def register (kind : EventKind) (policy : SuspendPolicy) (modifiers : List EventModifier) :
    Command RequestId := do
  Action.guard kind.isSupported .notImplemented
  let filters ← modifiers.mapM (filterOf kind)
  let registration ← Action.ofExcept (needed kind filters)
  acquire registration
  let id ← Action.look fun a => a.requests.nextId
  Action.change fun a => { a with requests := a.requests.add kind policy filters registration }
  return id

/-- Removes a request from the table and gives up what it needed. -/
def remove (request : Request) : Command Unit := do
  Action.change fun a => { a with requests := a.requests.remove request.id }
  release request.registration

/-- Clears a request of the given kind. -/
def clear (kind : EventKind) (id : RequestId) : Command Unit := do
  match (← Action.look Agent.requests).find? id with
  | some request =>
      Action.guard (request.kind = kind) .notFound
      remove request
  | none => Action.refuse .notFound

/-- Clears all breakpoint requests. -/
def clearBreakpoints : Command Unit := do
  ((← Action.look Agent.requests).ofKind .breakpoint).forM remove

end Registration

end DebugAgent
