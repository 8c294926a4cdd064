import DebugAgent.Positions
import DebugAgent.Request.Filter
import DebugAgent.Signature.Parser
import DebugAgent.Vm.Callback

/-!
# What a callback says

A callback names its objects by references that are gone when it returns.  Capturing it turns them
into identifiers, for the details that the client receives, and gathers what the filters of requests
look at.
-/

namespace DebugAgent

/-- The kind of event that a callback causes. -/
def CallbackKind.eventKind : CallbackKind → EventKind
  | .vmDeath => .vmDeath
  | .threadStart => .threadStart
  | .threadEnd => .threadDeath
  | .classPrepare => .classPrepare
  | .exception => .exception
  | .singleStep => .singleStep
  | .breakpoint => .breakpoint
  | .methodEntry => .methodEntry
  | .methodExit => .methodExit

open Command Tracking

namespace Capture

/-- A thread that something happened in, with its identifier. -/
structure Scene where
  threadId : ObjectId
  thread : Option HeapId

/-- Tracks the thread of a callback. -/
def scene (thread : Handle) : Command Scene := do
  let threadId ← trackNew thread
  return ⟨threadId, ← see fun vm => vm.target? thread⟩

/-- A position with the object and the name of its class. -/
structure Site where
  location : Location
  cls : Option HeapId
  className : String

/-- The position of a code index of a method. -/
def site (method : MethodId) (index : CodeIndex) : Command Site :=
  Positions.withDeclaringClass method fun cls => do
    let location ← Positions.locationIn cls method index
    let (signature, _) ← ask fun vm => vm.classSignature cls
    return ⟨location, ← see fun vm => vm.target? cls, Signature.className signature⟩

/-- The receiver of the method that a thread is running, if it can be told. -/
def runningReceiver (thread : Handle) (method : MethodId) : Command (Option HeapId) := do
  match ← tryAsk fun vm => vm.methodModifiers method with
  | .error _ => return none
  | .ok modifiers =>
      if hasAny modifiers Access.isStatic then return none
      match ← tryCall (Vm.getLocal thread 0 0 .object) with
      | .ok (.object h) => withLocal h (see fun vm => vm.target? h)
      | _ => return none

/-- The receiver of the running method, if a filter asks for it. -/
def receiver (wanted : Bool) (thread : Handle) (method : MethodId) : Command (Option HeapId) :=
  if wanted then runningReceiver thread method else pure none

/-- The context of what happened at a position. -/
def atSite (scene : Scene) (site : Site) (method : MethodId) (index : CodeIndex)
    (receiver : Option HeapId) (details : EventDetails) : Context :=
  { threadId := scene.threadId
    thread := scene.thread
    position := some (method, index)
    cls := site.cls
    className := some site.className
    receiver
    details }

/-- The class of a thrown object. -/
def thrownClass (thrown : Handle) : Command (Option HeapId) := do
  let cls ← native (Vm.objectClassRef thrown)
  withLocal cls do
    requireRef cls .invalidObject
    see fun vm => vm.target? cls

/-- Gathers what a callback says. -/
def capture (wantsReceiver : Bool) : Callback Handle → Command Context
  | .vmDeath => return { threadId := 0, details := .vmDeath }
  | .threadStart thread => do
      let s ← scene thread
      return { threadId := s.threadId, thread := s.thread, details := .threadStart s.threadId }
  | .threadEnd thread => do
      let s ← scene thread
      return { threadId := s.threadId, thread := s.thread, details := .threadDeath s.threadId }
  | .classPrepare thread prepared => do
      let s ← scene thread
      let cls ← touch (Vm.newLocalRef prepared)
      withLocal cls do
        requireRef cls .invalidClass
        let refType ← trackClass cls
        let (signature, _) ← ask fun vm => vm.classSignature cls
        let status ← ask fun vm => vm.classStatus cls
        return {
          threadId := s.threadId
          thread := s.thread
          cls := ← see fun vm => vm.target? cls
          className := some (Signature.className signature)
          details := .classPrepare s.threadId refType signature (.ofState status) }
  | .breakpoint thread method index => do
      let s ← scene thread
      let spot ← site method index
      let receiver ← receiver wantsReceiver thread method
      return atSite s spot method index receiver (.breakpoint s.threadId spot.location)
  | .singleStep thread method index => do
      let s ← scene thread
      let spot ← site method index
      let frameDepth ← see fun vm => (vm.frameCount thread).toOption
      let line ← see fun vm => vm.lineAt method index
      let receiver ← receiver wantsReceiver thread method
      return {
        atSite s spot method index receiver (.step s.threadId spot.location) with frameDepth, line }
  | .exception thread method index thrown handler => do
      let s ← scene thread
      let spot ← site method index
      let exceptionClass ← thrownClass thrown
      let exception ← trackObject thrown .object
      let catchLocation ←
        match handler with
        | some (method, index) => some <$> site method index
        | none => pure none
      let receiver ← receiver wantsReceiver thread method
      let details :=
        EventDetails.exception s.threadId spot.location exception (catchLocation.map Site.location)
      return {
        atSite s spot method index receiver details with exceptionClass, caught := handler.isSome }
  | .methodEntry thread method => do
      let s ← scene thread
      let (start, _) ← ask fun vm => vm.methodLocation method
      let spot ← site method start
      let receiver ← receiver wantsReceiver thread method
      return atSite s spot method start receiver (.methodEntry s.threadId spot.location)
  | .methodExit thread method index => do
      let s ← scene thread
      let spot ← site method index
      let receiver ← receiver wantsReceiver thread method
      return atSite s spot method index receiver (.methodExit s.threadId spot.location)

end Capture

end DebugAgent
