import DebugAgent.Vm.Basic

/-!
# The tool interface

What a debugger asks the machine through its tool interface.  Queries look at the state only; they
are functions of the machine.  Calls that give out references, suspend threads or register for
callbacks change it.
-/

namespace DebugAgent

/-- The capability that a kind of callback needs, if it needs one. -/
def CallbackKind.capability? : CallbackKind → Option (Capabilities → Bool)
  | .singleStep => some Capabilities.canGenerateSingleStepEvents
  | .exception => some Capabilities.canGenerateExceptionEvents
  | .breakpoint => some Capabilities.canGenerateBreakpointEvents
  | .methodEntry => some Capabilities.canGenerateMethodEntryEvents
  | .methodExit => some Capabilities.canGenerateMethodExitEvents
  | _ => none

/-- A call of the tool interface. -/
abbrev Call (α : Type) := Action Vm JvmtiError α

namespace Vm

/-! ### Machine -/

def addCapabilities (capabilities : Capabilities) (vm : Vm) : Vm :=
  { vm with capabilities := some capabilities }

def systemProperty (vm : Vm) (key : String) : Except JvmtiError String :=
  match vm.properties.get? key with
  | some value => .ok value
  | none => .error .notAvailable

/-! ### Classes -/

/-- The classes on the heap, oldest first. -/
def classIds (vm : Vm) : List HeapId :=
  (List.range vm.heap.size).filter fun id => (vm.classAt? id).isSome

def loadedClasses : Call (List Handle) :=
  .update fun vm => vm.newLocals vm.classIds

def classSignature (vm : Vm) (cls : Handle) : Except JvmtiError (String × Option String) :=
  match vm.classOf cls with
  | .ok body => .ok (body.signature, body.genericSignature)
  | .error e => .error e

def classStatus (vm : Vm) (cls : Handle) : Except JvmtiError Int32 :=
  (vm.classOf cls).map ClassBody.status

def classModifiers (vm : Vm) (cls : Handle) : Except JvmtiError Int32 :=
  (vm.classOf cls).map ClassBody.modifiers

def isInterface (vm : Vm) (cls : Handle) : Except JvmtiError Bool :=
  (vm.classOf cls).map ClassBody.isInterface

def isArrayClass (vm : Vm) (cls : Handle) : Except JvmtiError Bool :=
  (vm.classOf cls).map ClassBody.isArray

def classFields (vm : Vm) (cls : Handle) : Except JvmtiError (List FieldId) :=
  (vm.preparedClassOf cls).map ClassBody.fields

def classMethods (vm : Vm) (cls : Handle) : Except JvmtiError (List MethodId) :=
  (vm.preparedClassOf cls).map ClassBody.methods

def implementedInterfaces (cls : Handle) : Call (List Handle) := do
  let body ← Action.inspect fun vm => vm.preparedClassOf cls
  Action.update fun vm => vm.newLocals body.interfaces

def sourceFileName (vm : Vm) (cls : Handle) : Except JvmtiError String := do
  vm.demand Capabilities.canGetSourceFileName
  let body ← vm.classOf cls
  match body.sourceFile with
  | some file => .ok file
  | none => .error .absentInformation

/-! ### Fields and methods -/

/-- A field that the object behind a reference declares. -/
def fieldOf (vm : Vm) (cls : Handle) (field : FieldId) : Except JvmtiError FieldDecl :=
  match vm.target? cls with
  | none => .error .invalidClass
  | some owner =>
      match vm.fields.get? field with
      | some decl => if decl.cls = owner then .ok decl else .error .invalidFieldId
      | none => .error .invalidFieldId

/-- Name and signature of a field that a class declares. -/
def fieldName (vm : Vm) (cls : Handle) (field : FieldId) : Except JvmtiError (String × String) := do
  let _ ← vm.classOf cls
  let decl ← vm.fieldOf cls field
  return (decl.name, decl.signature)

def fieldModifiers (vm : Vm) (cls : Handle) (field : FieldId) : Except JvmtiError Int32 :=
  (vm.fieldOf cls field).map FieldDecl.modifiers

/-- Name and signature of a method. -/
def methodName (vm : Vm) (method : MethodId) : Except JvmtiError (String × String) :=
  (vm.methodOf method).map fun decl => (decl.spec.name, decl.spec.signature)

def methodModifiers (vm : Vm) (method : MethodId) : Except JvmtiError Int32 :=
  (vm.methodOf method).map fun decl => decl.spec.modifiers

def methodDeclaringClass (method : MethodId) : Call Handle := do
  let decl ← Action.inspect fun vm => vm.methodOf method
  Action.update (newLocal decl.cls)

/-- First and last code index of a method; native methods have neither. -/
def methodLocation (vm : Vm) (method : MethodId) : Except JvmtiError (CodeIndex × CodeIndex) :=
  (vm.methodOf method).map fun decl =>
    if hasAny decl.spec.modifiers Access.isNative then (-1, -1)
    else (decl.spec.start, decl.spec.finish)

/-- The code attributes of a method, if the capability to read them has been granted and the method
has code. -/
def codeOf (vm : Vm) (capability : Capabilities → Bool) (method : MethodId) :
    Except JvmtiError MethodSpec := do
  vm.demand capability
  let decl ← vm.methodOf method
  if hasAny decl.spec.modifiers Access.isNative then .error .nativeMethod else .ok decl.spec

def lineNumberTable (vm : Vm) (method : MethodId) : Except JvmtiError (List LineNumber) := do
  let spec ← vm.codeOf Capabilities.canGetLineNumbers method
  if spec.lines.isEmpty then .error .absentInformation else .ok spec.lines

def localVariableTable (vm : Vm) (method : MethodId) : Except JvmtiError (List LocalVariable) := do
  let spec ← vm.codeOf Capabilities.canAccessLocalVariables method
  match spec.locals with
  | some locals => .ok locals
  | none => .error .absentInformation

def bytecodes (vm : Vm) (method : MethodId) : Except JvmtiError (List UInt8) :=
  (vm.codeOf Capabilities.canGetBytecodes method).map MethodSpec.bytecodes

/-! ### Threads -/

/-- The threads on the heap that have not ended, oldest first. -/
def liveThreadIds (vm : Vm) : List HeapId :=
  (List.range vm.heap.size).filter fun id =>
    match vm.threadAt? id with
    | some body => !hasAny body.state ThreadState.terminated
    | none => false

def allThreads : Call (List Handle) :=
  .update fun vm => vm.newLocals vm.liveThreadIds

/-- The thread object of the calling native thread. -/
def currentThread (caller : NativeThread) : Call Handle := do
  let id ← Action.require .unattachedThread (← Action.look fun vm => vm.attached.get? caller)
  Action.update (newLocal id)

def topThreadGroups : Call (List Handle) :=
  .update (newLocals [systemGroup])

/-- What the machine tells about a thread.  The receiver owns both references. -/
structure ThreadInfo where
  name : String
  priority : Int
  daemon : Bool
  group : Handle
  loader : Handle
  deriving DecidableEq, Repr

def threadInfo (thread : Handle) : Call ThreadInfo := do
  let body ← Action.inspect fun vm => vm.threadOf thread
  let group ← Action.update (newLocal body.group)
  let loader ← Action.update (newLocal classLoader)
  return { name := body.name, priority := 5, daemon := body.daemon, group, loader }

def threadStateOf (vm : Vm) (thread : Handle) : Except JvmtiError Int32 :=
  (vm.threadOf thread).map ThreadBody.state

/-- The thread behind a reference with its place on the heap. -/
def locateThread (thread : Handle) : Call (HeapId × ThreadBody) := do
  let id ← Action.require .invalidThread (← Action.look fun vm => vm.target? thread)
  let object ← Action.expect (← Action.look fun vm => vm.heap[id]?)
  match object.body with
  | .thread body => return (id, body)
  | _ => Action.refuse .invalidThread

/-- Suspends a thread that runs.  A native thread that asks for its own suspension is counted,
whatever comes of it. -/
def suspendOne (caller : NativeThread) (thread : Handle) : Call Unit := do
  Action.change fun vm =>
    match vm.attached.get? caller with
    | some own =>
        if vm.target? thread = some own then { vm with selfSuspensions := vm.selfSuspensions + 1 }
        else vm
    | none => vm
  let (id, body) ← locateThread thread
  match body.suspendFailure with
  | some failure => Action.refuse failure
  | none =>
      if hasAny body.state ThreadState.terminated then Action.refuse .threadNotAlive
      else if hasAny body.state ThreadState.suspended then Action.refuse .threadSuspended
      else
        Action.change
          (setBody id (.thread { body with state := body.state ||| ThreadState.suspended }))

/-- Resumes a suspended thread. -/
def resumeOne (thread : Handle) : Call Unit := do
  let (id, body) ← locateThread thread
  if hasAny body.state ThreadState.terminated then Action.refuse .threadNotAlive
  else if !hasAny body.state ThreadState.suspended then Action.refuse .threadNotSuspended
  else
    Action.change
      (setBody id (.thread { body with state := body.state &&& ~~~ThreadState.suspended }))

def suspendThread (caller : NativeThread) (thread : Handle) : Call Unit := do
  Action.inspect fun vm => vm.demand Capabilities.canSuspend
  suspendOne caller thread

def resumeThread (thread : Handle) : Call Unit := do
  Action.inspect fun vm => vm.demand Capabilities.canSuspend
  resumeOne thread

/-- Suspends threads one after another; each has an outcome of its own. -/
def suspendThreads (caller : NativeThread) (threads : List Handle) :
    Call (List (Except JvmtiError Unit)) := do
  Action.inspect fun vm => vm.demand Capabilities.canSuspend
  threads.mapM fun thread => (suspendOne caller thread).attempt

/-- Resumes threads one after another; each has an outcome of its own. -/
def resumeThreads (threads : List Handle) : Call (List (Except JvmtiError Unit)) := do
  Action.inspect fun vm => vm.demand Capabilities.canSuspend
  threads.mapM fun thread => (resumeOne thread).attempt

/-! ### Frames -/

/-- Method and position of each frame from a depth on, at most `limit` of them. -/
def stackTrace (vm : Vm) (thread : Handle) (start limit : Int) :
    Except JvmtiError (List (MethodId × CodeIndex)) := do
  let body ← vm.threadOf thread
  if start < 0 ∨ limit < 0 ∨ (body.frames.length : Int) < start then .error .illegalArgument
  else
    .ok (((body.frames.drop start.toNat).take limit.toNat).map fun frame =>
      (frame.method, frame.location))

def frameCount (vm : Vm) (thread : Handle) : Except JvmtiError Int := do
  let body ← vm.threadOf thread
  if hasAny body.state ThreadState.terminated then .error .threadNotAlive
  else .ok body.frames.length

/-- Method and position of the frame at a depth. -/
def frameLocation (vm : Vm) (thread : Handle) (depth : Int) :
    Except JvmtiError (MethodId × CodeIndex) := do
  let body ← vm.threadOf thread
  if depth < 0 then .error .illegalArgument
  else
    match body.frames[depth.toNat]? with
    | some frame => .ok (frame.method, frame.location)
    | none => .error .noMoreFrames

/-- The local variable in a slot of the frame at a depth, read as the given kind.  The thread has to
be suspended or to be running a callback. -/
def localVariable (vm : Vm) (thread : Handle) (depth slot : Int) (kind : SlotKind) :
    Except JvmtiError Stored := do
  vm.demand Capabilities.canAccessLocalVariables
  let body ← vm.threadOf thread
  let inCallback := (vm.target? thread).any fun id => vm.inCallback.contains id
  if !hasAny body.state ThreadState.suspended && !inCallback then .error .threadNotSuspended
  else if depth < 0 then .error .illegalArgument
  else
    match body.frames[depth.toNat]? with
    | none => .error .noMoreFrames
    | some frame =>
        match frame.locals.get? slot with
        | none => .error .invalidSlot
        | some stored =>
            match stored.asSlot kind with
            | none => .error .typeMismatch
            | some value => .ok value

def getLocal (thread : Handle) (depth slot : Int) (kind : SlotKind) : Call RawValue := do
  let value ← Action.inspect fun vm => vm.localVariable thread depth slot kind
  Action.update (giveOut value)

/-! ### Tags -/

/-- The tag of the object behind a reference; 0 if it has none. -/
def getTag (h : Handle) : Call Int := do
  Action.inspect fun vm => vm.demand Capabilities.canTagObjects
  let id ← Action.require .invalidObject (← Action.look fun vm => vm.target? h)
  let object ← Action.expect (← Action.look fun vm => vm.heap[id]?)
  return object.tag

/-- Tags the object behind a reference. -/
def setTag (h : Handle) (tag : Int) : Call Unit := do
  Action.inspect fun vm => vm.demand Capabilities.canTagObjects
  let id ← Action.require .invalidObject (← Action.look fun vm => vm.target? h)
  let _ ← Action.expect (← Action.look fun vm => vm.heap[id]?)
  Action.change (setTagAt id tag)

/-! ### Breakpoints and notifications -/

def isBreakpoint (vm : Vm) (method : MethodId) (location : CodeIndex) : Bool :=
  vm.breakpoints.contains (method, location)

def setBreakpoint (method : MethodId) (location : CodeIndex) : Call Unit := do
  Action.inspect fun vm => vm.demand Capabilities.canGenerateBreakpointEvents
  let decl ← Action.inspect fun vm => vm.methodOf method
  if location < decl.spec.start ∨ decl.spec.finish < location then Action.refuse .invalidLocation
  else if ← Action.look fun vm => vm.isBreakpoint method location then Action.refuse .duplicate
  else
    Action.change fun vm => { vm with breakpoints := vm.breakpoints ++ [(method, location)] }

def clearBreakpoint (method : MethodId) (location : CodeIndex) : Call Unit := do
  Action.inspect fun vm => vm.demand Capabilities.canGenerateBreakpointEvents
  let _ ← Action.inspect fun vm => vm.methodOf method
  if ← Action.look fun vm => vm.isBreakpoint method location then
    Action.change fun vm =>
      { vm with breakpoints := vm.breakpoints.filter fun b => b ≠ (method, location) }
  else Action.refuse .notFound

def isEnabled (vm : Vm) (kind : CallbackKind) (thread : Option HeapId) : Bool :=
  vm.notifications.contains (kind, thread)

def demandFor (vm : Vm) (kind : CallbackKind) : Except JvmtiError Unit :=
  match kind.capability? with
  | some capability => vm.demand capability
  | none => .ok ()

/-- The thread that a notification is for; none stands for all threads. -/
def notifiedThread (vm : Vm) : Option Handle → Except JvmtiError (Option HeapId)
  | none => .ok none
  | some thread =>
      match vm.target? thread with
      | none => .error .invalidThread
      | some id => if (vm.threadAt? id).isSome then .ok (some id) else .error .invalidThread

/-- Enables or disables a kind of callback, for one thread or for all.  Doing it twice changes
nothing. -/
def setNotification (enable : Bool) (kind : CallbackKind) (thread : Option Handle) : Call Unit := do
  Action.inspect fun vm => vm.demandFor kind
  let target ← Action.inspect fun vm => vm.notifiedThread thread
  Action.change fun vm =>
    { vm with
      notifications :=
        if enable then
          if vm.isEnabled kind target then vm.notifications
          else vm.notifications ++ [(kind, target)]
        else vm.notifications.filter fun n => n ≠ (kind, target) }

end Vm

end DebugAgent
