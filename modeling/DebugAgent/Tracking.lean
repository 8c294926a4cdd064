import DebugAgent.Agent

/-!
# Tracking objects

References become identifiers here, and identifiers references.  An object is recognised by the tag
that the agent puts on it: the tag of a tracked object is its identifier.  A tag that is not in the
table of identifiers is left over from an identifier given back, and the object gets a new one.
-/

namespace DebugAgent

open Command

namespace Tracking

variable {α : Type}

def setTracker (tracker : Tracker) : Command Unit :=
  Action.change fun a => { a with tracker }

/-! ### From references to identifiers -/

/-- The identifier of the object behind a reference; 0 for the null reference.  The caller keeps the
reference. -/
def trackNew (h : Handle) : Command ObjectId := do
  if h.isNull then return 0
  let tag ← call (Vm.getTag h)
  let tracker ← Action.look Agent.tracker
  match if 0 < tag then tracker.entries.get? tag.toNat else none with
  | some entry =>
      setTracker (tracker.setReferences tag.toNat entry (entry.references + 1))
      return tag.toNat
  | none =>
      let id := tracker.nextId
      call (Vm.setTag h id)
      let global ← touch (Vm.newGlobalRef h)
      requireRef global .outOfMemory
      setTracker (tracker.add global)
      return id

/-- The identifier of an object with the tag of its class.  Null keeps only the distinction between
arrays and other objects. -/
def trackObject (h : Handle) (declared : TypeTag) : Command TaggedObjectId := do
  if h.isNull then return ⟨if declared = .array then .array else .object, 0⟩
  let cls ← native (Vm.objectClassRef h)
  withLocal cls do
    requireRef cls .invalidObject
    let (signature, _) ← ask fun vm => vm.classSignature cls
    let id ← trackNew h
    return ⟨.ofClass signature, id⟩

/-- The identifier of a class with its kind. -/
def trackClass (h : Handle) : Command TaggedTypeId := do
  requireRef h .invalidClass
  let isArray ← ask fun vm => vm.isArrayClass h
  let isInterface ← ask fun vm => vm.isInterface h
  let kind : TypeKind :=
    if isArray then .arrayType else if isInterface then .interfaceType else .classType
  return ⟨kind, ← trackNew h⟩

/-! ### From identifiers to references -/

/-- The global reference behind an identifier. -/
def resolve (t : Tracker) (id : ObjectId) : Except ProtocolError Handle :=
  match t.global? id with
  | some global => .ok global
  | none => .error .invalidObject

/-- A new local reference for an identifier; null if the identifier is not in use. -/
def acquire (id : ObjectId) : Command Handle := do
  match (← Action.look Agent.tracker).global? id with
  | some global => touch (Vm.newLocalRef global)
  | none => return .null

/-- Runs a command on the object behind an identifier. -/
def withRef (id : ObjectId) (cause : ProtocolError) (x : Handle → Command α) : Command α := do
  let h ← acquire id
  withLocal h do
    requireRef h cause
    x h

/-- Runs a command on the object that an identifier names. -/
def withObject (id : ObjectId) (x : Handle → Command α) : Command α :=
  withRef id .invalidObject x

/-- Runs a command on the object that an identifier names as a class.  Whether it is one shows when
the command asks something of it. -/
def withClass (id : ObjectId) (x : Handle → Command α) : Command α :=
  withRef id .invalidClass x

/-- A thread is alive if its state can be read and does not say that it has ended. -/
def isAlive (vm : Vm) (thread : Handle) : Bool :=
  !thread.isNull &&
    match vm.threadStateOf thread with
    | .ok state => !hasAny state ThreadState.terminated
    | .error _ => false

/-- Runs a command on the live thread that an identifier names. -/
def withThread (id : ObjectId) (x : Handle → Command α) : Command α := do
  let h ← acquire id
  withLocal h do
    Action.guard (← see fun vm => isAlive vm h) .invalidThread
    x h

/-! ### Giving identifiers back -/

/-- Forgets an identifier and deletes its global reference. -/
def forget (id : ObjectId) (entry : Tracked) (a : Agent) : Agent :=
  { a with tracker := a.tracker.remove id, vm := a.vm.deleteGlobalRef entry.global }

/-- Gives an identifier back, however often it has been handed out. -/
def release (id : ObjectId) : Command Unit := do
  let entry ← Action.require .invalidObject ((← Action.look Agent.tracker).entries.get? id)
  Action.change (forget id entry)

/-- Gives back `count` references to an identifier.  The last one takes the identifier with it. -/
def dispose (id : ObjectId) (count : Nat) : Command Unit := do
  let tracker ← Action.look Agent.tracker
  let entry ← Action.require .invalidObject (tracker.entries.get? id)
  let left := entry.references - count
  if left = 0 then Action.change (forget id entry)
  else setTracker (tracker.setReferences id entry left)

end Tracking

end DebugAgent
