import DebugAgent.Action
import DebugAgent.Config
import DebugAgent.Flags
import DebugAgent.Ident
import DebugAgent.JvmtiError
import DebugAgent.Table
import DebugAgent.TypeTag
import DebugAgent.Value

/-!
# The simulated machine

A machine has a heap of objects, which only grows, and hands out references to them.  A reference is
local to a native call or global; it stays valid until it is deleted, and its number is never used
again. Everything else the agent can observe is a part of the same state: fields, methods,
breakpoints, enabled notifications, native threads that have attached themselves.

Objects are named by their place on the heap.  The first nine are the built-in classes, the two
thread groups and the class loader.
-/

namespace DebugAgent

/-- Place of an object on the heap. -/
abbrev HeapId := Nat

/-- A reference into the machine; 0 is the null reference. -/
structure Handle where
  raw : Nat
  deriving DecidableEq, Repr

namespace Handle

def null : Handle := ⟨0⟩

def isNull (h : Handle) : Bool := h.raw = 0

end Handle

inductive RefKind where
  | localRef
  | globalRef
  deriving DecidableEq, Repr

/-- What a valid reference refers to. -/
structure Ref where
  target : HeapId
  kind : RefKind
  deriving DecidableEq, Repr

/-- A native thread: one of those that issue commands, or the one that delivers events. -/
inductive NativeThread where
  | client (number : Nat)
  | delivery
  deriving DecidableEq, Repr

/-- A value of a primitive type. -/
inductive Primitive where
  | boolean (v : Bool)
  | byte (v : Int8)
  | char (v : UInt16)
  | short (v : Int16)
  | int (v : Int32)
  | long (v : Int64)
  | float (v : Single)
  | double (v : Double)
  deriving DecidableEq, Repr

/-- The same value as data of the protocol. -/
def Primitive.data : Primitive → ValueData
  | .boolean v => .boolean v
  | .byte v => .byte v
  | .char v => .char v
  | .short v => .short v
  | .int v => .int v
  | .long v => .long v
  | .float v => .float v
  | .double v => .double v

/-- A value as the machine keeps it. -/
inductive Stored where
  | primitive (v : Primitive)
  | reference (target : Option HeapId)
  deriving DecidableEq, Repr

/-- A value as the machine gives it out.  The receiver owns the reference. -/
inductive RawValue where
  | primitive (v : Primitive)
  | object (h : Handle)
  deriving DecidableEq, Repr

/-- The value that stands for a failed read. -/
def RawValue.zero : ValueKind → RawValue
  | .boolean => .primitive (.boolean false)
  | .byte => .primitive (.byte 0)
  | .char => .primitive (.char 0)
  | .short => .primitive (.short 0)
  | .int => .primitive (.int 0)
  | .long => .primitive (.long 0)
  | .float => .primitive (.float .zero)
  | .double => .primitive (.double .zero)
  | .object => .object .null

/-- The value of a field that was never set, by the first letter of the field's signature. -/
def Stored.zeroFor (signature : String) : Stored :=
  match signature.toList with
  | 'Z' :: _ => .primitive (.boolean false)
  | 'B' :: _ => .primitive (.byte 0)
  | 'C' :: _ => .primitive (.char 0)
  | 'S' :: _ => .primitive (.short 0)
  | 'I' :: _ => .primitive (.int 0)
  | 'J' :: _ => .primitive (.long 0)
  | 'F' :: _ => .primitive (.float .zero)
  | 'D' :: _ => .primitive (.double .zero)
  | _ => .reference none

/-- What a local variable yields when it is read as the given kind: everything narrower than an
`int` is an `int` in a frame, and nothing else changes its kind. -/
def Stored.asSlot : Stored → SlotKind → Option Stored
  | .reference target, .object => some (.reference target)
  | .primitive (.boolean v), .int => some (.primitive (.int (if v then 1 else 0)))
  | .primitive (.byte v), .int => some (.primitive (.int v.toInt32))
  | .primitive (.char v), .int => some (.primitive (.int v.toUInt32.toInt32))
  | .primitive (.short v), .int => some (.primitive (.int v.toInt32))
  | .primitive (.int v), .int => some (.primitive (.int v))
  | .primitive (.long v), .long => some (.primitive (.long v))
  | .primitive (.float v), .float => some (.primitive (.float v))
  | .primitive (.double v), .double => some (.primitive (.double v))
  | _, _ => none

/-- A loaded class. -/
structure ClassBody where
  signature : String
  genericSignature : Option String := none
  status : Int32
  modifiers : Int32
  isInterface : Bool
  isArray : Bool
  superclass : Option HeapId
  interfaces : List HeapId := []
  fields : List FieldId := []
  methods : List MethodId := []
  sourceFile : Option String := none
  deriving Repr

/-- A frame of a stack. -/
structure Frame where
  method : MethodId
  location : CodeIndex
  locals : Table Int Stored := {}
  deriving Repr

/-- A thread of the machine, its topmost frame first. -/
structure ThreadBody where
  name : String
  state : Int32
  daemon : Bool
  group : HeapId
  frames : List Frame := []
  /-- The failure that every attempt to suspend the thread meets. -/
  suspendFailure : Option JvmtiError := none
  deriving Repr

/-- What an object holds. -/
inductive Body where
  | classObject (body : ClassBody)
  | fields (values : Table FieldId Stored)
  | array (elements : List Stored)
  | text (value : String)
  | thread (body : ThreadBody)
  | group (name : String)
  deriving Repr

/-- An object: its class, the tag that the agent may put on it, and what it holds. -/
structure HeapObject where
  cls : HeapId
  tag : Int := 0
  body : Body
  deriving Repr

/-- A declared field. -/
structure FieldDecl where
  cls : HeapId
  name : String
  signature : String
  modifiers : Int32
  /-- The value of a static field. -/
  value : Stored
  /-- Reading the field raises an exception. -/
  poisoned : Bool := false
  deriving Repr

/-- A line of source and its first instruction. -/
structure LineNumber where
  start : CodeIndex
  line : Int
  deriving DecidableEq, Repr

/-- A local variable of a method and the code range in which it lives. -/
structure LocalVariable where
  name : String
  signature : String
  start : CodeIndex
  length : Int
  slot : Int
  deriving DecidableEq, Repr

/-- A method with its code attributes.  A method compiled without a variable table has none. -/
structure MethodSpec where
  name : String
  signature : String
  modifiers : Int32 := Access.isPublic
  start : CodeIndex := 0
  finish : CodeIndex := 100
  lines : List LineNumber := []
  locals : Option (List LocalVariable) := some []
  bytecodes : List UInt8 := [0xb1]
  deriving Repr

/-- Adds a variable to the table, which is made if there is none. -/
def MethodSpec.addVariable (spec : MethodSpec) (entry : LocalVariable) : MethodSpec :=
  { spec with locals := some (spec.locals.getD [] ++ [entry]) }

/-- A declared method. -/
structure MethodDecl where
  cls : HeapId
  spec : MethodSpec
  deriving Repr

/-- Kinds of callbacks that the machine can be asked for. -/
inductive CallbackKind where
  | vmDeath
  | threadStart
  | threadEnd
  | classPrepare
  | exception
  | singleStep
  | breakpoint
  | methodEntry
  | methodExit
  deriving DecidableEq, Repr

/-- The state of the machine. -/
structure Vm where
  heap : Array HeapObject
  refs : Table Nat Ref := {}
  /-- The number of the newest reference. -/
  lastRef : Nat := 0xff8
  fields : Table FieldId FieldDecl := {}
  nextField : FieldId := 0x100
  methods : Table MethodId MethodDecl := {}
  nextMethod : MethodId := 0x1000
  breakpoints : List (MethodId × CodeIndex) := []
  /-- Threads that are running a callback. -/
  inCallback : List HeapId := []
  /-- Enabled notifications, for all threads or for one. -/
  notifications : List (CallbackKind × Option HeapId) := []
  properties : Table String String
  capabilities : Option Capabilities := none
  exceptionPending : Bool := false
  fieldReads : Nat := 0
  attachFails : Bool := false
  /-- Thread objects of the native threads that have attached themselves. -/
  attached : Table NativeThread HeapId := {}
  /-- How often a native thread asked for its own suspension. -/
  selfSuspensions : Nat := 0
  deriving Repr

namespace Vm

/-! ### Built-in objects -/

def objectClass : HeapId := 0
def classClass : HeapId := 1
def stringClass : HeapId := 2
def threadClass : HeapId := 3
def groupClass : HeapId := 4
def loaderClass : HeapId := 5
def systemGroup : HeapId := 6
def mainGroup : HeapId := 7
def classLoader : HeapId := 8

/-! ### The heap -/

/-- Puts a new object on the heap. -/
def allocate (cls : HeapId) (body : Body) (vm : Vm) : HeapId × Vm :=
  (vm.heap.size, { vm with heap := vm.heap.push { cls, body } })

def classAt? (vm : Vm) (id : HeapId) : Option ClassBody :=
  match vm.heap[id]? with
  | some { body := .classObject body, .. } => some body
  | _ => none

def threadAt? (vm : Vm) (id : HeapId) : Option ThreadBody :=
  match vm.heap[id]? with
  | some { body := .thread body, .. } => some body
  | _ => none

/-- Replaces what an object holds. -/
def setBody (id : HeapId) (body : Body) (vm : Vm) : Vm :=
  { vm with heap := vm.heap.modify id fun object => { object with body } }

/-- Puts a tag on an object. -/
def setTagAt (id : HeapId) (tag : Int) (vm : Vm) : Vm :=
  { vm with heap := vm.heap.modify id fun object => { object with tag } }

/-! ### References -/

/-- A new reference to an object.  Its number is never 0. -/
def newRef (kind : RefKind) (target : HeapId) (vm : Vm) : Handle × Vm :=
  let raw := vm.lastRef + 8
  (⟨raw⟩, { vm with refs := vm.refs.insert raw ⟨target, kind⟩, lastRef := raw })

/-- A new local reference to an object. -/
def newLocal (target : HeapId) (vm : Vm) : Handle × Vm := vm.newRef .localRef target

/-- New local references to objects, in order. -/
def newLocals : List HeapId → Vm → List Handle × Vm
  | [], vm => ([], vm)
  | id :: ids, vm =>
      let (h, vm) := vm.newLocal id
      let (hs, vm) := newLocals ids vm
      (h :: hs, vm)

/-- The object that a reference refers to; none for the null reference and for deleted ones. -/
def target? (vm : Vm) (h : Handle) : Option HeapId :=
  if h.isNull then none else (vm.refs.get? h.raw).map Ref.target

/-- Deletes a reference if it is one of the given kind. -/
def deleteRef (kind : RefKind) (h : Handle) (vm : Vm) : Vm :=
  match vm.refs.get? h.raw with
  | some ref => if ref.kind = kind then { vm with refs := vm.refs.erase h.raw } else vm
  | none => vm

/-- Number of valid references of a kind. -/
def refCount (vm : Vm) (kind : RefKind) : Nat :=
  vm.refs.values.countP fun ref => ref.kind = kind

def localCount (vm : Vm) : Nat := vm.refCount .localRef

def globalCount (vm : Vm) : Nat := vm.refCount .globalRef

/-- Gives out a stored value. -/
def giveOut (value : Stored) (vm : Vm) : RawValue × Vm :=
  match value with
  | .primitive v => (.primitive v, vm)
  | .reference none => (.object .null, vm)
  | .reference (some id) =>
      let (h, vm) := vm.newLocal id
      (.object h, vm)

/-! ### What a reference refers to -/

/-- The class behind a reference. -/
def classOf (vm : Vm) (cls : Handle) : Except JvmtiError ClassBody :=
  match (vm.target? cls).bind vm.classAt? with
  | some body => .ok body
  | none => .error .invalidClass

/-- The class behind a reference, if its members are known already. -/
def preparedClassOf (vm : Vm) (cls : Handle) : Except JvmtiError ClassBody :=
  match vm.classOf cls with
  | .error e => .error e
  | .ok body =>
      if hasAny body.status ClassState.prepared then .ok body else .error .classNotPrepared

/-- The thread behind a reference. -/
def threadOf (vm : Vm) (thread : Handle) : Except JvmtiError ThreadBody :=
  match (vm.target? thread).bind vm.threadAt? with
  | some body => .ok body
  | none => .error .invalidThread

def methodOf (vm : Vm) (method : MethodId) : Except JvmtiError MethodDecl :=
  match vm.methods.get? method with
  | some decl => .ok decl
  | none => .error .invalidMethodId

/-- The capability has been granted. -/
def grants (vm : Vm) (capability : Capabilities → Bool) : Bool :=
  match vm.capabilities with
  | some granted => capability granted
  | none => false

/-- Is refused unless the capability has been granted. -/
def demand (vm : Vm) (capability : Capabilities → Bool) : Except JvmtiError Unit :=
  if vm.grants capability then .ok () else .error .mustPossessCapability

/-! ### Class hierarchy -/

/-- A value of class `sub` can be kept where one of class `sup` is expected, as far as `depth` steps
up the hierarchy show it: everything can be kept as an object, and a class as one of its interfaces
or its superclass. -/
def assignableWithin (vm : Vm) (sup : HeapId) : Nat → HeapId → Bool
  | 0, sub => sub = sup || sup = objectClass
  | depth + 1, sub =>
      sub = sup || sup = objectClass ||
        match vm.classAt? sub with
        | none => false
        | some body =>
            body.interfaces.any (vm.assignableWithin sup depth) ||
              body.superclass.any (vm.assignableWithin sup depth)

/-- A value of class `sub` can be kept where one of class `sup` is expected.  The machine searches
the hierarchy without a bound.  No path in a hierarchy without cycles is longer than the heap, so
there the bounded search is its answer.  Where interfaces extend each other in a circle the machine's
recursion has no end, and this is not its answer. -/
def assignable (vm : Vm) (sub sup : HeapId) : Bool :=
  vm.assignableWithin sup vm.heap.size sub

/-! ### Native threads -/

/-- The thread object of a native thread.  It is made when the native thread attaches itself for the
first time. -/
def attach (caller : NativeThread) (vm : Vm) : HeapId × Vm :=
  match vm.attached.get? caller with
  | some id => (id, vm)
  | none =>
      let name := "jdwp-agent-" ++ toString (vm.attached.size + 1)
      let (id, vm) := vm.allocate threadClass
        (.thread { name, state := ThreadState.started, daemon := true, group := systemGroup })
      (id, { vm with attached := vm.attached.insert caller id })

end Vm

end DebugAgent
