import DebugAgent.Vm.Basic

/-!
# The native interface

What native code does with references and values.  These calls never fail with a cause: what cannot
be done yields null or zero, and some leave an exception pending.
-/

namespace DebugAgent

namespace Vm

/-! ### References -/

/-- A new local reference to what another reference refers to. -/
def newLocalRef (h : Handle) (vm : Vm) : Handle × Vm :=
  match vm.target? h with
  | some id => vm.newRef .localRef id
  | none => (.null, vm)

/-- A new global reference to what another reference refers to. -/
def newGlobalRef (h : Handle) (vm : Vm) : Handle × Vm :=
  match vm.target? h with
  | some id => vm.newRef .globalRef id
  | none => (.null, vm)

def deleteLocalRef (h : Handle) (vm : Vm) : Vm := vm.deleteRef .localRef h

def deleteGlobalRef (h : Handle) (vm : Vm) : Vm := vm.deleteRef .globalRef h

/-- Two references refer to the same object, or both to none. -/
def isSameObject (vm : Vm) (a b : Handle) : Bool := vm.target? a = vm.target? b

def isAssignableFrom (vm : Vm) (sub sup : Handle) : Bool :=
  match vm.target? sub, vm.target? sup with
  | some sub, some sup => vm.assignable sub sup
  | _, _ => false

/-! ### Classes and fields -/

variable {ε : Type}

/-- The object behind a reference, if the reference is valid. -/
def objectBehind (h : Handle) : Action Vm ε (Option HeapObject) := do
  match ← Action.look fun vm => vm.target? h with
  | none => return none
  | some id =>
      let object ← Action.expect (← Action.look fun vm => vm.heap[id]?)
      return some object

def objectClassRef (h : Handle) : Action Vm ε Handle := do
  match ← objectBehind h with
  | some object => Action.update (newLocal object.cls)
  | none => return .null

/-- The superclass that can be asked for: interfaces have none. -/
def superclass? (vm : Vm) (cls : Handle) : Option HeapId :=
  match (vm.target? cls).bind vm.classAt? with
  | some body => if body.isInterface then none else body.superclass
  | none => none

def superclassRef (cls : Handle) (vm : Vm) : Handle × Vm :=
  match vm.superclass? cls with
  | some id => vm.newLocal id
  | none => (.null, vm)

def raise (vm : Vm) : Vm := { vm with exceptionPending := true }

def clearException (vm : Vm) : Vm := { vm with exceptionPending := false }

def countFieldRead (vm : Vm) : Vm := { vm with fieldReads := vm.fieldReads + 1 }

/-- The value of a static field of exactly this class.  Anything else raises an exception. -/
def staticField (cls : Handle) (field : FieldId) (kind : ValueKind) (vm : Vm) : RawValue × Vm :=
  let vm := vm.countFieldRead
  match vm.fields.get? field with
  | some decl =>
      if some decl.cls = vm.target? cls ∧ ¬decl.poisoned then vm.giveOut decl.value
      else (.zero kind, vm.raise)
  | none => (.zero kind, vm.raise)

/-- The value of a field of an object that has fields; a field that was never set has the zero of
its signature.  Unknown and poisoned fields raise an exception. -/
def instanceField (h : Handle) (field : FieldId) (kind : ValueKind) : Action Vm ε RawValue := do
  Action.change countFieldRead
  let decl? ← Action.look fun vm => vm.fields.get? field
  match decl?, ← objectBehind h with
  | some decl, some { body := .fields values, .. } =>
      if decl.poisoned then
        Action.change raise
        return .zero kind
      else Action.update (giveOut ((values.get? field).getD (.zeroFor decl.signature)))
  | _, _ =>
      Action.change raise
      return .zero kind

/-! ### Arrays and strings -/

/-- The elements of an array. -/
def elementsBehind (h : Handle) : Action Vm ε (Option (List Stored)) := do
  match ← objectBehind h with
  | some { body := .array elements, .. } => return some elements
  | _ => return none

/-- Number of elements; 0 for what is no array. -/
def arrayLength (array : Handle) : Action Vm ε Int := do
  match ← elementsBehind array with
  | some elements => return elements.length
  | none => return 0

/-- A run of elements of a primitive type.  References among them count as zero; a run that does not
fit the array raises an exception. -/
def arrayRegion (array : Handle) (kind : ValueKind) (start length : Int) :
    Action Vm ε (List RawValue) := do
  match ← elementsBehind array with
  | some elements =>
      if 0 ≤ start ∧ 0 ≤ length ∧ start + length ≤ elements.length then
        return ((elements.drop start.toNat).take length.toNat).map fun element =>
          match element with
          | .primitive v => .primitive v
          | .reference _ => .zero kind
      else
        Action.change raise
        return []
  | none =>
      Action.change raise
      return []

/-- An element that is a reference.  Primitive elements yield null, an index outside the array
raises an exception. -/
def arrayElement (array : Handle) (index : Int) : Action Vm ε Handle := do
  let element? := (← elementsBehind array).bind fun elements =>
    if index < 0 then none else elements[index.toNat]?
  match element? with
  | some (.reference (some id)) => Action.update (newLocal id)
  | some _ => return .null
  | none =>
      Action.change raise
      return .null

/-- The characters of a string; none for what is no string. -/
def stringChars (h : Handle) : Action Vm ε (Option String) := do
  match ← objectBehind h with
  | some { body := .text value, .. } => return some value
  | _ => return none

end Vm

end DebugAgent
