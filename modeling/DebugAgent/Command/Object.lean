import DebugAgent.Reading
import DebugAgent.Record.Basic

/-!
# Commands on objects, strings and arrays
-/

namespace DebugAgent

namespace Command.Object

open Tracking

variable {α : Type}

/-- Runs a command on the class of an object. -/
def withClassOf (object : Handle) (x : Handle → Command α) : Command α := do
  let cls ← native (Vm.objectClassRef object)
  withLocal cls do
    requireRef cls .invalidObject
    x cls

def referenceType (id : ObjectId) : Command TaggedTypeId :=
  withObject id fun object => withClassOf object trackClass

/-- The value of a field of an object that a class declares, or a class at most `depth` steps above
it. The command owns the reference to the class; it is null above the topmost one.  Static fields
are read from the class that declares them. -/
def valueFrom (object : Handle) (field : FieldId) : Nat → Handle → Command Value
  | 0, cls => withLocal cls (Action.refuse .invalidFieldId)
  | depth + 1, cls =>
      withLocal cls do
        requireRef cls .invalidFieldId
        match ← tryAsk fun vm => vm.fieldName cls field with
        | .ok (_, signature) =>
            let modifiers ← ask fun vm => vm.fieldModifiers cls field
            let owner : Reading.FieldOwner :=
              if hasAny modifiers Access.isStatic then .inClass cls else .inObject object
            Reading.readField owner field signature
        | .error _ => valueFrom object field depth (← touch (Vm.superclassRef cls))

/-- The value of a field of an object whose class is at hand.  No class has more classes above it
than there are objects. -/
def value (object cls : Handle) (field : FieldId) : Command Value := do
  let depth ← see fun vm => vm.heap.size
  valueFrom object field depth (← touch (Vm.newLocalRef cls))

/-- The values of fields, in the order asked for.  The fields may be declared by the object's class
or any class above it. -/
def values (id : ObjectId) (fields : List FieldId) : Command (List Value) :=
  withObject id fun object =>
    withClassOf object fun cls => fields.mapM (value object cls)

/-- The characters of a string. -/
def stringValue (id : ObjectId) : Command String :=
  withObject id fun object => do
    Action.require .invalidString (← native (Vm.stringChars object))

/-- The signature of an array's class. -/
def arraySignature (array : Handle) : Command String :=
  withClassOf array fun cls => do
    let (signature, _) ← ask fun vm => vm.classSignature cls
    Action.guard (signature.toList.head? = some '[') .invalidArray
    return signature

def arrayLength (id : ObjectId) : Command Int :=
  withObject id fun array => do
    let _ ← arraySignature array
    native (Vm.arrayLength array)

/-- A run of elements of an array. -/
def arrayValues (id : ObjectId) (first length : Int) : Command (List Value) :=
  withObject id fun array => do
    let signature ← arraySignature array
    let size ← native (Vm.arrayLength array)
    Action.guard (0 ≤ first ∧ first ≤ size) .invalidIndex
    Action.guard (0 ≤ length ∧ first + length ≤ size) .invalidLength
    Reading.readArray array signature first length

end Command.Object

end DebugAgent
