import DebugAgent.Reading
import DebugAgent.Record.Basic

/-!
# Commands on reference types
-/

namespace DebugAgent

namespace Command.Class

open Tracking

def signatureWithGeneric (id : ObjectId) : Command (String × Option String) :=
  withClass id fun cls => ask fun vm => vm.classSignature cls

def signature (id : ObjectId) : Command String := do
  return (← signatureWithGeneric id).1

def modifiers (id : ObjectId) : Command Int32 :=
  withClass id fun cls => ask fun vm => vm.classModifiers cls

/-- A field that the class declares. -/
def fieldRecord (cls : Handle) (field : FieldId) : Command DeclaredField := do
  let (name, signature) ← ask fun vm => vm.fieldName cls field
  let modifiers ← ask fun vm => vm.fieldModifiers cls field
  return { fieldId := field, name, signature, genericSignature := none, modifiers }

/-- The fields that the class declares itself. -/
def fields (id : ObjectId) : Command (List DeclaredField) :=
  withClass id fun cls => do
    (← ask fun vm => vm.classFields cls).mapM (fieldRecord cls)

def methodRecord (method : MethodId) : Command DeclaredMethod := do
  let (name, signature) ← ask fun vm => vm.methodName method
  let modifiers ← ask fun vm => vm.methodModifiers method
  return { methodId := method, name, signature, genericSignature := none, modifiers }

/-- The methods that the class declares itself. -/
def methods (id : ObjectId) : Command (List DeclaredMethod) :=
  withClass id fun cls => do
    (← ask fun vm => vm.classMethods cls).mapM methodRecord

/-- The value of a static field that the class declares itself. -/
def value (cls : Handle) (field : FieldId) : Command Value := do
  let (_, signature) ← ask fun vm => vm.fieldName cls field
  let modifiers ← ask fun vm => vm.fieldModifiers cls field
  Action.guard (hasAny modifiers Access.isStatic) .invalidFieldId
  Reading.readField (.inClass cls) field signature

/-- The values of static fields, in the order asked for. -/
def values (id : ObjectId) (fields : List FieldId) : Command (List Value) :=
  withClass id fun cls => fields.mapM (value cls)

def sourceFile (id : ObjectId) : Command String :=
  withClass id fun cls => ask fun vm => vm.sourceFileName cls

def status (id : ObjectId) : Command ClassStatus :=
  withClass id fun cls => do return .ofState (← ask fun vm => vm.classStatus cls)

/-- The interfaces that the class names itself. -/
def interfaces (id : ObjectId) : Command (List ObjectId) :=
  withClass id fun cls => do
    let interfaces ← call (Vm.implementedInterfaces cls)
    withLocals interfaces do
      interfaces.mapM fun h => TaggedTypeId.typeId <$> trackClass h

end Command.Class

end DebugAgent
