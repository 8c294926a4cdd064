import DebugAgent.Request.Registration
import DebugAgent.Signature.Parser

/-!
# Commands on methods

A method is named together with a class.  The class has to be in use; whether it declares the method
is not asked.  Records count code indexes, lengths and slots from zero.
-/

namespace DebugAgent

namespace Command.Method

open Tracking

variable {α : Type}

/-- Runs a command on a method of a class. -/
def withMethod (refType : ObjectId) (method : MethodId) (x : Command α) : Command α :=
  withClass refType fun _ => do
    Action.ofExcept (checkMethod method)
    x

def lineTable (refType : ObjectId) (method : MethodId) : Command LineTable :=
  withMethod refType method do
    let (start, finish) ← ask fun vm => vm.methodLocation method
    let entries ← ask fun vm => vm.lineNumberTable method
    return {
      start := start.toNat, finish := finish.toNat
      lines := entries.map fun entry => ⟨entry.start.toNat, entry.line⟩ }

/-- Slots that the arguments of a method take, the receiver included. -/
def argumentSlots (type : MethodType) (modifiers : Int32) : Nat :=
  let receiver := if hasAny modifiers Access.isStatic then 0 else 1
  type.parameters.foldr (fun t slots => t.slots + slots) receiver

def variableRecord (entry : LocalVariable) : Variable :=
  { codeIndex := entry.start.toNat, name := entry.name, signature := entry.signature
    genericSignature := none, length := entry.length.toNat, slot := entry.slot.toNat }

def variableTable (refType : ObjectId) (method : MethodId) : Command VariableTable :=
  withMethod refType method do
    let entries ← ask fun vm => vm.localVariableTable method
    let (_, signature) ← ask fun vm => vm.methodName method
    let type ←
      Action.ofExcept ((MethodType.parse signature).mapError SignatureError.toProtocol)
    let modifiers ← ask fun vm => vm.methodModifiers method
    return {
      argCount := argumentSlots type modifiers
      entries := entries.map variableRecord }

def bytecodes (refType : ObjectId) (method : MethodId) : Command (List UInt8) :=
  withMethod refType method do ask fun vm => vm.bytecodes method

end Command.Method

end DebugAgent
