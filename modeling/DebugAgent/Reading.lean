import DebugAgent.Signature.Parser
import DebugAgent.Tracking

/-!
# Reading values

A value is read at a declared type: the first letter of a signature selects the typed read, and what
comes back is turned into a value with a tag.  References are tracked on the way out, so the tag of
an object is that of its class and not the declared one.

A read of a field or an element may raise an exception in the machine.  The exception is cleared and
the zero of the type stands for the value.
-/

namespace DebugAgent

open Command

namespace Reading

/-- Where a field is kept: in the class that declares it or in an object. -/
inductive FieldOwner where
  | inClass (cls : Handle)
  | inObject (object : Handle)
  deriving DecidableEq, Repr

/-- The tag of the type that a signature declares. -/
def declaredTag (signature : String) : Except ProtocolError TypeTag :=
  (TypeTag.ofSignature signature).mapError SignatureError.toProtocol

/-- The data of a primitive value read at a type.  For types narrower than an `int` the value may
come as an `int`, of which the low bits count. -/
def narrow (tag : TypeTag) (v : Primitive) : Except ProtocolError ValueData :=
  match tag, v with
  | .boolean, .int v => .ok (.boolean (v != 0))
  | .byte, .int v => .ok (.byte v.toInt8)
  | .char, .int v => .ok (.char v.toUInt32.toUInt16)
  | .short, .int v => .ok (.short v.toInt16)
  | tag, v => if ValueData.agrees tag v.data then .ok v.data else .error .typeMismatch

/-- A primitive value read at a type. -/
def primitiveValue (tag : TypeTag) (v : Primitive) : Except ProtocolError Value :=
  (narrow tag v).map fun data => ⟨tag, data⟩

/-- The value that was read at a type.  A reference is tracked and then deleted. -/
def wrap (tag : TypeTag) : RawValue → Command Value
  | .primitive v => .ofExcept (primitiveValue tag v)
  | .object h => withLocal h do return .ofObject (← Tracking.trackObject h tag)

/-- Reads from the machine and clears the exception that the read may have raised. -/
def clearing {α : Type} (read : Command α) : Command α := do
  let result ← read
  adjust Vm.clearException
  return result

/-- The value of a field with the given signature. -/
def readField (owner : FieldOwner) (field : FieldId) (signature : String) : Command Value := do
  let tag ← Action.ofExcept (declaredTag signature)
  let kind ← Action.ofExcept tag.valueKind
  let raw ←
    match owner with
    | .inClass cls => clearing (touch (Vm.staticField cls field kind))
    | .inObject object => clearing (native (Vm.instanceField object field kind))
  wrap tag raw

/-- The element at an index of an array of references. -/
def readElement (array : Handle) (tag : TypeTag) (index : Int) : Command Value := do
  let h ← clearing (native (Vm.arrayElement array index))
  wrap tag (.object h)

/-- A primitive value that was read at a type, as one of many. -/
def regionValue (tag : TypeTag) : RawValue → Except ProtocolError Value
  | .primitive v => primitiveValue tag v
  | .object _ => .error .typeMismatch

/-- The elements of an array from an index on.  Primitive ones are read at once, references one
after another. -/
def readArray (array : Handle) (signature : String) (first length : Int) :
    Command (List Value) := do
  let component ←
    Action.ofExcept ((Signature.componentSignature signature).mapError SignatureError.toProtocol)
  let tag ← Action.ofExcept (declaredTag component)
  if tag.isObject then
    (List.range length.toNat).mapM fun (offset : Nat) => readElement array tag (first + offset)
  else
    let kind ← Action.ofExcept tag.valueKind
    let region ← clearing (native (Vm.arrayRegion array kind first length))
    Action.guard (region.length = length.toNat) .internal
    Action.ofExcept (region.mapM (regionValue tag))

/-- The local variable in a slot of the frame at a depth, declared with the given signature. -/
def readLocal (thread : Handle) (depth slot : Int) (signature : String) : Command Value := do
  let tag ← Action.ofExcept (declaredTag signature)
  let kind ← Action.ofExcept tag.slotKind
  let raw ← call (Vm.getLocal thread depth slot kind)
  wrap tag raw

end Reading

end DebugAgent
