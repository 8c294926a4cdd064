import DebugAgent.Flags
import DebugAgent.Ident
import DebugAgent.Value

/-!
# Records

What commands answer with and what events carry.
-/

namespace DebugAgent

/-- The kind of a reference type. -/
inductive TypeKind where
  | classType
  | interfaceType
  | arrayType
  deriving DecidableEq, Repr

/-- The kind's name in records. -/
def TypeKind.name : TypeKind → String
  | .classType => "Class"
  | .interfaceType => "Interface"
  | .arrayType => "Array"

/-- A reference type with its kind. -/
structure TaggedTypeId where
  kind : TypeKind
  typeId : ObjectId
  deriving DecidableEq, Repr

/-- A position in the code of a method.  Records count from zero, so native positions, which the
machine gives as -1, are written as 0. -/
structure Location where
  kind : TypeKind
  classId : ObjectId
  methodId : MethodId
  index : Nat
  deriving DecidableEq, Repr

/-- A loaded class. -/
structure ReferenceType where
  typeId : TaggedTypeId
  signature : String
  genericSignature : Option String
  status : ClassStatus
  deriving DecidableEq, Repr

/-- A field that a class declares. -/
structure DeclaredField where
  fieldId : FieldId
  name : String
  signature : String
  genericSignature : Option String
  modifiers : Int32
  deriving DecidableEq, Repr

/-- A method that a class declares. -/
structure DeclaredMethod where
  methodId : MethodId
  name : String
  signature : String
  genericSignature : Option String
  modifiers : Int32
  deriving DecidableEq, Repr

/-- A local variable and the code range in which it lives. -/
structure Variable where
  codeIndex : Nat
  name : String
  signature : String
  genericSignature : Option String
  length : Nat
  slot : Nat
  deriving DecidableEq, Repr

/-- The variables of a method and the number of slots its arguments take, receiver included. -/
structure VariableTable where
  argCount : Int
  entries : List Variable
  deriving DecidableEq, Repr

/-- First instruction of a source line. -/
structure LineEntry where
  codeIndex : Nat
  line : Int
  deriving DecidableEq, Repr

/-- The code range of a method and its source lines. -/
structure LineTable where
  start : Nat
  finish : Nat
  lines : List LineEntry
  deriving DecidableEq, Repr

/-- A frame of a thread's stack. -/
structure FrameInfo where
  frameId : FrameId
  location : Location
  deriving DecidableEq, Repr

structure VmVersion where
  description : String
  major : Int
  minor : Int
  vmVersion : String
  vmName : String
  deriving DecidableEq, Repr

/-- Asks to give back `count` references to an object. -/
structure DisposeRequest where
  objectId : ObjectId
  count : Nat
  deriving DecidableEq, Repr

end DebugAgent
