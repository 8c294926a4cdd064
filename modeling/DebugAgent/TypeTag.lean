import DebugAgent.ProtocolError

/-!
# Type tags

A value of the protocol carries a tag that says how to read it.  Primitive values are tagged by
their declared type; references by the class of the object they name, so strings, threads, thread
groups, class loaders and class objects have tags of their own.

A tag also selects how the machine is asked for a value: fields and array elements have one typed
read per primitive type (`ValueKind`), local variables have one per computational type (`SlotKind`).
-/

namespace DebugAgent

/-- How a value of the protocol is to be read. -/
inductive TypeTag where
  | array
  | byte
  | char
  | object
  | float
  | double
  | int
  | long
  | short
  | void
  | boolean
  | string
  | thread
  | threadGroup
  | classLoader
  | classObject
  deriving DecidableEq, Repr

/-- Selects the typed read of a field or an array element. -/
inductive ValueKind where
  | boolean
  | byte
  | char
  | short
  | int
  | long
  | float
  | double
  | object
  deriving DecidableEq, Repr

/-- Selects the typed read of a local variable: the machine keeps everything narrower than an `int`
as an `int`. -/
inductive SlotKind where
  | int
  | long
  | float
  | double
  | object
  deriving DecidableEq, Repr

namespace TypeTag

def all : List TypeTag :=
  [.array, .byte, .char, .object, .float, .double, .int, .long, .short,
    .void, .boolean, .string, .thread, .threadGroup, .classLoader, .classObject]

/-- The name of a tag in records. -/
def name : TypeTag → String
  | .array => "Array"
  | .byte => "Byte"
  | .char => "Char"
  | .object => "Object"
  | .float => "Float"
  | .double => "Double"
  | .int => "Int"
  | .long => "Long"
  | .short => "Short"
  | .void => "Void"
  | .boolean => "Boolean"
  | .string => "String"
  | .thread => "Thread"
  | .threadGroup => "ThreadGroup"
  | .classLoader => "ClassLoader"
  | .classObject => "ClassObject"

/-- The wire code of a tag is a letter: the first letter of the signature for declared types, a
lower case one for the special classes. -/
def code : TypeTag → Nat
  | .array => 91
  | .byte => 66
  | .char => 67
  | .object => 76
  | .float => 70
  | .double => 68
  | .int => 73
  | .long => 74
  | .short => 83
  | .void => 86
  | .boolean => 90
  | .string => 115
  | .thread => 116
  | .threadGroup => 103
  | .classLoader => 108
  | .classObject => 99

/-- Values with this tag are references. -/
def isObject : TypeTag → Bool
  | .array | .object | .string | .thread | .threadGroup | .classLoader | .classObject => true
  | _ => false

/-- The read of a field or an array element with this tag.  Nothing is read at type `void`. -/
def valueKind : TypeTag → Except ProtocolError ValueKind
  | .boolean => .ok .boolean
  | .byte => .ok .byte
  | .char => .ok .char
  | .short => .ok .short
  | .int => .ok .int
  | .long => .ok .long
  | .float => .ok .float
  | .double => .ok .double
  | .void => .error .invalidFieldId
  | _ => .ok .object

/-- The read of a local variable with this tag.  No variable has type `void`. -/
def slotKind : TypeTag → Except ProtocolError SlotKind
  | .boolean | .byte | .char | .short | .int => .ok .int
  | .long => .ok .long
  | .float => .ok .float
  | .double => .ok .double
  | .void => .error .invalidFieldId
  | _ => .ok .object

end TypeTag

end DebugAgent
