import DebugAgent.TypeTag
import DebugAgent.Text.Quoted

/-!
# Type signatures

The machine writes types as signatures: one letter for a primitive type, `L` name `;` for a class
and `[` followed by the component's signature for an array.  `JavaType.render` writes a signature
and `JavaType.WellFormed` says which types have one; `DebugAgent.Signature.Parser` reads them back.
-/

namespace DebugAgent

/-- A type as a signature writes it.  `void` stands for the absence of a value and is a type only
where a method returns.  Class names are internal, with `/` between packages. -/
inductive JavaType where
  | boolean
  | byte
  | char
  | short
  | int
  | long
  | float
  | double
  | void
  | object (className : String)
  | array (component : JavaType)
  deriving DecidableEq, Repr

namespace JavaType

def tag : JavaType → TypeTag
  | .boolean => .boolean
  | .byte => .byte
  | .char => .char
  | .short => .short
  | .int => .int
  | .long => .long
  | .float => .float
  | .double => .double
  | .void => .void
  | .object _ => .object
  | .array _ => .array

/-- The signature of a type. -/
def render : JavaType → List Char
  | .boolean => ['Z']
  | .byte => ['B']
  | .char => ['C']
  | .short => ['S']
  | .int => ['I']
  | .long => ['J']
  | .float => ['F']
  | .double => ['D']
  | .void => ['V']
  | .object className => 'L' :: className.toList ++ [';']
  | .array component => '[' :: component.render

/-- The types that a signature can write: class names are not empty and do not contain the character
that ends them, and no array holds `void`. -/
def WellFormed : JavaType → Prop
  | .object className => className.toList ≠ [] ∧ ';' ∉ className.toList
  | .array component => component.WellFormed ∧ component ≠ .void
  | _ => True

/-- Number of array levels around the innermost element type. -/
def dimensions : JavaType → Nat
  | .array component => component.dimensions + 1
  | _ => 0

/-- The innermost element type of an array, the type itself otherwise. -/
def base : JavaType → JavaType
  | .array component => component.base
  | t => t

/-- Slots that an argument of this type occupies in a frame: two for the wide primitives. -/
def slots : JavaType → Nat
  | .long | .double => 2
  | _ => 1

end JavaType

/-- Parameter types and return type of a method. -/
structure MethodType where
  parameters : List JavaType
  returnType : JavaType
  deriving DecidableEq, Repr

/-- Why a text is not a signature. -/
inductive SignatureError where
  | empty
  | unknownTag (first : Char) (text : String)
  | malformed (text : String)
  deriving DecidableEq, Repr

namespace SignatureError

def message : SignatureError → String
  | .empty => "empty signature"
  | .unknownTag first text =>
      "unrecognized signature character " ++ Text.quotedChar first ++ " in " ++ Text.quoted text
  | .malformed text => "malformed signature " ++ Text.quoted text

/-- Signatures come from the machine, so a bad one is nobody's argument. -/
def toProtocol (_ : SignatureError) : ProtocolError := .internal

end SignatureError

end DebugAgent
