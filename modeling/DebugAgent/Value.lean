import DebugAgent.Ident
import DebugAgent.TypeTag
import DebugAgent.Ieee.Decimal

/-!
# Values of the protocol

A value is a tag and the data it announces.  Data keeps its width: bytes, characters and the other
primitives are fixed-width words, floating point numbers are their words in the interchange format.
-/

namespace DebugAgent

/-- A floating point number of 32 bits, as its word. -/
structure Single where
  word : UInt32
  deriving DecidableEq, Repr

/-- A floating point number of 64 bits, as its word. -/
structure Double where
  word : UInt64
  deriving DecidableEq, Repr

namespace Single

def zero : Single := ⟨0⟩

def text (v : Single) : String := Ieee.Format.single.text v.word.toNat

def isNaN (v : Single) : Bool := Ieee.Format.single.read v.word.toNat = .nan

end Single

namespace Double

def zero : Double := ⟨0⟩

def text (v : Double) : String := Ieee.Format.double.text v.word.toNat

def isNaN (v : Double) : Bool := Ieee.Format.double.read v.word.toNat = .nan

end Double

/-- The data of a value. -/
inductive ValueData where
  | byte (v : Int8)
  | char (v : UInt16)
  | float (v : Single)
  | double (v : Double)
  | int (v : Int32)
  | long (v : Int64)
  | short (v : Int16)
  | boolean (v : Bool)
  | object (id : ObjectId)
  | void
  deriving DecidableEq, Repr

/-- A value with the tag that says how to read it. -/
structure Value where
  tag : TypeTag
  data : ValueData
  deriving DecidableEq, Repr

/-- An object with the tag of its class. -/
structure TaggedObjectId where
  tag : TypeTag
  objectId : ObjectId
  deriving DecidableEq, Repr

/-- The data that a tag announces. -/
def ValueData.agrees : TypeTag → ValueData → Bool
  | .byte, .byte _ => true
  | .char, .char _ => true
  | .float, .float _ => true
  | .double, .double _ => true
  | .int, .int _ => true
  | .long, .long _ => true
  | .short, .short _ => true
  | .boolean, .boolean _ => true
  | .void, .void => true
  | tag, .object _ => tag.isObject
  | _, _ => false

/-- A UTF-16 unit as text; a lone half of a surrogate pair has none and is shown as a question mark.
-/
def unitText (unit : UInt16) : String :=
  if unit.toNat.isValidChar then String.ofList [Char.ofNat unit.toNat] else "?"

namespace Value

def ofObject (tagged : TaggedObjectId) : Value :=
  ⟨tagged.tag, .object tagged.objectId⟩

def objectId? (v : Value) : Option ObjectId :=
  match v.data with
  | .object id => some id
  | _ => none

/-- The text that shows a value to a person: its kind of data in parentheses, then the data. -/
def text (v : Value) : String :=
  match v.data with
  | .byte b => "(byte) " ++ toString b.toInt
  | .char c => "(char) \x27" ++ unitText c ++ "\x27"
  | .float x => "(float) " ++ x.text
  | .double x => "(double) " ++ x.text
  | .int n => "(int) " ++ toString n.toInt
  | .long n => "(long) " ++ toString n.toInt
  | .short n => "(short) " ++ toString n.toInt
  | .boolean b => if b then "(boolean) true" else "(boolean) false"
  | .object id =>
      if id = 0 then "(object) null" else "(object) @" ++ String.ofList (Nat.toDigits 16 id)
  | .void => "(void)"

end Value

end DebugAgent
