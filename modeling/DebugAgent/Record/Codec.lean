import DebugAgent.Json.Reader
import DebugAgent.Record.Basic

/-!
# Records as JSON

Each record is written as an object with fixed member names and read back by those names.  Integers
have the width that the protocol gives them: identifiers and code indexes 64 bits, lengths, slots
and counts 32 bits, all unsigned; lines, modifiers and versions 32 bits signed.
-/

namespace DebugAgent

def TypeTag.names : List (String × TypeTag) :=
  TypeTag.all.map fun tag => (tag.name, tag)

def TypeTag.toJson (tag : TypeTag) : Json := .ofString tag.name

def TypeTag.ofJson? (source : Source) (j : Json) : Option TypeTag := j.enum? source names

namespace TypeKind

def names : List (String × TypeKind) :=
  [("Class", .classType), ("Interface", .interfaceType), ("Array", .arrayType)]

def toJson (kind : TypeKind) : Json := .ofString kind.name

def ofJson? (source : Source) (j : Json) : Option TypeKind := j.enum? source names

end TypeKind

namespace ClassStatus

def toJson (status : ClassStatus) : Json := .ofInt status.bits.toInt

def ofJson? (j : Json) : Option ClassStatus := j.int32?.map fun bits => ⟨.ofInt bits⟩

end ClassStatus

namespace TaggedTypeId

def toJson (t : TaggedTypeId) : Json :=
  .record [("type_tag", t.kind.toJson), ("type_id", .ofNat t.typeId)]

def ofJson? (source : Source) (j : Json) : Option TaggedTypeId := do
  let members ← j.known? ["type_tag", "type_id"]
  let kind ← Json.field? members "type_tag" (TypeKind.ofJson? source)
  let typeId ← Json.field? members "type_id" Json.word64?
  return ⟨kind, typeId⟩

end TaggedTypeId

namespace TaggedObjectId

def toJson (t : TaggedObjectId) : Json :=
  .record [("tag", t.tag.toJson), ("object_id", .ofNat t.objectId)]

def ofJson? (source : Source) (j : Json) : Option TaggedObjectId := do
  let members ← j.known? ["tag", "object_id"]
  let tag ← Json.field? members "tag" (TypeTag.ofJson? source)
  let objectId ← Json.field? members "object_id" Json.word64?
  return ⟨tag, objectId⟩

end TaggedObjectId

namespace Location

def toJson (l : Location) : Json :=
  .record
    [("type_tag", l.kind.toJson), ("class_id", .ofNat l.classId), ("method_id", .ofNat l.methodId),
      ("index", .ofNat l.index)]

def ofJson? (source : Source) (j : Json) : Option Location := do
  let members ← j.known? ["type_tag", "class_id", "method_id", "index"]
  let kind ← Json.field? members "type_tag" (TypeKind.ofJson? source)
  let classId ← Json.field? members "class_id" Json.word64?
  let methodId ← Json.field? members "method_id" Json.word64?
  let index ← Json.field? members "index" Json.word64?
  return ⟨kind, classId, methodId, index⟩

end Location

namespace ReferenceType

def toJson (t : ReferenceType) : Json :=
  .record
    [("type_id", t.typeId.toJson), ("signature", .ofString t.signature),
      ("generic_signature", .ofOption .ofString t.genericSignature), ("status", t.status.toJson)]

def ofJson? (j : Json) : Option ReferenceType := do
  let members ← j.known? ["type_id", "signature", "generic_signature", "status"]
  let typeId ← Json.field? members "type_id" (TaggedTypeId.ofJson? .direct)
  let signature ← Json.field? members "signature" Json.string?
  let genericSignature ← Json.fieldOr? members "generic_signature" none (Json.option? Json.string?)
  let status ← Json.field? members "status" ClassStatus.ofJson?
  return ⟨typeId, signature, genericSignature, status⟩

end ReferenceType

def DeclaredField.toJson (f : DeclaredField) : Json :=
  .record
    [("field_id", .ofNat f.fieldId), ("name", .ofString f.name),
      ("signature", .ofString f.signature),
      ("generic_signature", .ofOption .ofString f.genericSignature),
      ("modifiers", .ofInt f.modifiers.toInt)]

def DeclaredMethod.toJson (m : DeclaredMethod) : Json :=
  .record
    [("method_id", .ofNat m.methodId), ("name", .ofString m.name),
      ("signature", .ofString m.signature),
      ("generic_signature", .ofOption .ofString m.genericSignature),
      ("modifiers", .ofInt m.modifiers.toInt)]

namespace Variable

def toJson (v : Variable) : Json :=
  .record
    [("code_index", .ofNat v.codeIndex), ("name", .ofString v.name),
      ("signature", .ofString v.signature),
      ("generic_signature", .ofOption .ofString v.genericSignature), ("length", .ofNat v.length),
      ("slot", .ofNat v.slot)]

def ofJson? (j : Json) : Option Variable := do
  let members ←
    j.known? ["code_index", "name", "signature", "generic_signature", "length", "slot"]
  let codeIndex ← Json.field? members "code_index" Json.word64?
  let name ← Json.field? members "name" Json.string?
  let signature ← Json.field? members "signature" Json.string?
  let genericSignature ← Json.fieldOr? members "generic_signature" none (Json.option? Json.string?)
  let length ← Json.field? members "length" Json.word32?
  let slot ← Json.field? members "slot" Json.word32?
  return ⟨codeIndex, name, signature, genericSignature, length, slot⟩

end Variable

namespace VariableTable

def toJson (t : VariableTable) : Json :=
  .record
    [("arg_count", .ofInt t.argCount), ("variables", .array (t.entries.map Variable.toJson))]

def ofJson? (j : Json) : Option VariableTable := do
  let members ← j.known? ["arg_count", "variables"]
  let argCount ← Json.field? members "arg_count" Json.int32?
  let entries ← Json.field? members "variables" (Json.array? Variable.ofJson?)
  return ⟨argCount, entries⟩

end VariableTable

namespace LineEntry

def toJson (l : LineEntry) : Json :=
  .record [("line_code_index", .ofNat l.codeIndex), ("line_number", .ofInt l.line)]

def ofJson? (j : Json) : Option LineEntry := do
  let members ← j.known? ["line_code_index", "line_number"]
  let codeIndex ← Json.field? members "line_code_index" Json.word64?
  let line ← Json.field? members "line_number" Json.int32?
  return ⟨codeIndex, line⟩

end LineEntry

namespace LineTable

def toJson (t : LineTable) : Json :=
  .record
    [("start", .ofNat t.start), ("end", .ofNat t.finish),
      ("lines", .array (t.lines.map LineEntry.toJson))]

def ofJson? (j : Json) : Option LineTable := do
  let members ← j.known? ["start", "end", "lines"]
  let start ← Json.field? members "start" Json.word64?
  let finish ← Json.field? members "end" Json.word64?
  let lines ← Json.field? members "lines" (Json.array? LineEntry.ofJson?)
  return ⟨start, finish, lines⟩

end LineTable

namespace FrameInfo

def toJson (f : FrameInfo) : Json :=
  .record [("frame_id", .ofNat f.frameId), ("location", f.location.toJson)]

def ofJson? (j : Json) : Option FrameInfo := do
  let members ← j.known? ["frame_id", "location"]
  let frameId ← Json.field? members "frame_id" Json.word64?
  let location ← Json.field? members "location" (Location.ofJson? .direct)
  return ⟨frameId, location⟩

end FrameInfo

namespace VmVersion

def toJson (v : VmVersion) : Json :=
  .record
    [("description", .ofString v.description), ("jdwp_major", .ofInt v.major),
      ("jdwp_minor", .ofInt v.minor), ("vm_version", .ofString v.vmVersion),
      ("vm_name", .ofString v.vmName)]

def ofJson? (j : Json) : Option VmVersion := do
  let members ←
    j.known? ["description", "jdwp_major", "jdwp_minor", "vm_version", "vm_name"]
  let description ← Json.field? members "description" Json.string?
  let major ← Json.field? members "jdwp_major" Json.int32?
  let minor ← Json.field? members "jdwp_minor" Json.int32?
  let vmVersion ← Json.field? members "vm_version" Json.string?
  let vmName ← Json.field? members "vm_name" Json.string?
  return ⟨description, major, minor, vmVersion, vmName⟩

end VmVersion

namespace DisposeRequest

def toJson (r : DisposeRequest) : Json :=
  .record [("object_id", .ofNat r.objectId), ("ref_count", .ofNat r.count)]

def ofJson? (j : Json) : Option DisposeRequest := do
  let members ← j.known? ["object_id", "ref_count"]
  let objectId ← Json.field? members "object_id" Json.word64?
  let count ← Json.field? members "ref_count" Json.word32?
  return ⟨objectId, count⟩

end DisposeRequest

/-- A floating point number as the shortest decimal that reads back; what is not a number is `null`.
-/
def Ieee.Format.toJson (f : Ieee.Format) (word : Nat) : Json :=
  match f.read word with
  | .finite negative mantissa exponent =>
      if mantissa = 0 then .number ⟨negative, 0, [], some 0⟩
      else
        let decimal := f.shortest mantissa exponent
        .number ⟨negative, decimal.1, [], some decimal.2⟩
  | _ => .null

namespace ValueData

/-- Data is written without the name of its kind. -/
def toJson : ValueData → Json
  | .byte v => .ofInt v.toInt
  | .char v => .ofNat v.toNat
  | .float v => Ieee.Format.single.toJson v.word.toNat
  | .double v => Ieee.Format.double.toJson v.word.toNat
  | .int v => .ofInt v.toInt
  | .long v => .ofInt v.toInt
  | .short v => .ofInt v.toInt
  | .boolean v => .bool v
  | .object id => .ofNat id
  | .void => .null

/-- The numeral of a number, for the kinds of data that take any number. -/
def numeral? : Json → Option Numeral
  | .number n => some n
  | _ => none

/-- One reader for each kind of data, in the order in which they are tried. -/
def readers : List (Json → Option ValueData) :=
  [fun j => (j.intBetween (-0x80) 0x7f).map fun n => .byte (.ofInt n),
    fun j => (j.intBetween 0 0xffff).map fun n => .char (.ofNat n.toNat),
    fun j => ((numeral? j).bind Numeral.single?).map fun word => .float ⟨.ofNat word⟩,
    fun j => ((numeral? j).bind Numeral.doubleWord?).map fun word => .double ⟨.ofNat word⟩,
    fun j => j.int32?.map fun n => .int (.ofInt n),
    fun j => (j.intBetween (-0x8000000000000000) 0x7fffffffffffffff).map fun n => .long (.ofInt n),
    fun j => (j.intBetween (-0x8000) 0x7fff).map fun n => .short (.ofInt n),
    fun j => j.bool?.map .boolean,
    fun j => j.word64?.map .object,
    fun j => if j.isUnit .direct then some .void else none]

/-- Data does not name its kind, so the first kind that takes the value wins. -/
def ofJson? (j : Json) : Option ValueData :=
  readers.findSome? fun read => read j

end ValueData

namespace Value

def toJson (v : Value) : Json :=
  .record [("tag", v.tag.toJson), ("data", v.data.toJson)]

def ofJson? (j : Json) : Option Value := do
  let members ← j.known? ["tag", "data"]
  let tag ← Json.field? members "tag" (TypeTag.ofJson? .direct)
  let data ← Json.field? members "data" ValueData.ofJson?
  return ⟨tag, data⟩

end Value

end DebugAgent
