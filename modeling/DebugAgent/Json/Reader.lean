import DebugAgent.Json.Basic

/-!
# Reading records

A record is read from the members of an object by name.  Members with other names are ignored,
whatever they hold; a repeated member is refused; a missing one is refused unless the record gives
it a default.  Or it is read from the items of an array, which are its members in their order: none
may be missing at the end, unless all members have defaults, and none may be left over.  An
enumeration is read from its name, or from an object whose single member has that name and holds
nothing.

`Source` tells whether a value is read directly or was held back while its record's kind was still
unknown.  Values held back are checked in full first (`Json.fits`), and there the empty object also
counts as holding nothing.
-/

namespace DebugAgent

/-- Where a value is read from. -/
inductive Source where
  | direct
  | heldBack
  deriving DecidableEq, Repr

namespace Json

mutual

/-- The value can be held back: its strings denote text, its numbers are in range and at most
`depth` containers are nested in one another. -/
def fits (depth : Nat) : Json → Bool
  | .null => true
  | .bool _ => true
  | .number n => n.integer?.isSome || n.double?.isSome
  | .string text => text.isSome
  | .array items => 0 < depth && itemsFit (depth - 1) items
  | .object members => 0 < depth && membersFit (depth - 1) members

def itemsFit (depth : Nat) : List Json → Bool
  | [] => true
  | item :: items => fits depth item && itemsFit depth items

def membersFit (depth : Nat) : List (Option String × Json) → Bool
  | [] => true
  | (name, value) :: members => name.isSome && fits depth value && membersFit depth members

end

/-- An integer between two bounds. -/
def intBetween (least greatest : Int) : Json → Option Int
  | .number n =>
      match n.integer? with
      | some value => if least ≤ value ∧ value ≤ greatest then some value else none
      | none => none
  | _ => none

def int32? (j : Json) : Option Int := j.intBetween (-0x80000000) 0x7fffffff

def word32? (j : Json) : Option Nat := (j.intBetween 0 0xffffffff).map Int.toNat

def word64? (j : Json) : Option Nat := (j.intBetween 0 0xffffffffffffffff).map Int.toNat

def bool? : Json → Option Bool
  | .bool b => some b
  | _ => none

def string? : Json → Option String
  | .string text => text
  | _ => none

/-- `null` is `none`. -/
def option? {α : Type} (read : Json → Option α) : Json → Option (Option α)
  | .null => some none
  | j => (read j).map some

def array? {α : Type} (read : Json → Option α) : Json → Option (List α)
  | .array items => items.mapM read
  | _ => none

/-- The value holds nothing. -/
def isUnit (source : Source) : Json → Bool
  | .null => true
  | .object [] => source = .heldBack
  | _ => false

/-- The element of an enumeration with the given name. -/
def enum? {α : Type} (source : Source) (names : List (String × α)) : Json → Option α
  | .string (some name) => names.lookup name
  | .object [(some name, value)] => if value.isUnit source then names.lookup name else none
  | _ => none

/-- The members of an object that a record knows, if no known name occurs twice, or the items of an
array under the names of the record. -/
def known? (names : List String) : Json → Option (List (String × Json))
  | .object members =>
      match members.mapM fun m => m.1.map fun name => (name, m.2) with
      | none => none
      | some named =>
          let known := named.filter fun m => names.contains m.1
          if (known.map Prod.fst).Nodup then some known else none
  | .array items => if items.length = names.length then some (names.zip items) else none
  | _ => none

/-- The members of a record that has defaults for all of them. -/
def knownOr? (names : List String) : Json → Option (List (String × Json))
  | .array items => if items.length ≤ names.length then some (names.zip items) else none
  | j => j.known? names

/-- A member that has to be there. -/
def field? {α : Type} (members : List (String × Json)) (name : String) (read : Json → Option α) :
    Option α :=
  (members.lookup name).bind read

/-- A member with a default. -/
def fieldOr? {α : Type} (members : List (String × Json)) (name : String) (default : α)
    (read : Json → Option α) : Option α :=
  match members.lookup name with
  | none => some default
  | some value => read value

end Json

end DebugAgent
