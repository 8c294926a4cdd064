import DebugAgent.Json.Token

/-!
# Reading JSON text

The parser keeps the containers that are still open on a stack and runs once over the tokens.
Nesting is therefore bounded by the text alone; a reader that needs a bound of its own states it
(`Json.fits`).
-/

namespace DebugAgent.Json

/-- A container that is still open, with what it holds so far in reverse.  An object also holds the
name whose value is being read. -/
inductive Open where
  | array (items : List Json)
  | object (members : List (Option String × Json)) (name : Option String)

/-- What the next token has to be. -/
inductive Expect where
  /-- A value. -/
  | value
  /-- A value or the end of the array just opened. -/
  | firstItem
  /-- A name or the end of the object just opened. -/
  | firstName
  /-- A name. -/
  | name
  /-- The colon after a name. -/
  | colon
  /-- A comma or the end of the innermost open container. -/
  | separator
  /-- Nothing: the outermost value is complete. -/
  | done (value : Json)

/-- Puts a complete value into the innermost open container. -/
def place (value : Json) : List Open → Expect × List Open
  | [] => (.done value, [])
  | .array items :: outer => (.separator, .array (value :: items) :: outer)
  | .object members name :: outer => (.separator, .object ((name, value) :: members) none :: outer)

/-- Closes the innermost open container. -/
def close (mark : Char) : List Open → Option (Expect × List Open)
  | .array items :: outer =>
      if mark = ']' then some (place (.array items.reverse) outer) else none
  | .object members _ :: outer =>
      if mark = '\x7d' then some (place (.object members.reverse) outer) else none
  | [] => none

/-- Starts a value with one token. -/
def start (token : Token) (stack : List Open) : Option (Expect × List Open) :=
  match token with
  | .null => some (place .null stack)
  | .bool b => some (place (.bool b) stack)
  | .number n => some (place (.number n) stack)
  | .string s => some (place (.string s) stack)
  | .mark c =>
      if c = '[' then some (.firstItem, .array [] :: stack)
      else if c = '\x7b' then some (.firstName, .object [] none :: stack)
      else none

/-- Names the value that follows. -/
def setName (text : Option String) : List Open → Option (Expect × List Open)
  | .object members _ :: outer => some (.colon, .object members text :: outer)
  | _ => none

/-- One token. -/
def step (token : Token) (expect : Expect) (stack : List Open) : Option (Expect × List Open) :=
  match expect, token with
  | .value, token => start token stack
  | .firstItem, .mark ']' => close ']' stack
  | .firstItem, token => start token stack
  | .firstName, .mark '\x7d' => close '\x7d' stack
  | .firstName, .string text => setName text stack
  | .name, .string text => setName text stack
  | .colon, .mark ':' => some (.value, stack)
  | .separator, .mark ',' =>
      match stack with
      | .array _ :: _ => some (.value, stack)
      | .object _ _ :: _ => some (.name, stack)
      | [] => none
  | .separator, .mark c => close c stack
  | _, _ => none

/-- Runs over the tokens.  The text is complete when the outermost value is. -/
def build : List Token → Expect → List Open → Option Json
  | [], .done value, _ => some value
  | [], _, _ => none
  | token :: tokens, expect, stack =>
      match step token expect stack with
      | none => none
      | some (expect, stack) => build tokens expect stack

/-- The value that a text denotes. -/
def parse? (text : String) : Option Json :=
  (scan text.toList).bind fun tokens => build tokens .value []

end DebugAgent.Json
