import DebugAgent.Json.Basic

/-!
# Tokens of JSON text

Scanning cuts a text into tokens and drops the blanks between them.  It checks everything that
concerns one token: the digits of a number, the escapes of a string, the absence of control
characters.  What a token may follow is left to `DebugAgent.Json.Parser`.
-/

namespace DebugAgent.Json

/-- A token.  `mark` is one of the six punctuation characters. -/
inductive Token where
  | mark (c : Char)
  | null
  | bool (value : Bool)
  | number (value : Numeral)
  | string (text : Option String)
  deriving DecidableEq, Repr

/-- A character between quotes, or a 16-bit unit given by its number. -/
inductive Piece where
  | char (c : Char)
  | unit (value : Nat)
  deriving DecidableEq, Repr

def hexDigit? (c : Char) : Option Nat :=
  if c.isDigit then some (c.toNat - 48)
  else if 'a' ≤ c ∧ c ≤ 'f' then some (c.toNat - 87)
  else if 'A' ≤ c ∧ c ≤ 'F' then some (c.toNat - 55)
  else none

/-- The unit that four hexadecimal digits give. -/
def unit? (a b c d : Char) : Option Nat := do
  let a ← hexDigit? a
  let b ← hexDigit? b
  let c ← hexDigit? c
  let d ← hexDigit? d
  return ((a * 16 + b) * 16 + c) * 16 + d

/-- The character that a letter after a backslash stands for. -/
def escaped? : Char → Option Char
  | '"' => some '"'
  | '\\' => some '\\'
  | '/' => some '/'
  | 'b' => some '\x08'
  | 'f' => some '\x0c'
  | 'n' => some '\n'
  | 'r' => some '\r'
  | 't' => some '\t'
  | _ => none

/-- The inside of a string up to its closing quote, and what follows the quote. -/
def takePieces : List Char → Option (List Piece × List Char)
  | [] => none
  | '"' :: rest => some ([], rest)
  | '\\' :: 'u' :: a :: b :: c :: d :: rest => do
      let value ← unit? a b c d
      let (pieces, after) ← takePieces rest
      return (.unit value :: pieces, after)
  | '\\' :: e :: rest => do
      let c ← escaped? e
      let (pieces, after) ← takePieces rest
      return (.char c :: pieces, after)
  | c :: rest =>
      if c.toNat < 0x20 || c = '\\' then none
      else do
        let (pieces, after) ← takePieces rest
        return (.char c :: pieces, after)

/-- The text that pieces denote.  Units from the surrogate ranges count only in pairs, the high one
first. -/
def textOf? : List Piece → Option (List Char)
  | [] => some []
  | .char c :: rest => (textOf? rest).map (c :: ·)
  | .unit high :: .unit low :: rest =>
      if 0xd800 ≤ high ∧ high < 0xdc00 then
        if 0xdc00 ≤ low ∧ low < 0xe000 then
          (textOf? rest).map
            (Char.ofNat (0x10000 + (high - 0xd800) * 0x400 + (low - 0xdc00)) :: ·)
        else none
      else if 0xdc00 ≤ high ∧ high < 0xe000 then none
      else (textOf? (.unit low :: rest)).map (Char.ofNat high :: ·)
  | .unit value :: rest =>
      if 0xd800 ≤ value ∧ value < 0xe000 then none
      else (textOf? rest).map (Char.ofNat value :: ·)

/-- The digits at the front of the input. -/
def digits (input : List Char) : List Nat :=
  (input.takeWhile Char.isDigit).map fun c => c.toNat - 48

def afterDigits (input : List Char) : List Char :=
  input.dropWhile Char.isDigit

def natOfDigits (ds : List Nat) : Nat :=
  ds.foldl (fun n d => n * 10 + d) 0

/-- The fraction at the front of the input, if a point starts one; a point needs digits. -/
def takeFraction : List Char → Option (List Nat × List Char)
  | '.' :: input => if digits input = [] then none else some (digits input, afterDigits input)
  | input => some ([], input)

/-- The exponent at the front of the input, if a letter `e` starts one; it needs digits. -/
def takeExponent : List Char → Option (Option Int × List Char)
  | c :: input =>
      if c = 'e' ∨ c = 'E' then
        let negative := input.head? = some '-'
        let input := if input.head? = some '-' ∨ input.head? = some '+' then input.tail else input
        if digits input = [] then none
        else
          let size : Int := natOfDigits (digits input)
          some (some (if negative then -size else size), afterDigits input)
      else some (none, c :: input)
  | [] => some (none, [])

/-- The number at the front of the input, after its sign.  Only zero starts with the digit zero. -/
def takeNumber (negative : Bool) (input : List Char) : Option (Token × List Char) := do
  let whole := digits input
  if whole = [] ∨ (whole.head? = some 0 ∧ whole ≠ [0]) then none
  else
    let (fraction, input) ← takeFraction (afterDigits input)
    let (exponent, input) ← takeExponent input
    return (.number ⟨negative, natOfDigits whole, fraction, exponent⟩, input)

/-- The token at the front of the input, which starts with the character `c`. -/
def takeToken (c : Char) (rest : List Char) : Option (Token × List Char) :=
  match c, rest with
  | '"', rest => (takePieces rest).map fun p => (.string ((textOf? p.1).map String.ofList), p.2)
  | '-', rest => takeNumber true rest
  | 'n', 'u' :: 'l' :: 'l' :: rest => some (.null, rest)
  | 't', 'r' :: 'u' :: 'e' :: rest => some (.bool true, rest)
  | 'f', 'a' :: 'l' :: 's' :: 'e' :: rest => some (.bool false, rest)
  | c, rest =>
      if c ∈ ['[', ']', '\x7b', '\x7d', ',', ':'] then some (.mark c, rest)
      else if c.isDigit then takeNumber false (c :: rest)
      else none

def isBlank (c : Char) : Bool :=
  c = ' ' || c = '\t' || c = '\n' || c = '\r'

/-- Cuts a text into tokens.  Each token takes at least one character, so a text has no more tokens
than characters. -/
def scan (input : List Char) : Option (List Token) :=
  go input.length input
where
  go : Nat → List Char → Option (List Token)
    | _, [] => some []
    | 0, _ :: _ => none
    | n + 1, c :: rest =>
        if isBlank c then go n rest
        else do
          let (token, after) ← takeToken c rest
          let tokens ← go n after
          return token :: tokens

end DebugAgent.Json
