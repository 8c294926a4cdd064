import DebugAgent.Text.Hidden

/-!
# Quoted text

Diagnostics quote the text they are about.  Inside quotes a backslash marks what could be misread:
the closing quote, the backslash itself, the common controls by a letter, and every character
without a visible shape by its number in hexadecimal.
-/

namespace DebugAgent.Text

/-- One character between quotes of the kind `quote`. -/
def escapeChar (quote c : Char) : List Char :=
  if c = Char.ofNat 0 then ['\\', '0']
  else if c = '\t' then ['\\', 't']
  else if c = '\n' then ['\\', 'n']
  else if c = '\r' then ['\\', 'r']
  else if c = '\\' || c = quote then ['\\', c]
  else if isHidden c then
    ['\\', 'u', Char.ofNat 0x7b] ++ Nat.toDigits 16 c.toNat ++ [Char.ofNat 0x7d]
  else [c]

/-- Text between quotes of the kind `quote`. -/
def quoteWith (quote : Char) (text : List Char) : String :=
  String.ofList (quote :: text.flatMap (escapeChar quote) ++ [quote])

/-- A text in double quotes. -/
def quoted (text : String) : String :=
  quoteWith (Char.ofNat 0x22) text.toList

/-- A character in single quotes. -/
def quotedChar (c : Char) : String :=
  quoteWith (Char.ofNat 0x27) [c]

end DebugAgent.Text
