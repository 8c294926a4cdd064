/-!
# Class patterns

Class filters name classes by a pattern: a dotted name, in which a star as the first or the last
character stands for any text.  A star elsewhere is an ordinary character.
-/

namespace DebugAgent

/-- The name is one that the pattern describes.  A star in front takes precedence over one at the
end. -/
def classPatternMatches (pattern name : List Char) : Bool :=
  match pattern with
  | '*' :: ending => ending.isSuffixOf name
  | _ =>
      match pattern.getLast? with
      | some '*' => pattern.dropLast.isPrefixOf name
      | _ => pattern == name

end DebugAgent
