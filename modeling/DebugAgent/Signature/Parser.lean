import DebugAgent.Signature.Basic

/-!
# Reading signatures

`JavaType.parse` accepts exactly the signatures that `JavaType.render` writes.  A reader takes one
type off the front of its input and returns the unread rest, which is always shorter; this is what
lets the reader of method signatures run through a list of types that nothing separates.
-/

namespace DebugAgent

namespace TypeTag

/-- The tag that a signature starts with. -/
def ofChar? : Char → Option TypeTag
  | 'Z' => some .boolean
  | 'B' => some .byte
  | 'C' => some .char
  | 'D' => some .double
  | 'F' => some .float
  | 'I' => some .int
  | 'J' => some .long
  | 'S' => some .short
  | 'V' => some .void
  | 'L' => some .object
  | '[' => some .array
  | _ => none

/-- Classifies a signature by its first character alone. -/
def ofSignature (signature : String) : Except SignatureError TypeTag :=
  match signature.toList with
  | [] => .error .empty
  | c :: _ =>
      match ofChar? c with
      | some tag => .ok tag
      | none => .error (.unknownTag c signature)

end TypeTag

namespace Signature

/-- Splits a class name from the rest at the first `;`, which belongs to neither. -/
def splitClassName : List Char → Option (List Char × List Char)
  | [] => none
  | c :: rest =>
      if c = ';' then some ([], rest)
      else (splitClassName rest).map fun p => (c :: p.1, p.2)

/-- The type that a single letter stands for. -/
def ofLetter? : Char → Option JavaType
  | 'Z' => some .boolean
  | 'B' => some .byte
  | 'C' => some .char
  | 'S' => some .short
  | 'I' => some .int
  | 'J' => some .long
  | 'F' => some .float
  | 'D' => some .double
  | 'V' => some .void
  | _ => none

/-- Takes one type off the front of the input.  `whole` is the text that an error is about. -/
def takeType (whole : String) : List Char → Except SignatureError (JavaType × List Char)
  | [] => .error (.malformed whole)
  | c :: rest =>
      match ofLetter? c with
      | some t => .ok (t, rest)
      | none =>
          if c = 'L' then
            match splitClassName rest with
            | none => .error (.malformed whole)
            | some (name, after) =>
                if name = [] then .error (.malformed whole)
                else .ok (.object (String.ofList name), after)
          else if c = '[' then
            match takeType whole rest with
            | .error e => .error e
            | .ok (component, after) =>
                if component = .void then .error (.malformed whole)
                else .ok (.array component, after)
          else .error (.unknownTag c (String.ofList (c :: rest)))

theorem length_of_splitClassName {input name after : List Char}
    (h : splitClassName input = some (name, after)) :
    input.length = name.length + after.length + 1 := by
  induction input generalizing name with
  | nil => simp [splitClassName] at h
  | cons c rest ih =>
      rw [splitClassName] at h
      split at h
      · simp only [Option.some.injEq, Prod.mk.injEq] at h
        simp [← h.1, ← h.2]
      · obtain ⟨p, hp, hpair⟩ := Option.map_eq_some_iff.mp h
        simp only [Prod.mk.injEq] at hpair
        have hrest : splitClassName rest = some (p.1, after) := by rw [hp, ← hpair.2]
        have hlength := ih hrest
        simp only [← hpair.1, List.length_cons]
        omega

/-- A reader always consumes something, so the rest is shorter than the input. -/
theorem length_lt_of_takeType {whole : String} {input rest : List Char} {t : JavaType}
    (h : takeType whole input = .ok (t, rest)) : rest.length < input.length := by
  induction input generalizing t rest with
  | nil => simp [takeType] at h
  | cons c input ih =>
      rw [takeType] at h
      repeat' split at h
      all_goals simp only [Except.ok.injEq, Prod.mk.injEq, reduceCtorEq] at h
      · simp [← h.2]
      · rename_i hsplit _
        have := length_of_splitClassName hsplit
        simp only [← h.2, List.length_cons]
        omega
      · rename_i hcomponent _
        have := ih hcomponent
        simp only [← h.2, List.length_cons]
        omega

/-- The parameter list of a method signature, up to and including the closing parenthesis. -/
def takeParameters (whole : String) (input : List Char) :
    Except SignatureError (List JavaType × List Char) :=
  match input with
  | ')' :: rest => .ok ([], rest)
  | input =>
      match h : takeType whole input with
      | .error e => .error e
      | .ok (t, rest) =>
          if t = .void then .error (.malformed whole)
          else
            have : rest.length < input.length := length_lt_of_takeType h
            match takeParameters whole rest with
            | .error e => .error e
            | .ok (parameters, after) => .ok (t :: parameters, after)
  termination_by input.length

/-- Signature of an array's component type. -/
def componentSignature (arraySignature : String) : Except SignatureError String :=
  match arraySignature.toList with
  | '[' :: c :: rest => .ok (String.ofList (c :: rest))
  | _ => .error (.malformed arraySignature)

/-- The dotted name of a class signature.  Signatures of other types are names already. -/
def className (signature : String) : String :=
  match signature.toList with
  | 'L' :: rest =>
      if rest.getLast? = some ';' then
        String.ofList (rest.dropLast.map fun c => if c = '/' then '.' else c)
      else signature
  | _ => signature

end Signature

/-- Reads a signature that is a single type. -/
def JavaType.parse (signature : String) : Except SignatureError JavaType :=
  match Signature.takeType signature signature.toList with
  | .error e => .error e
  | .ok (t, []) => .ok t
  | .ok (_, _ :: _) => .error (.malformed signature)

/-- Reads the signature of a method: its parameters in parentheses, then its return type. -/
def MethodType.parse (signature : String) : Except SignatureError MethodType :=
  match signature.toList with
  | '(' :: input =>
      match Signature.takeParameters signature input with
      | .error e => .error e
      | .ok (parameters, rest) =>
          match JavaType.parse (String.ofList rest) with
          | .error _ => .error (.malformed signature)
          | .ok returnType => .ok ⟨parameters, returnType⟩
  | _ => .error (.malformed signature)

end DebugAgent
