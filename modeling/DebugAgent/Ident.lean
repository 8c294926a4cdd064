/-!
# Identifiers

What a client of the debug protocol holds instead of references into the machine.  Object
identifiers are handed out by the agent; field and method identifiers are the machine's own numbers.
-/

namespace DebugAgent

/-- Names an object of the machine.  Threads, classes, strings and arrays are objects; 0 is the null
object. -/
abbrev ObjectId := Nat

abbrev FieldId := Nat

abbrev MethodId := Nat

/-- Depth of a frame on its stack, 0 for the topmost. -/
abbrev FrameId := Nat

/-- Names an event request.  Registered requests have positive identifiers. -/
abbrev RequestId := Int

/-- Index of an instruction inside a method.  Native methods have the index -1. -/
abbrev CodeIndex := Int

end DebugAgent
