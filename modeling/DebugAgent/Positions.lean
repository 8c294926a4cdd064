import DebugAgent.Tracking

/-!
# Positions in code

The machine gives a position as a method and a code index.  The protocol adds the class that
declares the method, with its kind and identifier, and counts indexes from zero.
-/

namespace DebugAgent

open Command

namespace Positions

variable {α : Type}

/-- Runs a command on the class that declares a method. -/
def withDeclaringClass (method : MethodId) (x : Handle → Command α) : Command α := do
  let cls ← call (Vm.methodDeclaringClass method)
  withLocal cls do
    requireRef cls .invalidMethodId
    x cls

/-- The position of a code index of a method whose declaring class is at hand. -/
def locationIn (cls : Handle) (method : MethodId) (index : CodeIndex) : Command Location := do
  let type ← Tracking.trackClass cls
  return { kind := type.kind, classId := type.typeId, methodId := method, index := index.toNat }

/-- The position of a code index of a method. -/
def locate (method : MethodId) (index : CodeIndex) : Command Location :=
  withDeclaringClass method fun cls => locationIn cls method index

end Positions

namespace Vm

/-- Of two entries of a line table the one that starts later; the second if both start together. -/
def laterLine (best : Option LineNumber) (entry : LineNumber) : Option LineNumber :=
  match best with
  | none => some entry
  | some b => if b.start ≤ entry.start then some entry else some b

/-- The source line of a position: that of the last entry that starts nowhere past it. -/
def lineAt (vm : Vm) (method : MethodId) (index : CodeIndex) : Option Int :=
  match vm.lineNumberTable method with
  | .error _ => none
  | .ok lines =>
      ((lines.filter fun entry => entry.start ≤ index).foldl laterLine none).map LineNumber.line

end Vm

end DebugAgent
