import DebugAgent.Reading

/-!
# Commands on frames
-/

namespace DebugAgent

namespace Command.Frame

open Tracking

/-- The depth that a frame identifier stands for.  The machine counts frames with 31 bits. -/
def depthOf (frame : FrameId) : Except ProtocolError Int :=
  if frame < 0x80000000 then .ok frame else .error .invalidFrameId

/-- The variable is in the slot, and lives at the code index. -/
def isLive (slot : Int) (index : CodeIndex) (entry : LocalVariable) : Bool :=
  entry.slot = slot ∧ entry.start ≤ index ∧ index < entry.start + entry.length

/-- The value of a slot, read as the first variable declares it that lives there. -/
def value (thread : Handle) (depth : Int) (index : CodeIndex) (entries : List LocalVariable)
    (slot : Int) : Command Value := do
  let entry ← Action.require .invalidSlot (entries.find? (isLive slot index))
  Reading.readLocal thread depth slot entry.signature

/-- The values of slots of a frame, in the order asked for. -/
def values (thread : ObjectId) (frame : FrameId) (slots : List Int) : Command (List Value) :=
  withThread thread fun thread => do
    let depth ← Action.ofExcept (depthOf frame)
    let (method, index) ← ask fun vm => vm.frameLocation thread depth
    let entries ← ask fun vm => vm.localVariableTable method
    slots.mapM (value thread depth index entries)

/-- The receiver of a frame's method; static methods have none. -/
def thisObject (thread : ObjectId) (frame : FrameId) : Command (Option TaggedObjectId) :=
  withThread thread fun thread => do
    let depth ← Action.ofExcept (depthOf frame)
    let (method, _) ← ask fun vm => vm.frameLocation thread depth
    let modifiers ← ask fun vm => vm.methodModifiers method
    if hasAny modifiers Access.isStatic then return none
    match ← call (Vm.getLocal thread depth 0 .object) with
    | .object h => withLocal h do return some (← trackObject h .object)
    | .primitive _ => Action.refuse .typeMismatch

end Command.Frame

end DebugAgent
