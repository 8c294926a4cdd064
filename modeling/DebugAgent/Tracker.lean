import DebugAgent.Table
import DebugAgent.Vm.Basic

/-!
# The table of identifiers

Each object that the client knows by an identifier is kept alive by one global reference.  The entry
counts how often the identifier has been handed out, so that the client can give it back piece by
piece. Identifiers are handed out in increasing order and never twice.
-/

namespace DebugAgent

/-- What an identifier stands for and how often it has been handed out.  The count has no bound
here: the overflow of a counter of fixed width is out of range. -/
structure Tracked where
  global : Handle
  references : Nat
  deriving DecidableEq, Repr

/-- The identifiers in use and the next one to be handed out.  Identifiers have no bound here: the
overflow of a counter of fixed width is out of range. -/
structure Tracker where
  nextId : ObjectId := 1
  entries : Table ObjectId Tracked := {}
  deriving Repr

namespace Tracker

/-- Number of identifiers in use. -/
def size (t : Tracker) : Nat := t.entries.size

/-- The global reference behind an identifier. -/
def global? (t : Tracker) (id : ObjectId) : Option Handle :=
  (t.entries.get? id).map Tracked.global

/-- The object that an identifier designates in a machine. -/
def target? (t : Tracker) (vm : Vm) (id : ObjectId) : Option HeapId :=
  (t.global? id).bind vm.target?

/-- Sets how often an identifier in use has been handed out. -/
def setReferences (t : Tracker) (id : ObjectId) (entry : Tracked) (references : Nat) : Tracker :=
  { t with entries := t.entries.insert id { entry with references } }

/-- Forgets an identifier. -/
def remove (t : Tracker) (id : ObjectId) : Tracker := { t with entries := t.entries.erase id }

/-- Hands out the next identifier. -/
def add (t : Tracker) (global : Handle) : Tracker :=
  { nextId := t.nextId + 1, entries := t.entries.insert t.nextId ⟨global, 1⟩ }

end Tracker

/-- The tag that the class of an object gives its values. -/
def TypeTag.ofClass (classSignature : String) : TypeTag :=
  match classSignature with
  | "Ljava/lang/String;" => .string
  | "Ljava/lang/Thread;" => .thread
  | "Ljava/lang/ThreadGroup;" => .threadGroup
  | "Ljava/lang/Class;" => .classObject
  | "Ljava/lang/ClassLoader;" => .classLoader
  | _ => if classSignature.toList.head? = some '[' then .array else .object

end DebugAgent
