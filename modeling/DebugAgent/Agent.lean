import DebugAgent.Request.Basic
import DebugAgent.Tracker
import DebugAgent.Vm.Jni
import DebugAgent.Vm.Jvmti

/-!
# The agent

The agent serves one client on one machine.  Every command first attaches the native thread that
issues it; after that it works on the whole state, and whatever breaks inside of it is reported as
an internal error.

Local references live in brackets (`withLocal`, `withLocals`): they are deleted when the bracket is
left, with a result or without.
-/

namespace DebugAgent

/-- The client's end of the connection: whether it still listens, and the event sets that it has not
taken yet, the oldest one first.  The runtime on which sets are delivered is taken to live on while
the session is open, and the channel to the client to keep their order. -/
structure Session where
  listening : Bool := true
  sets : List EventSet := []
  deriving Repr

/-- The agent with the machine that it works on. -/
structure Agent where
  vm : Vm
  config : Config
  tracker : Tracker := {}
  requests : RequestTable := {}
  session : Option Session := none
  deriving Repr

/-- What a command does once its native thread is attached. -/
abbrev Command (α : Type) := Action Agent ProtocolError α

/-- What a command comes to. -/
abbrev Answer (α : Type) := Agent → Except ProtocolError α × Agent

namespace Agent

/-- An agent that has just been started on a machine, with the capabilities of its configuration. -/
def start (vm : Vm) (config : Config) : Agent :=
  { vm := vm.addCapabilities config.capabilities, config }

def setVm (a : Agent) (vm : Vm) : Agent := { a with vm }

end Agent

namespace Command

variable {α : Type}

/-! ### The machine seen from a command -/

/-- A call of the tool interface. -/
def call (x : Call α) : Command α :=
  (x.mapCause JvmtiError.toProtocol).within Agent.vm Agent.setVm

/-- A call of the tool interface whose failure is a result. -/
def tryCall (x : Call α) : Command (Except JvmtiError α) :=
  (x.attempt : Action Vm ProtocolError _).within Agent.vm Agent.setVm

/-- A call of the native interface that needs a sound state. -/
def native (x : Action Vm ProtocolError α) : Command α :=
  x.within Agent.vm Agent.setVm

/-- A query of the tool interface. -/
def ask (query : Vm → Except JvmtiError α) : Command α :=
  .inspect fun a => (query a.vm).mapError JvmtiError.toProtocol

/-- A query of the tool interface whose failure is a result. -/
def tryAsk (query : Vm → Except JvmtiError α) : Command (Except JvmtiError α) :=
  .look fun a => query a.vm

/-- Looks at the machine. -/
def see (f : Vm → α) : Command α := .look fun a => f a.vm

/-- A call of the native interface that cannot go wrong. -/
def touch (f : Vm → α × Vm) : Command α :=
  .update fun a => ((f a.vm).1, a.setVm (f a.vm).2)

/-- A change of the machine. -/
def adjust (f : Vm → Vm) : Command Unit :=
  .change fun a => a.setVm (f a.vm)

/-! ### Local references -/

/-- Gives up a local reference, if there is one. -/
def dropLocal (vm : Vm) (h : Handle) : Vm :=
  if h.isNull then vm else vm.deleteLocalRef h

/-- Runs a command that owns local references, and deletes them. -/
def withLocals (hs : List Handle) (x : Command α) : Command α :=
  x.ensuring fun a => a.setVm (hs.foldl dropLocal a.vm)

/-- Runs a command that owns a local reference, and deletes the reference. -/
def withLocal (h : Handle) (x : Command α) : Command α := withLocals [h] x

/-- Is refused if the reference is null. -/
def requireRef (h : Handle) (cause : ProtocolError) : Command Unit :=
  .guard (!h.isNull) cause

/-! ### The boundary of a command -/

/-- Attaches a native thread to the machine. -/
def attach (caller : NativeThread) : Command Unit := do
  Action.guard (!(← see Vm.attachFails)) .internal
  adjust fun vm => (vm.attach caller).2

/-- Runs a command for a native thread.  What breaks inside of it is an internal error. -/
def answer (caller : NativeThread) (x : Command α) : Answer α := fun a =>
  match (attach caller *> x).perform a with
  | (.ok result, a') => (.ok result, a')
  | (.error (.refused cause), a') => (.error cause, a')
  | (.error .broken, a') => (.error .internal, a')

end Command

end DebugAgent
