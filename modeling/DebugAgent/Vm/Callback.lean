import DebugAgent.Vm.Jvmti

/-!
# Callbacks

Something happens in the machine; if notification of it is enabled, the machine calls the agent
back. For the time of the call the objects concerned are known to the agent by local references, and
the thread in which it happened may be asked for its local variables although it is not suspended.
-/

namespace DebugAgent

/-- Something that happened, with the objects concerned given as `ρ`. -/
inductive Callback (ρ : Type) where
  | vmDeath
  | threadStart (thread : ρ)
  | threadEnd (thread : ρ)
  | classPrepare (thread cls : ρ)
  | breakpoint (thread : ρ) (method : MethodId) (location : CodeIndex)
  | singleStep (thread : ρ) (method : MethodId) (location : CodeIndex)
  /-- The handler is there if the exception is going to be caught. -/
  | exception (thread : ρ) (method : MethodId) (location : CodeIndex) (thrown : ρ)
      (handler : Option (MethodId × CodeIndex))
  | methodEntry (thread : ρ) (method : MethodId)
  | methodExit (thread : ρ) (method : MethodId) (location : CodeIndex)
  deriving DecidableEq, Repr

namespace Callback

variable {ρ : Type}

def kind : Callback ρ → CallbackKind
  | .vmDeath => .vmDeath
  | .threadStart _ => .threadStart
  | .threadEnd _ => .threadEnd
  | .classPrepare _ _ => .classPrepare
  | .breakpoint _ _ _ => .breakpoint
  | .singleStep _ _ _ => .singleStep
  | .exception _ _ _ _ _ => .exception
  | .methodEntry _ _ => .methodEntry
  | .methodExit _ _ _ => .methodExit

/-- The thread in which it happened. -/
def thread? : Callback ρ → Option ρ
  | .vmDeath => none
  | .threadStart thread | .threadEnd thread | .classPrepare thread _ | .breakpoint thread _ _
  | .singleStep thread _ _ | .exception thread _ _ _ _ | .methodEntry thread _
  | .methodExit thread _ _ => some thread

/-- The object concerned beside the thread: a prepared class or a thrown exception. -/
def other? : Callback ρ → Option ρ
  | .classPrepare _ cls => some cls
  | .exception _ _ _ thrown _ => some thrown
  | _ => none

/-- The same happening with the objects concerned given in another way. -/
def withObjects {σ : Type} (thread other : σ) : Callback ρ → Callback σ
  | .vmDeath => .vmDeath
  | .threadStart _ => .threadStart thread
  | .threadEnd _ => .threadEnd thread
  | .classPrepare _ _ => .classPrepare thread other
  | .breakpoint _ method location => .breakpoint thread method location
  | .singleStep _ method location => .singleStep thread method location
  | .exception _ method location _ handler => .exception thread method location other handler
  | .methodEntry _ method => .methodEntry thread method
  | .methodExit _ method location => .methodExit thread method location

end Callback

namespace Vm

/-- The machine calls the agent back: notification is enabled for all threads or for this one, and a
breakpoint is really set where one is reported. -/
def delivers (vm : Vm) (c : Callback HeapId) : Bool :=
  let enabled :=
    vm.isEnabled c.kind none || c.thread?.any fun thread => vm.isEnabled c.kind (some thread)
  match c with
  | .breakpoint _ method location => enabled && vm.isBreakpoint method location
  | _ => enabled

/-- A local reference for each object concerned; null where there is none. -/
def optionalLocal : Option HeapId → Vm → Handle × Vm
  | none, vm => (.null, vm)
  | some id, vm => vm.newLocal id

/-- Starts a callback: the references that it carries are made and its thread is marked. -/
def enterCallback (c : Callback HeapId) (vm : Vm) : Callback Handle × Vm :=
  let (thread, vm) := optionalLocal c.thread? vm
  let (other, vm) := optionalLocal c.other? vm
  let vm :=
    match c.thread? with
    | some id => { vm with inCallback := id :: vm.inCallback.filter fun t => t ≠ id }
    | none => vm
  (c.withObjects thread other, vm)

/-- Ends a callback: its thread is unmarked and the references that it carried are gone. -/
def leaveCallback (c : Callback HeapId) (carried : Callback Handle) (vm : Vm) : Vm :=
  let vm :=
    match c.thread? with
    | some id => { vm with inCallback := vm.inCallback.filter fun t => t ≠ id }
    | none => vm
  let free (vm : Vm) : Option Handle → Vm
    | some h => { vm with refs := vm.refs.erase h.raw }
    | none => vm
  free (free vm carried.thread?) carried.other?

end Vm

end DebugAgent
