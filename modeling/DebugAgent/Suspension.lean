import DebugAgent.Tracking

/-!
# Stopping threads

All threads stop but the one that asks: it would never come back from its own suspension.  Threads
that cannot be stopped, because they have stopped already or ended in the meantime, do not keep the
others running.
-/

namespace DebugAgent

open Command

namespace Suspension

/-- The threads among some that are not the current one; all if there is no current one. -/
def others (vm : Vm) (current : Handle) (threads : List Handle) : List Handle :=
  threads.filter fun thread => current.isNull || !vm.isSameObject thread current

/-- Suspends all live threads but the calling one. -/
def suspendAll (caller : NativeThread) : Command Unit := do
  let current :=
    match ← tryCall (Vm.currentThread caller) with
    | .ok h => h
    | .error _ => .null
  withLocal current do
    let threads ← call Vm.allThreads
    withLocals threads do
      let targets ← see fun vm => others vm current threads
      let _ ← call (Vm.suspendThreads caller targets)

/-- Resumes all live threads. -/
def resumeAll : Command Unit := do
  let threads ← call Vm.allThreads
  withLocals threads do
    let _ ← call (Vm.resumeThreads threads)

def suspend (caller : NativeThread) (thread : ObjectId) : Command Unit :=
  Tracking.withThread thread fun h => call (Vm.suspendThread caller h)

def resume (thread : ObjectId) : Command Unit :=
  Tracking.withThread thread fun h => call (Vm.resumeThread h)

end Suspension

end DebugAgent
