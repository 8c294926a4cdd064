import DebugAgent.Record.Basic
import DebugAgent.Tracking

/-!
# Commands on the machine as a whole
-/

namespace DebugAgent

namespace Command.Machine

open Tracking

/-- The agent introduces itself as configured; the machine is asked for its own name and version. -/
def version : Command VmVersion := do
  let config ← Action.look Agent.config
  let vmVersion ← ask fun vm => vm.systemProperty "java.version"
  let vmName ← ask fun vm => vm.systemProperty "java.vm.name"
  return {
    description := config.description, major := config.major, minor := config.minor
    vmVersion, vmName }

/-- The record of a loaded class, unless its signature is not wanted. -/
def classRecord? (wanted : String → Bool) (cls : Handle) : Command (Option ReferenceType) := do
  let (signature, genericSignature) ← ask fun vm => vm.classSignature cls
  if wanted signature then
    let typeId ← trackClass cls
    let status ← ask fun vm => vm.classStatus cls
    return some { typeId, signature, genericSignature, status := .ofState status }
  else return none

/-- The loaded classes whose signatures are wanted, oldest first.  Only these are tracked. -/
def classesWhere (wanted : String → Bool) : Command (List ReferenceType) := do
  let classes ← call Vm.loadedClasses
  withLocals classes do
    return (← classes.mapM (classRecord? wanted)).filterMap id

def allClasses : Command (List ReferenceType) := classesWhere fun _ => true

def classesBySignature (signature : String) : Command (List ReferenceType) :=
  classesWhere fun s => s = signature

/-- The live threads, oldest first. -/
def allThreads : Command (List ObjectId) := do
  let threads ← call Vm.allThreads
  withLocals threads (threads.mapM trackNew)

def topLevelThreadGroups : Command (List ObjectId) := do
  let groups ← call Vm.topThreadGroups
  withLocals groups (groups.mapM trackNew)

/-- Gives identifiers back.  Identifiers that are not in use are skipped. -/
def disposeObjects (requests : List DisposeRequest) : Command Unit :=
  requests.forM fun request => do
    let _ ← (dispose request.objectId request.count : Command Unit).attempt

end Command.Machine

end DebugAgent
