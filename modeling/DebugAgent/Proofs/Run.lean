import DebugAgent.Service
import DebugAgent.Vm.Builder

/-!
# Runs

What can happen to an agent and its machine, one thing after another: the world it debugs is set up
or goes on, a client issues commands, the machine calls back, the client opens, reads and closes its
session.  A run is a list of such operations; everything is allowed in any order and with any
arguments, and an operation that fails leaves behind whatever it had done before.

The one thing left out is a debugger that goes behind the agent's back and uses the tool interface
of the machine itself.
-/

namespace DebugAgent

/-- A step of the debugged world, with its arguments. -/
inductive Vm.Setup where
  | defineClass (signature : String)
  | defineSubclass (signature : String) (superclass : HeapId)
  | defineInterface (signature : String)
  | addInterface (cls interface : HeapId)
  | setClassStatus (cls : HeapId) (status : Int32)
  | setClassModifiers (cls : HeapId) (modifiers : Int32)
  | setSourceFile (cls : HeapId) (file : String)
  | setGenericSignature (cls : HeapId) (generic : String)
  | addStaticField (cls : HeapId) (name signature : String) (value : Stored)
  | addInstanceField (cls : HeapId) (name signature : String)
  | addMethod (cls : HeapId) (spec : MethodSpec)
  | newObject (cls : HeapId)
  | setField (object : HeapId) (field : FieldId) (value : Stored)
  | newArray (signature : String) (elements : List Stored)
  | newString (value : String)
  | spawnThread (name : String)
  | failSuspend (thread : HeapId) (failure : JvmtiError)
  | setThreadState (thread : HeapId) (state : Int32)
  | terminateThread (thread : HeapId)
  | pushFrame (thread : HeapId) (method : MethodId) (location : CodeIndex)
  | popFrame (thread : HeapId)
  | setTopLocation (thread : HeapId) (location : CodeIndex)
  | setLocal (thread : HeapId) (depth : Nat) (slot : Int) (value : Stored)
  | setAttachFails (fails : Bool)
  | setProperty (key value : String)
  | poisonField (field : FieldId)
  /-- Native code outside the agent takes a local reference of its own. -/
  | takeRef (object : HeapId)

/-- The machine after it has been changed, whether the change broke halfway or not. -/
def Vm.after {α : Type} (vm : Vm) (x : Build α) : Vm := (x.perform vm).2

namespace Vm.Setup

/-- The machine after a step. -/
def apply (vm : Vm) : Setup → Vm
  | .defineClass signature => vm.after (Vm.defineClass signature)
  | .defineSubclass signature superclass => vm.after (Vm.defineSubclass signature superclass)
  | .defineInterface signature => vm.after (Vm.defineInterface signature)
  | .addInterface cls interface => vm.after (Vm.addInterface cls interface)
  | .setClassStatus cls status => vm.after (Vm.setClassStatus cls status)
  | .setClassModifiers cls modifiers => vm.after (Vm.setClassModifiers cls modifiers)
  | .setSourceFile cls file => vm.after (Vm.setSourceFile cls file)
  | .setGenericSignature cls generic => vm.after (Vm.setGenericSignature cls generic)
  | .addStaticField cls name signature value =>
      vm.after (Vm.addStaticField cls name signature value)
  | .addInstanceField cls name signature => vm.after (Vm.addInstanceField cls name signature)
  | .addMethod cls spec => vm.after (Vm.addMethod cls spec)
  | .newObject cls => vm.after (Vm.newObject cls)
  | .setField object field value => vm.after (Vm.setField object field value)
  | .newArray signature elements => vm.after (Vm.newArray signature elements)
  | .newString value => vm.after (Vm.newString value)
  | .spawnThread name => vm.after (Vm.spawnThread name)
  | .failSuspend thread failure => vm.after (Vm.failSuspend thread failure)
  | .setThreadState thread state => vm.after (Vm.setThreadState thread state)
  | .terminateThread thread => vm.after (Vm.terminateThread thread)
  | .pushFrame thread method location => vm.after (Vm.pushFrame thread method location)
  | .popFrame thread => vm.after (Vm.popFrame thread)
  | .setTopLocation thread location => vm.after (Vm.setTopLocation thread location)
  | .setLocal thread depth slot value => vm.after (Vm.setLocal thread depth slot value)
  | .setAttachFails fails => vm.after (Vm.setAttachFails fails)
  | .setProperty key value => vm.after (Vm.setProperty key value)
  | .poisonField field => vm.after (Vm.poisonField field)
  | .takeRef object => (vm.newLocal object).2

end Vm.Setup

/-- A machine that has been set up from scratch. -/
def Vm.built (steps : List Vm.Setup) : Vm := steps.foldl Vm.Setup.apply fresh

/-- Something that happens to an agent and its machine. -/
inductive Op where
  | setup (step : Vm.Setup)
  | command (caller : NativeThread) (command : ClientCommand)
  | attach (caller : NativeThread) (canDeliver : Bool)
  | closeSession
  | drain
  /-- Something happens in the machine, which calls the agent back if it is to. -/
  | deliver (caller : NativeThread) (c : Callback HeapId)
  /-- The agent is called back with references that the caller brought along. -/
  | callback (caller : NativeThread) (c : Callback Handle)
  | trackNew (caller : NativeThread) (h : Handle)
  | trackObject (caller : NativeThread) (h : Handle) (declared : TypeTag)
  | trackClass (caller : NativeThread) (h : Handle)
  | release (caller : NativeThread) (id : ObjectId)
  | dispose (caller : NativeThread) (id : ObjectId) (count : Nat)

namespace Agent

/-- The agent after an operation. -/
def apply (a : Agent) : Op → Agent
  | .setup step => a.setVm (step.apply a.vm)
  | .command caller command => (Agent.serve caller command a).2
  | .attach caller canDeliver => (Agent.attach caller canDeliver a).2
  | .closeSession => a.closeSession
  | .drain => a.drain.2
  | .deliver caller c => (Agent.deliver caller c a).2
  | .callback caller c => Agent.onCallback caller c a
  | .trackNew caller h => (Command.answer caller (Tracking.trackNew h) a).2
  | .trackObject caller h declared => (Command.answer caller (Tracking.trackObject h declared) a).2
  | .trackClass caller h => (Command.answer caller (Tracking.trackClass h) a).2
  | .release caller id => (Command.answer caller (Tracking.release id) a).2
  | .dispose caller id count => (Command.answer caller (Tracking.dispose id count) a).2

/-- The agent after operations, one after another. -/
def run (a : Agent) (ops : List Op) : Agent := ops.foldl apply a

/-- An agent that has been started on a machine of its own and has run since.  The machine was set
up before. -/
def reached (steps : List Vm.Setup) (config : Config) (ops : List Op) : Agent :=
  (start (Vm.built steps) config).run ops

/-! ### Runs in pieces -/

@[simp] theorem run_nil (a : Agent) : a.run [] = a := rfl

@[simp] theorem run_cons (a : Agent) (op : Op) (ops : List Op) :
    a.run (op :: ops) = (a.apply op).run ops := rfl

@[simp] theorem run_append (a : Agent) (ops later : List Op) :
    a.run (ops ++ later) = (a.run ops).run later := by
  simp [run]

end Agent

end DebugAgent
