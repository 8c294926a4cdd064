import DebugAgent.Vm.Basic

/-!
# Building the simulated machine

The world that an agent debugs is set up step by step: classes and their members, objects, threads
with the frames of their stacks, failures to inject.  A step that treats an object as something it
is not breaks; it never gets refused.
-/

namespace DebugAgent

/-- A step that sets up the machine. -/
abbrev Build (α : Type) := Action Vm Empty α

namespace Vm

/-! ### Classes -/

/-- Puts a class on the heap.  It is ready for use. -/
def addClass (signature : String) (superclass : Option HeapId) (isInterface isArray : Bool)
    (vm : Vm) : HeapId × Vm :=
  vm.allocate classClass
    (.classObject
      { signature, superclass, isInterface, isArray
        status := if isArray then ClassState.ready ||| ClassState.array else ClassState.ready
        modifiers :=
          if isInterface then Access.isPublic ||| Access.isInterface ||| Access.isAbstract
          else Access.isPublic })

/-- A machine without heap. -/
def empty : Vm :=
  { heap := #[]
    properties := ⟨[("java.version", "17.0.2"), ("java.vm.name", "Simulated VM")], by decide⟩ }

/-- A machine that holds the built-in objects and nothing else. -/
def fresh : Vm :=
  let vm := (empty.addClass "Ljava/lang/Object;" none false false).2
  let vm := (vm.addClass "Ljava/lang/Class;" (some objectClass) false false).2
  let vm := (vm.addClass "Ljava/lang/String;" (some objectClass) false false).2
  let vm := (vm.addClass "Ljava/lang/Thread;" (some objectClass) false false).2
  let vm := (vm.addClass "Ljava/lang/ThreadGroup;" (some objectClass) false false).2
  let vm := (vm.addClass "Ljava/lang/ClassLoader;" (some objectClass) false false).2
  let vm := (vm.allocate groupClass (.group "system")).2
  let vm := (vm.allocate groupClass (.group "main")).2
  (vm.allocate loaderClass (.fields {})).2

def defineClass (signature : String) : Build HeapId :=
  .update fun vm => vm.addClass signature (some objectClass) false false

def defineSubclass (signature : String) (superclass : HeapId) : Build HeapId :=
  .update fun vm => vm.addClass signature (some superclass) false false

def defineInterface (signature : String) : Build HeapId :=
  .update fun vm => vm.addClass signature (some objectClass) true false

/-- Changes a class. -/
def changeClass (id : HeapId) (f : ClassBody → ClassBody) : Build Unit := do
  let body ← Action.expect (← Action.look fun vm => vm.classAt? id)
  Action.change (setBody id (.classObject (f body)))

def addInterface (cls interface : HeapId) : Build Unit :=
  changeClass cls fun body => { body with interfaces := body.interfaces ++ [interface] }

def setClassStatus (cls : HeapId) (status : Int32) : Build Unit :=
  changeClass cls fun body => { body with status }

def setClassModifiers (cls : HeapId) (modifiers : Int32) : Build Unit :=
  changeClass cls fun body => { body with modifiers }

def setSourceFile (cls : HeapId) (file : String) : Build Unit :=
  changeClass cls fun body => { body with sourceFile := some file }

def setGenericSignature (cls : HeapId) (generic : String) : Build Unit :=
  changeClass cls fun body => { body with genericSignature := some generic }

/-- Declares a field.  Its number is taken even if the declaring object is no class. -/
def addField (decl : FieldDecl) : Build FieldId := do
  let id ← Action.update fun vm =>
    (vm.nextField,
      { vm with fields := vm.fields.insert vm.nextField decl, nextField := vm.nextField + 1 })
  changeClass decl.cls fun body => { body with fields := body.fields ++ [id] }
  return id

def addStaticField (cls : HeapId) (name signature : String) (value : Stored) : Build FieldId :=
  addField { cls, name, signature, value, modifiers := Access.isPublic ||| Access.isStatic }

def addInstanceField (cls : HeapId) (name signature : String) : Build FieldId :=
  addField { cls, name, signature, value := .reference none, modifiers := Access.isPrivate }

/-- Declares a method.  Its number is taken even if the declaring object is no class. -/
def addMethod (cls : HeapId) (spec : MethodSpec) : Build MethodId := do
  let id ← Action.update fun vm =>
    (vm.nextMethod,
      { vm with
        methods := vm.methods.insert vm.nextMethod ⟨cls, spec⟩, nextMethod := vm.nextMethod + 8 })
  changeClass cls fun body => { body with methods := body.methods ++ [id] }
  return id

/-! ### Objects -/

def newObject (cls : HeapId) : Build HeapId :=
  .update (allocate cls (.fields {}))

/-- Sets a field of an object that has fields; other objects stay as they are. -/
def setField (object : HeapId) (field : FieldId) (value : Stored) : Build Unit := do
  let target ← Action.expect (← Action.look fun vm => vm.heap[object]?)
  match target.body with
  | .fields values => Action.change (setBody object (.fields (values.insert field value)))
  | _ => return

/-- The class of arrays with the given signature, if there is one already. -/
def arrayClass? (vm : Vm) (signature : String) : Option HeapId :=
  vm.heap.findIdx? fun object =>
    match object.body with
    | .classObject body => body.isArray && body.signature = signature
    | _ => false

/-- An array.  Its class is made when it is first needed. -/
def newArray (signature : String) (elements : List Stored) : Build HeapId := do
  let cls ←
    match ← Action.look fun vm => vm.arrayClass? signature with
    | some id => pure id
    | none => Action.update fun vm => vm.addClass signature (some objectClass) false true
  Action.update (allocate cls (.array elements))

def newString (value : String) : Build HeapId :=
  .update (allocate stringClass (.text value))

/-! ### Threads -/

/-- Starts a thread. -/
def spawnThread (name : String) : Build HeapId :=
  .update (allocate threadClass
    (.thread { name, state := ThreadState.started, daemon := false, group := mainGroup }))

/-- Changes a thread. -/
def changeThread (id : HeapId) (f : ThreadBody → ThreadBody) : Build Unit := do
  let body ← Action.expect (← Action.look fun vm => vm.threadAt? id)
  Action.change (setBody id (.thread (f body)))

def failSuspend (thread : HeapId) (failure : JvmtiError) : Build Unit :=
  changeThread thread fun body => { body with suspendFailure := some failure }

def setThreadState (thread : HeapId) (state : Int32) : Build Unit :=
  changeThread thread fun body => { body with state }

/-- The state of a thread; objects that are no threads have none of its bits. -/
def threadState (vm : Vm) (thread : HeapId) : Int32 :=
  match vm.threadAt? thread with
  | some body => body.state
  | none => 0

def isSuspended (vm : Vm) (thread : HeapId) : Bool :=
  hasAny (vm.threadState thread) ThreadState.suspended

/-- Ends a thread; its frames are gone. -/
def terminateThread (thread : HeapId) : Build Unit :=
  changeThread thread fun body => { body with state := ThreadState.terminated, frames := [] }

/-- Calls a method: a new topmost frame. -/
def pushFrame (thread : HeapId) (method : MethodId) (location : CodeIndex) : Build Unit :=
  changeThread thread fun body => { body with frames := { method, location } :: body.frames }

/-- Returns from the topmost frame, if there is one. -/
def popFrame (thread : HeapId) : Build Unit :=
  changeThread thread fun body => { body with frames := body.frames.tail }

/-- Moves the topmost frame, if there is one. -/
def setTopLocation (thread : HeapId) (location : CodeIndex) : Build Unit :=
  changeThread thread fun body =>
    { body with frames := body.frames.modify 0 fun frame => { frame with location } }

/-- Sets a local variable of the frame at a depth, if there is one. -/
def setLocal (thread : HeapId) (depth : Nat) (slot : Int) (value : Stored) : Build Unit :=
  changeThread thread fun body =>
    { body with
      frames := body.frames.modify depth fun frame =>
        { frame with locals := frame.locals.insert slot value } }

/-! ### The machine as a whole -/

def setAttachFails (fails : Bool) : Build Unit :=
  .change fun vm => { vm with attachFails := fails }

def setProperty (key value : String) : Build Unit :=
  .change fun vm => { vm with properties := vm.properties.insert key value }

/-- Makes every read of a field raise an exception; unknown fields are ignored. -/
def poisonField (field : FieldId) : Build Unit :=
  .change fun vm =>
    match vm.fields.get? field with
    | some decl => { vm with fields := vm.fields.insert field { decl with poisoned := true } }
    | none => vm

end Vm

end DebugAgent
