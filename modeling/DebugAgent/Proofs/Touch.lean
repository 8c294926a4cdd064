import DebugAgent.Proofs.Frame
import DebugAgent.Proofs.Makes

/-!
# What calls do to the machine

Most calls of the machine's interfaces only look at it.  They hand out local references and may raise
an exception; `Glance` lists what they change.  Four calls stop or resume threads, which changes the
state of these threads.  Whatever any of them does is a `Touch`: tags, breakpoints, notifications and
global references are left alone.
-/

namespace DebugAgent

open Relation (ReflTransGen)

/-- The thread once it is suspended. -/
def ThreadBody.halted (body : ThreadBody) : ThreadBody :=
  { body with state := body.state ||| ThreadState.suspended }

/-- The thread once it is resumed. -/
def ThreadBody.resumed (body : ThreadBody) : ThreadBody :=
  { body with state := body.state &&& ~~~ThreadState.suspended }

namespace Vm

/-- A change of the machine by looking at it. -/
inductive Glance (vm : Vm) : Vm → Prop where
  | openRef (object : HeapId) : Glance vm (vm.newLocal object).2
  | closeRef (h : Handle) : Glance vm (vm.deleteLocalRef h)
  | raise : Glance vm vm.raise
  | clearException : Glance vm vm.clearException
  | countFieldRead : Glance vm vm.countFieldRead

/-- A change of the machine by stopping a thread.  A native thread that asks for its own suspension
is counted. -/
inductive Halts (vm : Vm) : Vm → Prop where
  | own : Halts vm { vm with selfSuspensions := vm.selfSuspensions + 1 }
  | thread {id : HeapId} {body : ThreadBody} (h : vm.threadAt? id = some body) :
      Halts vm (vm.setBody id (.thread body.halted))

/-- A change of the machine by resuming a thread. -/
inductive Resumes (vm : Vm) : Vm → Prop where
  | thread {id : HeapId} {body : ThreadBody} (h : vm.threadAt? id = some body) :
      Resumes vm (vm.setBody id (.thread body.resumed))

/-- A change of the machine that the agent makes by looking at it, or the world behind its back. -/
inductive Touch (vm : Vm) : Vm → Prop where
  | frame {vm' : Vm} (h : vm.Frame vm') : Touch vm vm'
  | openRef (object : HeapId) : Touch vm (vm.newLocal object).2
  | closeRef (h : Handle) : Touch vm (vm.deleteLocalRef h)

theorem touch_of_heap_eq {vm vm' : Vm} (hheap : vm'.heap = vm.heap) (hrefs : vm'.refs = vm.refs)
    (hlast : vm'.lastRef = vm.lastRef) (hbreak : vm'.breakpoints = vm.breakpoints)
    (hnote : vm'.notifications = vm.notifications) (hcap : vm'.capabilities = vm.capabilities)
    (hmethods : vm'.methods = vm.methods) : Touch vm vm' :=
  .frame (.of_heap_eq hheap hrefs hlast hbreak hnote hcap fun h => hmethods ▸ h)

theorem Glance.touch {vm vm' : Vm} (h : vm.Glance vm') : vm.Touch vm' := by
  cases h with
  | openRef object => exact .openRef object
  | closeRef h => exact .closeRef h
  | raise | clearException | countFieldRead => exact touch_of_heap_eq rfl rfl rfl rfl rfl rfl rfl

theorem Halts.touch {vm vm' : Vm} (h : vm.Halts vm') : vm.Touch vm' := by
  cases h with
  | own => exact touch_of_heap_eq rfl rfl rfl rfl rfl rfl rfl
  | thread => exact .frame (frame_setThread _ _)

theorem Resumes.touch {vm vm' : Vm} (h : vm.Resumes vm') : vm.Touch vm' := by
  cases h with
  | thread => exact .frame (frame_setThread _ _)

open DebugAgent.Action

variable {ε : Type}

theorem glance_newLocals (ids : List HeapId) (vm : Vm) :
    ReflTransGen Glance vm (newLocals ids vm).2 := by
  induction ids generalizing vm with
  | nil => exact .refl
  | cons id ids ih => exact .head (.openRef id) (ih (vm.newLocal id).2)

theorem glance_giveOut (value : Stored) (vm : Vm) : ReflTransGen Glance vm (vm.giveOut value).2 := by
  cases value with
  | primitive v => exact .refl
  | reference target =>
      cases target with
      | none => exact .refl
      | some id => exact .single (.openRef id)

theorem glance_dropLocal (vm : Vm) (h : Handle) :
    ReflTransGen Glance vm (Command.dropLocal vm h) := by
  rw [Command.dropLocal]
  split
  · exact .refl
  · exact .single (.closeRef h)

theorem glance_dropLocals (hs : List Handle) (vm : Vm) :
    ReflTransGen Glance vm (hs.foldl Command.dropLocal vm) := by
  induction hs generalizing vm with
  | nil => exact .refl
  | cons h hs ih => exact (glance_dropLocal vm h).trans (ih (Command.dropLocal vm h))

theorem glance_newLocalRef (h : Handle) (vm : Vm) :
    ReflTransGen Glance vm (vm.newLocalRef h).2 := by
  rw [newLocalRef]
  split
  · exact .single (.openRef _)
  · exact .refl

theorem glance_superclassRef (cls : Handle) (vm : Vm) :
    ReflTransGen Glance vm (vm.superclassRef cls).2 := by
  rw [superclassRef]
  split
  · exact .single (.openRef _)
  · exact .refl

/-! ### Calls that look at objects -/

theorem makes_objectBehind (h : Handle) : (objectBehind h : Action Vm ε _).Makes Glance := by
  refine makes_bind (makes_look _) fun target => ?_
  cases target with
  | none => exact makes_pure none
  | some id =>
      exact makes_bind (makes_look _) fun object =>
        makes_bind (makes_expect object) fun object => makes_pure (some object)

theorem makes_objectClassRef (h : Handle) : (objectClassRef h : Action Vm ε _).Makes Glance := by
  refine makes_bind (makes_objectBehind h) fun object => ?_
  cases object with
  | none => exact makes_pure _
  | some object => exact makes_update fun vm => .single (.openRef object.cls)

theorem glance_staticField (cls : Handle) (field : FieldId) (kind : ValueKind) (vm : Vm) :
    ReflTransGen Glance vm (vm.staticField cls field kind).2 := by
  apply ReflTransGen.head .countFieldRead
  simp only [staticField]
  split
  · split
    · exact glance_giveOut _ _
    · exact .single .raise
  · exact .single .raise

/-- A read that fails raises an exception. -/
theorem makes_raise {α : Type} (a : α) : (do change raise; return a : Action Vm ε α).Makes Glance :=
  makes_bind (makes_change fun _ => .single .raise) fun _ => makes_pure a

theorem makes_instanceField (h : Handle) (field : FieldId) (kind : ValueKind) :
    (instanceField h field kind : Action Vm ε _).Makes Glance := by
  refine makes_bind (makes_change fun _ => .single .countFieldRead) fun _ => ?_
  refine makes_bind (makes_look _) fun decl => ?_
  refine makes_bind (makes_objectBehind h) fun object => ?_
  split
  · exact makes_ite (makes_raise _) (makes_update (glance_giveOut _))
  · exact makes_raise _

theorem makes_elementsBehind (h : Handle) : (elementsBehind h : Action Vm ε _).Makes Glance := by
  refine makes_bind (makes_objectBehind h) fun object => ?_
  split
  · exact makes_pure _
  · exact makes_pure _

theorem makes_arrayLength (array : Handle) : (arrayLength array : Action Vm ε _).Makes Glance := by
  refine makes_bind (makes_elementsBehind array) fun elements => ?_
  cases elements with
  | none => exact makes_pure _
  | some elements => exact makes_pure _

theorem makes_arrayRegion (array : Handle) (kind : ValueKind) (start length : Int) :
    (arrayRegion array kind start length : Action Vm ε _).Makes Glance := by
  refine makes_bind (makes_elementsBehind array) fun elements => ?_
  cases elements with
  | none => exact makes_raise _
  | some elements => exact makes_ite (makes_pure _) (makes_raise _)

theorem makes_arrayElement (array : Handle) (index : Int) :
    (arrayElement array index : Action Vm ε _).Makes Glance := by
  refine makes_bind (makes_elementsBehind array) fun elements => ?_
  dsimp only
  split
  · exact makes_update fun vm => .single (.openRef _)
  · exact makes_pure _
  · exact makes_raise _

theorem makes_stringChars (h : Handle) : (stringChars h : Action Vm ε _).Makes Glance := by
  refine makes_bind (makes_objectBehind h) fun object => ?_
  split
  · exact makes_pure _
  · exact makes_pure _

/-! ### Calls that hand out references -/

theorem makes_loadedClasses : loadedClasses.Makes Glance :=
  makes_update fun vm => glance_newLocals vm.classIds vm

theorem makes_implementedInterfaces (cls : Handle) : (implementedInterfaces cls).Makes Glance :=
  makes_bind (makes_inspect _) fun body => makes_update (glance_newLocals body.interfaces)

theorem makes_methodDeclaringClass (method : MethodId) :
    (methodDeclaringClass method).Makes Glance :=
  makes_bind (makes_inspect _) fun decl => makes_update fun _ => .single (.openRef decl.cls)

theorem makes_allThreads : allThreads.Makes Glance :=
  makes_update fun vm => glance_newLocals vm.liveThreadIds vm

theorem makes_currentThread (caller : NativeThread) : (currentThread caller).Makes Glance :=
  makes_bind (makes_look _) fun id? => makes_bind (makes_require _ id?) fun id =>
    makes_update fun _ => .single (.openRef id)

theorem makes_topThreadGroups : topThreadGroups.Makes Glance :=
  makes_update (glance_newLocals [systemGroup])

theorem makes_threadInfo (thread : Handle) : (threadInfo thread).Makes Glance := by
  refine makes_bind (makes_inspect _) fun body => ?_
  refine makes_bind (makes_update fun vm => .single (.openRef body.group)) fun group => ?_
  exact makes_bind (makes_update fun vm => .single (.openRef classLoader)) fun _ => makes_pure _

theorem makes_getLocal (thread : Handle) (depth slot : Int) (kind : SlotKind) :
    (getLocal thread depth slot kind).Makes Glance :=
  makes_bind (makes_inspect _) fun value => makes_update (glance_giveOut value)

/-! ### Calls that stop threads -/

/-- A thread that has been located is there. -/
theorem locateThread_ok {vm vm' : Vm} {thread : Handle} {id : HeapId} {body : ThreadBody}
    (hperform : (locateThread thread).perform vm = (.ok (id, body), vm')) :
    vm' = vm ∧ vm.threadAt? id = some body := by
  rw [locateThread, perform_bind, perform_look] at hperform
  cases htarget : vm.target? thread with
  | none => simp [htarget, perform_bind] at hperform
  | some target =>
      cases hobject : vm.heap[target]? with
      | none => simp [htarget, hobject, perform_bind] at hperform
      | some object =>
          obtain ⟨cls, tag, held⟩ := object
          cases held <;> simp [htarget, hobject, perform_bind] at hperform
          obtain ⟨⟨rfl, rfl⟩, rfl⟩ := hperform
          exact ⟨rfl, by simp [threadAt?, hobject]⟩

theorem makes_locateThread {R : Vm → Vm → Prop} (thread : Handle) :
    (locateThread thread).Makes R := by
  refine makes_bind (makes_look _) fun id? => makes_bind (makes_require _ id?) fun id => ?_
  refine makes_bind (makes_look _) fun object? => makes_bind (makes_expect object?) fun object => ?_
  split
  · exact makes_pure _
  · exact makes_refuse _

/-- What a call does to the thread that it locates. -/
theorem makes_locating {α : Type} {R : Vm → Vm → Prop} {thread : Handle}
    {f : HeapId × ThreadBody → Call α}
    (hf : ∀ vm id body, vm.threadAt? id = some body →
      ReflTransGen R vm ((f (id, body)).perform vm).2) :
    (locateThread thread >>= f).Makes R := by
  intro vm
  have hlocate := @makes_locateThread R thread vm
  rw [perform_bind]
  cases hperform : (locateThread thread).perform vm with
  | mk result near =>
      rw [hperform] at hlocate
      cases result with
      | error stop => exact hlocate
      | ok found =>
          obtain ⟨rfl, hthread⟩ := locateThread_ok hperform
          exact hf near _ _ hthread

theorem makes_suspendOne (caller : NativeThread) (thread : Handle) :
    (suspendOne caller thread).Makes Halts := by
  refine makes_bind (makes_change fun vm => ?_) fun _ => makes_locating fun vm id body hthread => ?_
  · split
    · split
      · exact .single .own
      · exact .refl
    · exact .refl
  · dsimp only
    split
    · exact .refl
    · split
      · exact .refl
      · split
        · exact .refl
        · exact .single (.thread hthread)

theorem makes_resumeOne (thread : Handle) : (resumeOne thread).Makes Resumes := by
  refine makes_locating fun vm id body hthread => ?_
  dsimp only
  split
  · exact .refl
  · split
    · exact .refl
    · exact .single (.thread hthread)

theorem makes_suspendThread (caller : NativeThread) (thread : Handle) :
    (suspendThread caller thread).Makes Halts :=
  makes_bind (makes_inspect _) fun _ => makes_suspendOne caller thread

theorem makes_resumeThread (thread : Handle) : (resumeThread thread).Makes Resumes :=
  makes_bind (makes_inspect _) fun _ => makes_resumeOne thread

theorem makes_suspendThreads (caller : NativeThread) (threads : List Handle) :
    (suspendThreads caller threads).Makes Halts :=
  makes_bind (makes_inspect _) fun _ =>
    makes_mapM (fun thread => makes_attempt (makes_suspendOne caller thread)) threads

theorem makes_resumeThreads (threads : List Handle) : (resumeThreads threads).Makes Resumes :=
  makes_bind (makes_inspect _) fun _ =>
    makes_mapM (fun thread => makes_attempt (makes_resumeOne thread)) threads

end Vm

end DebugAgent
