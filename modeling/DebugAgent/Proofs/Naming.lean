import DebugAgent.Proofs.Matching

/-!
# Naming objects

A command names the object that it is about by an identifier.  If the identifier names one, the
command works with a local reference to it, which is gone when it ends; if it names none, the command
is refused before it looks at anything else and nothing has happened.  A command on a thread is
refused as well if the thread has ended.  A method names the class that declares it in the same way.
-/

namespace DebugAgent

open DebugAgent.Action Command Tracking

/-- The object is a thread that has not ended. -/
def Vm.isLiveThread (vm : Vm) (id : HeapId) : Bool :=
  (vm.threadAt? id).any fun body => !hasAny body.state ThreadState.terminated

variable {a : Agent} {α : Type} {id : ObjectId} {object : HeapId} {cause : ProtocolError}

/-- The agent while it has a local reference to an object. -/
def Agent.opened (a : Agent) (object : HeapId) : Agent := a.setVm (a.vm.newLocal object).2

theorem perform_acquire_dead (hdead : a.tracker.target? a.vm id = none) :
    (acquire id).perform a = (.ok .null, a) := by
  cases hglobal : a.tracker.global? id with
  | none => simp [acquire, perform_bind, hglobal]
  | some global =>
      have htarget : a.vm.target? global = none := by simpa [Tracker.target?, hglobal] using hdead
      simp [acquire, perform_bind, hglobal, touch, Vm.newLocalRef, htarget, Agent.setVm]

theorem perform_acquire_live (hlive : a.tracker.target? a.vm id = some object) :
    (acquire id).perform a = (.ok (a.vm.newLocal object).1, a.opened object) := by
  obtain ⟨global, hglobal, htarget⟩ := Option.bind_eq_some_iff.mp hlive
  simp [acquire, perform_bind, hglobal, touch, Vm.newLocalRef, htarget, Agent.opened, Vm.newLocal]

theorem perform_withRef_dead (hdead : a.tracker.target? a.vm id = none)
    (x : Handle → Command α) : (withRef id cause x).perform a = (.error (.refused cause), a) := by
  have hnull : Handle.null.isNull = true := rfl
  have hdropped : dropLocal a.vm .null = a.vm := rfl
  simp [withRef, perform_bind, perform_acquire_dead hdead, requireRef, hnull, hdropped,
    Agent.setVm]

theorem perform_withRef_live (hlive : a.tracker.target? a.vm id = some object)
    (x : Handle → Command α) :
    (withRef id cause x).perform a =
      (withLocal (a.vm.newLocal object).1 (x (a.vm.newLocal object).1)).perform
        (a.opened object) := by
  have hnew : (a.vm.newLocal object).1.isNull = false := Vm.isNull_newRef a.vm .localRef object
  simp [withRef, perform_bind, perform_acquire_live hlive, requireRef, hnew]

/-! ### Threads -/

theorem isAlive_eq {vm : Vm} {h : Handle} (htarget : vm.target? h = some object) :
    isAlive vm h = vm.isLiveThread object := by
  have hvalid : h.isNull = false := Vm.isNull_eq_false_of_target htarget
  cases hthread : vm.threadAt? object with
  | none =>
      simp [isAlive, hvalid, Vm.threadStateOf, Vm.threadOf, htarget, Vm.isLiveThread, hthread,
        Except.map]
  | some body =>
      simp [isAlive, hvalid, Vm.threadStateOf, Vm.threadOf, htarget, Vm.isLiveThread, hthread,
        Except.map]

theorem perform_withThread_dead (hdead : a.tracker.target? a.vm id = none)
    (x : Handle → Command α) :
    (withThread id x).perform a = (.error (.refused .invalidThread), a) := by
  have hnull : isAlive a.vm .null = false := rfl
  have hdropped : dropLocal a.vm .null = a.vm := rfl
  simp [withThread, perform_bind, perform_acquire_dead hdead, see, hnull, hdropped, Agent.setVm]

/-- What is no thread, or one that has ended, is referred to for the time of the test. -/
theorem perform_withThread_ended (hb : a.vm.RefsBounded)
    (hnamed : a.tracker.target? a.vm id = some object) (hended : a.vm.isLiveThread object = false)
    (x : Handle → Command α) :
    (withThread id x).perform a = (.error (.refused .invalidThread), a.spend 8) := by
  have htarget : (a.opened object).vm.target? (a.vm.newLocal object).1 = some object :=
    Vm.target?_newRef a.vm .localRef object
  have halive : isAlive (a.opened object).vm (a.vm.newLocal object).1 = false :=
    (isAlive_eq htarget).trans hended
  have hdropped := Vm.dropLocal_newLocal_self hb object
  simp only [Agent.opened, Agent.setVm] at halive
  simp [withThread, perform_bind, perform_acquire_live hnamed, see, halive, Agent.opened,
    Agent.setVm, hdropped, Agent.spend]

theorem perform_withThread_live (hnamed : a.tracker.target? a.vm id = some object)
    (hlive : a.vm.isLiveThread object = true) (x : Handle → Command α) :
    (withThread id x).perform a =
      (withLocal (a.vm.newLocal object).1 (x (a.vm.newLocal object).1)).perform
        (a.opened object) := by
  have htarget : (a.opened object).vm.target? (a.vm.newLocal object).1 = some object :=
    Vm.target?_newRef a.vm .localRef object
  have halive : isAlive (a.opened object).vm (a.vm.newLocal object).1 = true :=
    (isAlive_eq htarget).trans hlive
  simp [withThread, perform_bind, perform_acquire_live hnamed, see, halive]

/-! ### Methods -/

section DeclaringClass

variable {method : MethodId} {decl : MethodDecl}

theorem perform_withDeclaringClass_unknown (hunknown : a.vm.methods.get? method = none)
    (x : Handle → Command α) :
    (Positions.withDeclaringClass method x).perform a = (.error (.refused .invalidMethodId), a) := by
  have hread : (Vm.methodDeclaringClass method).perform a.vm =
      (.error (.refused .invalidMethodId), a.vm) := by
    simp [Vm.methodDeclaringClass, perform_bind, Vm.methodOf, hunknown]
  rw [Positions.withDeclaringClass, perform_bind, perform_call_refused hread]
  rfl

theorem perform_withDeclaringClass (hdecl : a.vm.methods.get? method = some decl)
    (x : Handle → Command α) :
    (Positions.withDeclaringClass method x).perform a =
      (withLocal (a.vm.newLocal decl.cls).1 (x (a.vm.newLocal decl.cls).1)).perform
        (a.opened decl.cls) := by
  have hread : (Vm.methodDeclaringClass method).perform a.vm =
      (.ok (a.vm.newLocal decl.cls).1, (a.vm.newLocal decl.cls).2) := by
    simp [Vm.methodDeclaringClass, perform_bind, Vm.methodOf, hdecl]
  have hvalid : (requireRef (a.vm.newLocal decl.cls).1 .invalidMethodId).perform
      (a.opened decl.cls) = (.ok (), a.opened decl.cls) := by
    have hnew : (a.vm.newLocal decl.cls).1.isNull = false :=
      Vm.isNull_newRef a.vm .localRef decl.cls
    rw [requireRef, hnew]
    rfl
  rw [Positions.withDeclaringClass, perform_bind_of_ok (perform_call_ok hread)]
  change (withLocal _ _).perform (a.opened decl.cls) = _
  rw [perform_withLocal, perform_withLocal, perform_bind_of_ok hvalid]

end DeclaringClass

end DebugAgent
