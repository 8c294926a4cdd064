import DebugAgent.Proofs.Tidy
import DebugAgent.Request.Registration

/-!
# What registrations do

A request is registered in two steps and removed in two: its breakpoint is held or released, and its
notification is enabled or disabled.  `Holds`, `Enables`, `Releases` and `Disables` say what each
step leaves behind when it succeeds, guards included, so that facts about registrations are proved
case by case from them.  A registration that fails leaves nothing behind.
-/

namespace DebugAgent

open DebugAgent.Action Command

namespace Agent

def putBreakpoints (breakpoints : Table (MethodId × CodeIndex) Nat) (a : Agent) : Agent :=
  { a with requests := { a.requests with breakpoints } }

def putNotifications (notifications : Table NotificationKey Notification) (a : Agent) : Agent :=
  { a with requests := { a.requests with notifications } }

def dropRequest (id : RequestId) (a : Agent) : Agent :=
  { a with requests := a.requests.remove id }

end Agent

/-! ### Calls of the machine -/

namespace Vm

variable {vm : Vm}

def putBreakpoints (breakpoints : List (MethodId × CodeIndex)) (vm : Vm) : Vm :=
  { vm with breakpoints }

def putNotifications (notifications : List (CallbackKind × Option HeapId)) (vm : Vm) : Vm :=
  { vm with notifications }

def addBreakpoint (position : MethodId × CodeIndex) (vm : Vm) : Vm :=
  vm.putBreakpoints (vm.breakpoints ++ [position])

def dropBreakpoint (position : MethodId × CodeIndex) (vm : Vm) : Vm :=
  vm.putBreakpoints (vm.breakpoints.filter fun b => b ≠ position)

/-- The capability to set breakpoints is granted and the method of the position is known. -/
def AllowsBreakpoint (vm : Vm) (position : MethodId × CodeIndex) : Prop :=
  vm.grants Capabilities.canGenerateBreakpointEvents ∧ (vm.methods.get? position.1).isSome

theorem AllowsBreakpoint.of_steady {vm' : Vm} {position : MethodId × CodeIndex}
    (hallow : vm.AllowsBreakpoint position) (hsteady : vm.Steady vm') :
    vm'.AllowsBreakpoint position :=
  ⟨by simpa [grants, hsteady.capabilities] using hallow.1, hsteady.methods hallow.2⟩

theorem AllowsBreakpoint.of_keeps {vm' : Vm} {position : MethodId × CodeIndex}
    (hallow : vm.AllowsBreakpoint position) (hkeeps : vm.Keeps vm') :
    vm'.AllowsBreakpoint position :=
  hallow.of_steady hkeeps.toSteady

theorem demandFor_of_keeps {vm' : Vm} (hkeeps : vm.Keeps vm') (kind : CallbackKind) :
    vm'.demandFor kind = vm.demandFor kind := by
  unfold demandFor demand grants
  rw [hkeeps.capabilities]

theorem setBreakpoint_ok {method : MethodId} {index : CodeIndex} {decl : MethodDecl}
    (hgrant : vm.grants Capabilities.canGenerateBreakpointEvents)
    (hmethod : vm.methods.get? method = some decl)
    (hrange : ¬ (index < decl.spec.start ∨ decl.spec.finish < index))
    (hfree : (method, index) ∉ vm.breakpoints) :
    (setBreakpoint method index).perform vm = (.ok (), vm.addBreakpoint (method, index)) := by
  have hset : vm.isBreakpoint method index = false := by simpa [isBreakpoint] using hfree
  simp [setBreakpoint, perform_bind, demand_ok hgrant, methodOf, hmethod, hrange, hset,
    addBreakpoint, putBreakpoints]

theorem setBreakpoint_cases (vm : Vm) (position : MethodId × CodeIndex) :
    (∃ e, (setBreakpoint position.1 position.2).perform vm = (.error (.refused e), vm)) ∨
      vm.AllowsBreakpoint position ∧ position ∉ vm.breakpoints ∧
        (setBreakpoint position.1 position.2).perform vm =
          (.ok (), vm.addBreakpoint position) := by
  cases hgrant : vm.grants Capabilities.canGenerateBreakpointEvents with
  | false =>
      refine .inl ⟨.mustPossessCapability, ?_⟩
      simp [setBreakpoint, perform_bind, demand, hgrant]
  | true =>
      cases hmethod : vm.methods.get? position.1 with
      | none =>
          refine .inl ⟨.invalidMethodId, ?_⟩
          simp [setBreakpoint, perform_bind, demand_ok hgrant, methodOf, hmethod]
      | some decl =>
          by_cases hrange : position.2 < decl.spec.start ∨ decl.spec.finish < position.2
          · refine .inl ⟨.invalidLocation, ?_⟩
            simp [setBreakpoint, perform_bind, demand_ok hgrant, methodOf, hmethod, hrange]
          · cases hset : vm.isBreakpoint position.1 position.2 with
            | true =>
                refine .inl ⟨.duplicate, ?_⟩
                simp [setBreakpoint, perform_bind, demand_ok hgrant, methodOf, hmethod, hrange,
                  hset]
            | false =>
                have hfree : position ∉ vm.breakpoints := by simpa [isBreakpoint] using hset
                exact .inr ⟨⟨hgrant, by simp [hmethod]⟩, hfree,
                  setBreakpoint_ok hgrant hmethod hrange hfree⟩

/-- The machine refuses to clear a breakpoint, or it does away with it. -/
theorem clearBreakpoint_cases (vm : Vm) (position : MethodId × CodeIndex) :
    (∃ e, (clearBreakpoint position.1 position.2).perform vm = (.error (.refused e), vm) ∧
      (vm.AllowsBreakpoint position → position ∉ vm.breakpoints)) ∨
        (clearBreakpoint position.1 position.2).perform vm =
          (.ok (), vm.dropBreakpoint position) := by
  cases hgrant : vm.grants Capabilities.canGenerateBreakpointEvents with
  | false =>
      refine .inl ⟨.mustPossessCapability, ?_, fun hallow => by simpa [hgrant] using hallow.1⟩
      simp [clearBreakpoint, perform_bind, demand, hgrant]
  | true =>
      cases hmethod : vm.methods.get? position.1 with
      | none =>
          refine .inl ⟨.invalidMethodId, ?_, fun hallow => by simpa [hmethod] using hallow.2⟩
          simp [clearBreakpoint, perform_bind, demand_ok hgrant, methodOf, hmethod]
      | some decl =>
          cases hset : vm.isBreakpoint position.1 position.2 with
          | true =>
              right
              simp [clearBreakpoint, perform_bind, demand_ok hgrant, methodOf, hmethod, hset,
                dropBreakpoint, putBreakpoints]
          | false =>
              refine .inl ⟨.notFound, ?_, fun _ => by simpa [isBreakpoint] using hset⟩
              simp [clearBreakpoint, perform_bind, demand_ok hgrant, methodOf, hmethod, hset]

def enableFor (kind : CallbackKind) (target : Option HeapId) (vm : Vm) : Vm :=
  vm.putNotifications <|
    if vm.isEnabled kind target then vm.notifications else vm.notifications ++ [(kind, target)]

def disableFor (kind : CallbackKind) (target : Option HeapId) (vm : Vm) : Vm :=
  vm.putNotifications (vm.notifications.filter fun n => n ≠ (kind, target))

theorem setNotification_ok {kind : CallbackKind} {thread : Option Handle} {target : Option HeapId}
    (hdemand : vm.demandFor kind = .ok ()) (htarget : vm.notifiedThread thread = .ok target)
    (enable : Bool) :
    (setNotification enable kind thread).perform vm =
      (.ok (), if enable then vm.enableFor kind target else vm.disableFor kind target) := by
  cases enable <;>
    simp [setNotification, perform_bind, hdemand, htarget, enableFor, disableFor,
      putNotifications]

theorem setNotification_cases (vm : Vm) (enable : Bool) (kind : CallbackKind)
    (thread : Option Handle) :
    (∃ e, (setNotification enable kind thread).perform vm = (.error (.refused e), vm) ∧
      ∀ target, vm.demandFor kind = .ok () → vm.notifiedThread thread ≠ .ok target) ∨
      ∃ target, vm.demandFor kind = .ok () ∧ vm.notifiedThread thread = .ok target := by
  cases hdemand : vm.demandFor kind with
  | error e =>
      refine .inl ⟨e, ?_, fun _ h => by cases h⟩
      simp [setNotification, perform_bind, hdemand]
  | ok _ =>
      cases htarget : vm.notifiedThread thread with
      | error e =>
          refine .inl ⟨e, ?_, fun _ _ h => by cases h⟩
          simp [setNotification, perform_bind, hdemand, htarget]
      | ok target => exact .inr ⟨target, rfl, rfl⟩

end Vm

namespace Command

variable {α : Type} {a : Agent} {x : Call α} {vm : Vm}

theorem perform_tryCall_ok {result : α} (h : x.perform a.vm = (.ok result, vm)) :
    (tryCall x).perform a = (.ok (.ok result), a.setVm vm) := by
  simp [tryCall, attempt, h]

theorem perform_tryCall_refused {e : JvmtiError}
    (h : x.perform a.vm = (.error (.refused e), vm)) :
    (tryCall x).perform a = (.ok (.error e), a.setVm vm) := by
  simp [tryCall, attempt, h]

end Command

namespace Registration

variable {a b : Agent}

/-! ### Breakpoints -/

/-- What holding a breakpoint leaves behind. -/
inductive Holds (a : Agent) : Option (MethodId × CodeIndex) → Agent → Prop where
  | none : Holds a none a
  | more {position count} (hcount : a.requests.breakpoints.get? position = some count) :
      Holds a (some position)
        (a.putBreakpoints (a.requests.breakpoints.insert position (count + 1)))
  | first {position} (hnone : a.requests.breakpoints.get? position = none)
      (hallow : a.vm.AllowsBreakpoint position) (hfree : position ∉ a.vm.breakpoints) :
      Holds a (some position)
        ((a.setVm (a.vm.addBreakpoint position)).putBreakpoints
          (a.requests.breakpoints.insert position 1))

theorem Holds.eq {position : Option (MethodId × CodeIndex)} (hholds : Holds a position b) :
    ∃ set counts, b = (a.setVm (a.vm.putBreakpoints set)).putBreakpoints counts := by
  cases hholds with
  | none | more | first => exact ⟨_, _, rfl⟩

/-- What releasing a breakpoint leaves behind. -/
inductive Releases (a : Agent) : Option (MethodId × CodeIndex) → Agent → Prop where
  | none : Releases a none a
  | unknown {position} (hnone : a.requests.breakpoints.get? position = none) :
      Releases a (some position) a
  | fewer {position count} (hcount : a.requests.breakpoints.get? position = some (count + 2)) :
      Releases a (some position)
        (a.putBreakpoints (a.requests.breakpoints.insert position (count + 1)))
  | last {position} (hcount : a.requests.breakpoints.get? position = some 1) :
      Releases a (some position)
        ((a.setVm (a.vm.dropBreakpoint position)).putBreakpoints
          (a.requests.breakpoints.erase position))
  | stuck {position} (hcount : a.requests.breakpoints.get? position = some 1)
      (hrefused : a.vm.AllowsBreakpoint position → position ∉ a.vm.breakpoints) :
      Releases a (some position) (a.putBreakpoints (a.requests.breakpoints.erase position))

theorem Releases.eq {position : Option (MethodId × CodeIndex)} (hreleases : Releases a position b) :
    ∃ set counts, b = (a.setVm (a.vm.putBreakpoints set)).putBreakpoints counts := by
  cases hreleases with
  | none | unknown | fewer | last | stuck => exact ⟨_, _, rfl⟩

theorem holds_more {position : MethodId × CodeIndex} {count : Nat}
    (hcount : a.requests.breakpoints.get? position = some count) :
    ∃ b, Holds a (some position) b ∧ (holdBreakpoint position).perform a = (.ok (), b) := by
  refine ⟨_, .more hcount, ?_⟩
  simp [holdBreakpoint, perform_bind, hcount, setBreakpoints, Agent.putBreakpoints]

theorem holds_first {position : MethodId × CodeIndex}
    (hnone : a.requests.breakpoints.get? position = none) (hallow : a.vm.AllowsBreakpoint position)
    (hfree : position ∉ a.vm.breakpoints)
    (hset : (Vm.setBreakpoint position.1 position.2).perform a.vm =
      (.ok (), a.vm.addBreakpoint position)) :
    ∃ b, Holds a (some position) b ∧ (holdBreakpoint position).perform a = (.ok (), b) := by
  refine ⟨_, .first hnone hallow hfree, ?_⟩
  simp [holdBreakpoint, perform_bind, hnone, perform_call_ok hset, setBreakpoints,
    Agent.putBreakpoints, Agent.setVm]

theorem holdBreakpoint_cases (a : Agent) (position : MethodId × CodeIndex) :
    (∃ cause, (holdBreakpoint position).perform a = (.error (.refused cause), a)) ∨
      ∃ b, Holds a (some position) b ∧ (holdBreakpoint position).perform a = (.ok (), b) := by
  cases hcount : a.requests.breakpoints.get? position with
  | some count => exact .inr (holds_more hcount)
  | none =>
      rcases Vm.setBreakpoint_cases a.vm position with ⟨e, hrefused⟩ | ⟨hallow, hfree, hset⟩
      · refine .inl ⟨e.toProtocol, ?_⟩
        simp [holdBreakpoint, perform_bind, hcount, perform_call_refused hrefused, Agent.setVm]
      · exact .inr (holds_first hcount hallow hfree hset)

theorem releaseBreakpoint_releases {position : MethodId × CodeIndex}
    (hpos : a.requests.breakpoints.get? position ≠ some 0) :
    ∃ b, Releases a (some position) b ∧ (releaseBreakpoint position).perform a = (.ok (), b) := by
  match hcount : a.requests.breakpoints.get? position with
  | none =>
      refine ⟨a, .unknown hcount, ?_⟩
      simp [releaseBreakpoint, perform_bind, hcount]
  | some 0 => exact absurd hcount hpos
  | some 1 =>
      -- the call to the machine comes after the table has forgotten the position
      let rest := a.putBreakpoints (a.requests.breakpoints.erase position)
      rcases Vm.clearBreakpoint_cases a.vm position with ⟨e, hcall, hrefused⟩ | hcall
      · have htry := perform_tryCall_refused (a := rest) hcall
        refine ⟨_, .stuck hcount hrefused, ?_⟩
        simp only [rest, Agent.putBreakpoints] at htry
        simp [releaseBreakpoint, perform_bind, hcount, setBreakpoints, Agent.putBreakpoints, htry,
          Agent.setVm, Except.map]
      · have htry := perform_tryCall_ok (a := rest) hcall
        refine ⟨_, .last hcount, ?_⟩
        simp only [rest, Agent.putBreakpoints] at htry
        simp [releaseBreakpoint, perform_bind, hcount, setBreakpoints, Agent.putBreakpoints, htry,
          Agent.setVm, Except.map]
  | some (count + 2) =>
      refine ⟨_, .fewer hcount, ?_⟩
      simp [releaseBreakpoint, perform_bind, hcount, setBreakpoints, Agent.putBreakpoints]

/-! ### Threads of notifications -/

/-- The reference that a notification holds to its thread: none if it is for all threads, and one
that nobody else has if it is for the thread that an identifier designates. -/
inductive HeldFor (a : Agent) (vm : Vm) :
    Option ObjectId → Option Handle → Option HeapId → Prop where
  | all : HeldFor a vm none none none
  | one {id global thread} (hdesignates : a.tracker.target? a.vm id = some thread)
      (hthread : (a.vm.threadAt? thread).isSome) (hglobal : vm.HoldsGlobal global thread)
      (hnew : a.vm.lastRef < global.raw) : HeldFor a vm (some id) (some global) (some thread)

theorem threadAt?_of_isAlive {vm : Vm} {h : Handle} {thread : HeapId}
    (htarget : vm.target? h = some thread) (halive : Tracking.isAlive vm h = true) :
    (vm.threadAt? thread).isSome := by
  simp only [Tracking.isAlive, Vm.threadStateOf, Vm.threadOf, htarget, Option.bind_some] at halive
  cases hbody : vm.threadAt? thread with
  | none => simp [hbody, Except.map] at halive
  | some body => rfl

/-- A command on a thread is refused, or it runs with a local reference to the thread. -/
theorem withThread_cases {α : Type} (id : ObjectId) (x : Handle → Command α)
    (hb : a.vm.RefsBounded) :
    (∃ cause vm, a.vm.Conserves vm ∧
      (Tracking.withThread id x).perform a = (.error (.refused cause), a.setVm vm)) ∨
      ∃ thread, a.tracker.target? a.vm id = some thread ∧ (a.vm.threadAt? thread).isSome ∧
        (Tracking.withThread id x).perform a =
          (withLocal (a.vm.newLocal thread).1 (x (a.vm.newLocal thread).1)).perform
            (a.setVm (a.vm.newLocal thread).2) := by
  cases hglobal : a.tracker.global? id with
  | none =>
      refine .inl ⟨.invalidThread, a.vm, .refl a.vm, ?_⟩
      simp [Tracking.withThread, Tracking.acquire, perform_bind, hglobal, see,
        Tracking.isAlive, Handle.isNull, Handle.null, dropLocal]
  | some global =>
      cases htarget : a.vm.target? global with
      | none =>
          refine .inl ⟨.invalidThread, a.vm, .refl a.vm, ?_⟩
          simp [Tracking.withThread, Tracking.acquire, perform_bind, hglobal, see,
            Tracking.isAlive, Handle.isNull, Handle.null, touch, Vm.newLocalRef, htarget,
            Agent.setVm, dropLocal]
      | some thread =>
          have hlocal : a.vm.newLocalRef global = a.vm.newLocal thread := by
            simp [Vm.newLocalRef, htarget, Vm.newLocal]
          have htarget' : (a.vm.newLocal thread).2.target? (a.vm.newLocal thread).1 = some thread :=
            Vm.target?_newRef a.vm .localRef thread
          cases halive : Tracking.isAlive (a.vm.newLocal thread).2 (a.vm.newLocal thread).1 with
          | false =>
              have hconserves : a.vm.Conserves
                  ((a.vm.newLocal thread).2.deleteLocalRef (a.vm.newLocal thread).1) :=
                (Vm.conserves_newLocal hb thread).trans (Vm.conserves_deleteLocalRef _ _)
              refine .inl ⟨.invalidThread, _, hconserves, ?_⟩
              simp [Tracking.withThread, Tracking.acquire, perform_bind, hglobal, see,
                touch, hlocal, Agent.setVm, halive, dropLocal_newLocal]
          | true =>
              have hthread : ((a.vm.newLocal thread).2.threadAt? thread).isSome :=
                threadAt?_of_isAlive htarget' halive
              refine .inr ⟨thread, ?_, hthread, ?_⟩
              · simp [Tracker.target?, hglobal, htarget]
              · simp [Tracking.withThread, Tracking.acquire, perform_bind, hglobal, see,
                  touch, hlocal, Agent.setVm, halive]

/-- The machine without the reference that a notification held. -/
def freed (thread : Option Handle) (vm : Vm) : Vm :=
  match thread with
  | none => vm
  | some global => vm.deleteGlobalRef global

/-- Making a reference and giving it up again changes nothing that the agent relies on. -/
theorem conserves_deleteGlobalRef {vm near far : Vm} {object : HeapId} (hb : vm.RefsBounded)
    (hnear : vm.Conserves near) (hfar : (near.newRef .globalRef object).2.Conserves far) :
    vm.Conserves (far.deleteGlobalRef (near.newRef .globalRef object).1) where
  toKeeps := by
    have hmade := Vm.keeps_newRef (hnear.toAges.bounded hb) .globalRef object
    have hnew : vm.lastRef < near.lastRef + 8 :=
      Nat.lt_of_le_of_lt hnear.lastRef_le (Nat.lt_add_of_pos_right (by decide))
    exact ((hnear.toKeeps.trans hmade).trans hfar.toKeeps).deleteGlobalRef hb hnew
  globals_old := by
    intro raw target hg
    have hold := hfar.globals_old (Vm.get?_deleteRef hg)
    rw [Vm.get?_newRef] at hold
    split at hold
    · rename_i hraw
      subst hraw
      exact absurd hg (Vm.get?_deleteRef_self far .globalRef ⟨near.lastRef + 8⟩ target)
    · exact hnear.globals_old hold

/-- A notification is refused its reference, or it gets one and nothing else is made. -/
theorem holdThread_cases (thread : Option ObjectId) (hb : a.vm.RefsBounded) :
    (∃ cause vm, a.vm.Conserves vm ∧
      (holdThread thread).perform a = (.error (.refused cause), a.setVm vm)) ∨
      ∃ held target vm, a.vm.Keeps vm ∧ HeldFor a vm thread held target ∧
        a.vm.Conserves (freed held vm) ∧
          (holdThread thread).perform a = (.ok held, a.setVm vm) := by
  cases thread with
  | none => exact .inr ⟨none, none, a.vm, .refl a.vm, .all, .refl a.vm, rfl⟩
  | some id =>
      rcases withThread_cases id _ hb with hrefused | ⟨thread, hdesignates, hthread, hperform⟩
      · exact .inl hrefused
      · right
        let h := (a.vm.newLocal thread).1
        let near := (a.vm.newLocal thread).2
        let far := near.newRef .globalRef thread
        have hnear : a.vm.Conserves near := Vm.conserves_newLocal hb thread
        have hfar : near.Keeps far.2 := Vm.keeps_newRef (hnear.toAges.bounded hb) .globalRef thread
        have hdone : far.2.Conserves (far.2.deleteLocalRef h) :=
          Vm.conserves_deleteLocalRef far.2 h
        have hglobal : (far.2.deleteLocalRef h).HoldsGlobal far.1 thread :=
          hdone.globals (Vm.holdsGlobal_newRef near thread)
        have hnew : a.vm.lastRef < far.1.raw := by
          simp only [far, near, Vm.newRef, Vm.newLocal]
          omega
        have hcall : near.newGlobalRef h = far :=
          Vm.newGlobalRef_of_target (Vm.target?_newRef a.vm .localRef thread)
        refine ⟨some far.1, some thread, far.2.deleteLocalRef h,
          (hnear.toKeeps.trans hfar).trans hdone.toKeeps, .one hdesignates hthread hglobal hnew,
          conserves_deleteGlobalRef hb hnear hdone, hperform.trans ?_⟩
        have hvalid : far.1.isNull = false := hglobal.isNull
        simp [perform_bind, touch, Agent.setVm, requireRef, hcall, near, h, hvalid, Except.map,
          dropLocal_newLocal]

/-! ### Notifications -/

/-- What enabling a notification leaves behind. -/
inductive Enables (a : Agent) (key : NotificationKey) : Agent → Prop where
  | more {held} (hheld : a.requests.notifications.get? key = some held) :
      Enables a key (a.putNotifications
        (a.requests.notifications.insert key { held with count := held.count + 1 }))
  | first {vm thread target} (hnone : a.requests.notifications.get? key = none)
      (hkeeps : a.vm.Keeps vm) (hheld : HeldFor a vm key.2 thread target)
      (hdemand : a.vm.demandFor key.1 = .ok ()) (hfreed : a.vm.Conserves (freed thread vm)) :
      Enables a key ((a.setVm (vm.enableFor key.1 target)).putNotifications
        (a.requests.notifications.insert key ⟨1, thread⟩))

/-- What disabling a notification leaves behind. -/
inductive Disables (a : Agent) (key : NotificationKey) : Agent → Prop where
  | unknown (hnone : a.requests.notifications.get? key = none) : Disables a key a
  | fewer {held} (hheld : a.requests.notifications.get? key = some held) (hcount : 1 < held.count) :
      Disables a key (a.putNotifications
        (a.requests.notifications.insert key { held with count := held.count - 1 }))
  | last {held target} (hheld : a.requests.notifications.get? key = some held)
      (hcount : held.count ≤ 1) (hdemand : a.vm.demandFor key.1 = .ok ())
      (htarget : a.vm.notifiedThread held.thread = .ok target) :
      Disables a key ((a.setVm (freed held.thread (a.vm.disableFor key.1 target))).putNotifications
        (a.requests.notifications.erase key))
  | stuck {held} (hheld : a.requests.notifications.get? key = some held) (hcount : held.count ≤ 1)
      (hrefused : ∀ target, a.vm.demandFor key.1 = .ok () →
        a.vm.notifiedThread held.thread ≠ .ok target) :
      Disables a key ((a.setVm (freed held.thread a.vm)).putNotifications
        (a.requests.notifications.erase key))

theorem Enables.eq {key : NotificationKey} (henables : Enables a key b) :
    ∃ vm enabled held, a.vm.Keeps vm ∧
      b = (a.setVm (vm.putNotifications enabled)).putNotifications held := by
  cases henables with
  | more => exact ⟨_, _, _, .refl a.vm, rfl⟩
  | first hnone hkeeps => exact ⟨_, _, _, hkeeps, rfl⟩

theorem Disables.eq {key : NotificationKey} (hdisables : Disables a key b) :
    ∃ thread enabled held,
      b = (a.setVm (freed thread (a.vm.putNotifications enabled))).putNotifications held := by
  cases hdisables with
  | unknown | fewer => exact ⟨none, _, _, rfl⟩
  | last | stuck => exact ⟨_, _, _, rfl⟩

theorem ages_freed (thread : Option Handle) (vm : Vm) : vm.Ages (freed thread vm) := by
  cases thread with
  | none => exact .refl vm
  | some global => exact Vm.ages_deleteRef vm .globalRef global

theorem steady_freed (thread : Option Handle) (vm : Vm) : vm.Steady (freed thread vm) := by
  cases thread with
  | none => exact .refl vm
  | some global => exact Vm.steady_deleteRef vm .globalRef global

theorem perform_freeThread (thread : Option Handle) (a : Agent) :
    (freeThread thread).perform a = (.ok (), a.setVm (freed thread a.vm)) := by
  cases thread <;> rfl

theorem HeldFor.notifiedThread {vm : Vm} {id : Option ObjectId} {thread : Option Handle}
    {target : Option HeapId} (hheld : HeldFor a vm id thread target) (hkeeps : a.vm.Keeps vm) :
    vm.notifiedThread thread = .ok target := by
  cases hheld with
  | all => rfl
  | one hdesignates hthread hglobal hnew =>
      simp [Vm.notifiedThread, hglobal.target?, hkeeps.threads hthread]

theorem HeldFor.forAll {vm : Vm} {id : Option ObjectId} {thread : Option Handle}
    {target : Option HeapId} (hheld : HeldFor a vm id thread target) (hid : id = none) :
    thread = none ∧ target = none := by
  cases hheld with
  | all => exact ⟨rfl, rfl⟩
  | one => cases hid

theorem HeldFor.forOne {vm : Vm} {id : Option ObjectId} {thread : Option Handle}
    {target : Option HeapId} (hheld : HeldFor a vm id thread target) (hkeeps : a.vm.Keeps vm)
    {known : ObjectId} (hid : id = some known) :
    ∃ global object, thread = some global ∧ vm.HoldsGlobal global object ∧
      (vm.threadAt? object).isSome := by
  cases hheld with
  | all => cases hid
  | one hdesignates hthread hglobal hnew => exact ⟨_, _, rfl, hglobal, hkeeps.threads hthread⟩

theorem held?_putNotifications_insert {key : NotificationKey} {held : Notification}
    (a : Agent) (x : Holder) :
    (a.putNotifications (a.requests.notifications.insert key held)).held? x =
      if x = .notification key then held.thread else a.held? x := by
  cases x with
  | identifier id => rfl
  | notification other =>
      simp only [Agent.held?, Agent.putNotifications, Table.get?_insert,
        Holder.notification.injEq]
      split <;> rfl

theorem held?_putNotifications_erase {key : NotificationKey} (a : Agent) (x : Holder) :
    (a.putNotifications (a.requests.notifications.erase key)).held? x =
      if x = .notification key then none else a.held? x := by
  cases x with
  | identifier id => rfl
  | notification other =>
      simp only [Agent.held?, Agent.putNotifications, Table.get?_erase, Holder.notification.injEq]
      split <;> rfl

/-- A notification whose count changes is still held for its thread. -/
theorem held?_recounted {key : NotificationKey} {held : Notification}
    (hheld : a.requests.notifications.get? key = some held) (count : Nat) :
    (a.putNotifications (a.requests.notifications.insert key { held with count })).held? =
      a.held? := by
  funext x
  rw [held?_putNotifications_insert]
  split
  · rename_i heq
    simp [heq, Agent.held?, hheld]
  · rfl

/-- The reference that was made for a notification is held for it. -/
theorem tidy_first {key : NotificationKey} {vm : Vm} {thread : Option Handle}
    {enabled : List (CallbackKind × Option HeapId)}
    (hnone : a.requests.notifications.get? key = none) (hc : a.vm.Conserves (freed thread vm)) :
    Tidy a ((a.setVm (vm.putNotifications enabled)).putNotifications
      (a.requests.notifications.insert key ⟨1, thread⟩)) := by
  let b := a.setVm (vm.putNotifications enabled)
  have hheld : ∀ x, (b.putNotifications (b.requests.notifications.insert key ⟨1, thread⟩)).held? x =
      if x = .notification key then thread else a.held? x :=
    held?_putNotifications_insert b
  apply tidy_of_held
  · rintro global ⟨object, hglobal⟩
    by_cases hthread : thread = some global
    · exact .inr ⟨.notification key, (hheld _).trans ((if_pos rfl).trans hthread)⟩
    · refine .inl ⟨object, hc.globals_old ?_⟩
      cases thread with
      | none => exact hglobal
      | some made =>
          refine Vm.get?_deleteRef_of_ne hglobal (.inr fun hraw => hthread ?_)
          exact congrArg (some ∘ Handle.mk) hraw.symm
  · intro x global hx _
    refine ⟨x, (hheld x).trans ((if_neg ?_).trans hx)⟩
    rintro rfl
    simp [Agent.held?, hnone] at hx

/-- A notification that is given up takes its reference with it. -/
theorem tidy_last {key : NotificationKey} {held : Notification}
    (hheld : a.requests.notifications.get? key = some held) {vm : Vm} (hrefs : vm.refs = a.vm.refs) :
    Tidy a ((a.setVm (freed held.thread vm)).putNotifications
      (a.requests.notifications.erase key)) := by
  obtain ⟨count, thread⟩ := held
  let b := a.setVm (freed thread vm)
  have hheldThen : ∀ x, (b.putNotifications (b.requests.notifications.erase key)).held? x =
      if x = .notification key then none else a.held? x :=
    held?_putNotifications_erase b
  have hold : ∀ {raw ref}, (freed thread vm).refs.get? raw = some ref →
      a.vm.refs.get? raw = some ref := by
    intro raw ref href
    rw [← hrefs]
    cases thread with
    | none => exact href
    | some global => exact Vm.get?_deleteRef href
  apply tidy_of_held
  · rintro global ⟨object, hglobal⟩
    exact .inl ⟨object, hold hglobal⟩
  · rintro x global hx ⟨object, hglobal⟩
    refine ⟨x, (hheldThen x).trans ((if_neg ?_).trans hx)⟩
    rintro rfl
    obtain rfl : thread = some global := by simpa [Agent.held?, hheld] using hx
    exact Vm.get?_deleteRef_self vm .globalRef global object hglobal

theorem Disables.tidy {key : NotificationKey} (hdisables : Disables a key b) : Tidy a b := by
  cases hdisables with
  | unknown => exact .refl a
  | fewer hheld => exact tidy_of_same (fun h => h) (held?_recounted hheld _)
  | last hheld | stuck hheld => exact tidy_last hheld rfl

theorem enables_more {key : NotificationKey} {held : Notification}
    (hheld : a.requests.notifications.get? key = some held) :
    ∃ b, Enables a key b ∧ Tidy a b ∧ (enable key).perform a = (.ok (), b) := by
  refine ⟨_, .more hheld, tidy_of_same (fun h => h) (held?_recounted hheld _), ?_⟩
  simp [enable, perform_bind, hheld, setNotifications, Agent.putNotifications]

/-- The notification is enabled for the thread that is held. -/
theorem enables_first {key : NotificationKey} {vm : Vm} {thread : Option Handle}
    {target : Option HeapId} (hnone : a.requests.notifications.get? key = none)
    (hkeeps : a.vm.Keeps vm) (hfor : HeldFor a vm key.2 thread target)
    (hfreed : a.vm.Conserves (freed thread vm))
    (hthread : (holdThread key.2).perform a = (.ok thread, a.setVm vm))
    (hdemand : a.vm.demandFor key.1 = .ok ()) :
    ∃ b, Enables a key b ∧ Tidy a b ∧ (enable key).perform a = (.ok (), b) := by
  have hdemand' : vm.demandFor key.1 = .ok () :=
    (Vm.demandFor_of_keeps hkeeps key.1).trans hdemand
  have htry := perform_tryCall_ok (a := a.setVm vm)
    (Vm.setNotification_ok hdemand' (hfor.notifiedThread hkeeps) true)
  refine ⟨_, .first hnone hkeeps hfor hdemand hfreed, tidy_first hnone hfreed, ?_⟩
  simp only [Agent.setVm] at htry
  simp [enable, perform_bind, hnone, hthread, htry, setNotifications, Agent.putNotifications,
    Agent.setVm]

theorem enable_cases (key : NotificationKey) (hb : a.vm.RefsBounded) :
    (∃ cause vm, a.vm.Conserves vm ∧
      (enable key).perform a = (.error (.refused cause), a.setVm vm)) ∨
      ∃ b, Enables a key b ∧ Tidy a b ∧ (enable key).perform a = (.ok (), b) := by
  cases hheld : a.requests.notifications.get? key with
  | some held => exact .inr (enables_more hheld)
  | none =>
      rcases holdThread_cases key.2 hb with
        ⟨cause, vm, hconserves, hthread⟩ | ⟨thread, target, vm, hkeeps, hfor, hfreed, hthread⟩
      · refine .inl ⟨cause, vm, hconserves, ?_⟩
        simp [enable, perform_bind, hheld, hthread]
      · rcases Vm.setNotification_cases vm true key.1 thread with
          ⟨e, hcall, _⟩ | ⟨_, hdemand, _⟩
        · have htry := perform_tryCall_refused (a := a.setVm vm) hcall
          refine .inl ⟨e.toProtocol, freed thread vm, hfreed, ?_⟩
          simp only [Agent.setVm] at htry
          simp [enable, perform_bind, hheld, hthread, htry, perform_freeThread, Agent.setVm]
        · rw [Vm.demandFor_of_keeps hkeeps] at hdemand
          exact .inr (enables_first hheld hkeeps hfor hfreed hthread hdemand)

/-- The session is refused and nothing is left of it, or what it needs is enabled and it is open. -/
theorem opening_cases (canDeliver : Bool) (hb : a.vm.RefsBounded) :
    (∃ cause vm, a.vm.Conserves vm ∧
      (Agent.opening canDeliver).perform a = (.error (.refused cause), a.setVm vm)) ∨
      a.session = none ∧ ∃ b, Enables a (.vmDeath, none) b ∧ Tidy a b ∧
        (Agent.opening canDeliver).perform a = (.ok (), { b with session := some {} }) := by
  have hself : a.setVm a.vm = a := rfl
  cases hsession : a.session with
  | some session =>
      refine .inl ⟨.duplicate, a.vm, .refl a.vm, ?_⟩
      rw [hself]
      simp [Agent.opening, perform_bind, Agent.isAttached, hsession]
  | none =>
      cases canDeliver with
      | false =>
          refine .inl ⟨.internal, a.vm, .refl a.vm, ?_⟩
          rw [hself]
          simp [Agent.opening, perform_bind, Agent.isAttached, hsession]
      | true =>
          rcases enable_cases (.vmDeath, none) hb with
            ⟨cause, vm, hconserves, henable⟩ | ⟨b, henables, htidy, henable⟩
          · refine .inl ⟨cause, vm, hconserves, ?_⟩
            simp [Agent.opening, perform_bind, Agent.isAttached, hsession, henable]
          · refine .inr ⟨rfl, b, henables, htidy, ?_⟩
            simp [Agent.opening, perform_bind, Agent.isAttached, hsession, henable]

theorem disable_disables (a : Agent) (key : NotificationKey) :
    ∃ b, Disables a key b ∧ (disable key).perform a = (.ok (), b) := by
  cases hheld : a.requests.notifications.get? key with
  | none =>
      refine ⟨a, .unknown hheld, ?_⟩
      simp [disable, perform_bind, hheld]
  | some held =>
      by_cases hcount : 1 < held.count
      · refine ⟨_, .fewer hheld hcount, ?_⟩
        simp [disable, perform_bind, hheld, hcount, setNotifications, Agent.putNotifications]
      · -- the call to the machine comes after the table has forgotten the key
        let rest := a.putNotifications (a.requests.notifications.erase key)
        rcases Vm.setNotification_cases a.vm false key.1 held.thread with
          ⟨e, hcall, hrefused⟩ | ⟨target, hdemand, htarget⟩
        · have htry := perform_tryCall_refused (a := rest) hcall
          refine ⟨_, .stuck hheld (Nat.le_of_not_lt hcount) hrefused, ?_⟩
          simp only [rest, Agent.putNotifications] at htry
          simp [disable, perform_bind, hheld, hcount, setNotifications, Agent.putNotifications,
            htry, perform_freeThread, Agent.setVm]
        · have htry := perform_tryCall_ok (a := rest)
            (Vm.setNotification_ok hdemand htarget false)
          refine ⟨_, .last hheld (Nat.le_of_not_lt hcount) hdemand htarget, ?_⟩
          simp only [rest, Agent.putNotifications] at htry
          simp [disable, perform_bind, hheld, hcount, setNotifications, Agent.putNotifications,
            htry, perform_freeThread, Agent.setVm]

/-! ### Requests -/

/-- The table counts no request that is not there. -/
def CountsPositive (a : Agent) : Prop :=
  ∀ position, a.requests.breakpoints.get? position ≠ some 0

/-- Releasing a breakpoint right after it was held undoes the holding. -/
theorem Holds.undone {position : MethodId × CodeIndex} {b c : Agent} {vm : Vm}
    (hholds : Holds a (some position) b) (hpos : CountsPositive a) (hconserves : b.vm.Conserves vm)
    (hreleases : Releases (b.setVm vm) (some position) c) :
    ∃ vm', a.vm.Conserves vm' ∧ c = a.setVm vm' := by
  cases hholds with
  | more hcount =>
      rename_i count
      have hself := Table.get?_insert_self a.requests.breakpoints position (count + 1)
      have hne : count ≠ 0 := fun hzero => hpos position (hzero ▸ hcount)
      cases hreleases with
      | unknown hnone => cases hself.symm.trans hnone
      | last hone => cases hself.symm.trans hone; exact absurd rfl hne
      | stuck hone => cases hself.symm.trans hone; exact absurd rfl hne
      | fewer hmore =>
          cases hself.symm.trans hmore
          refine ⟨vm, hconserves, ?_⟩
          simp [Agent.putBreakpoints, Agent.setVm, Table.insert_insert hcount]
  | first hnone hallow hfree =>
      have hself := Table.get?_insert_self a.requests.breakpoints position 1
      have hset : vm.breakpoints = a.vm.breakpoints ++ [position] := hconserves.breakpoints
      cases hreleases with
      | unknown hunknown => cases hself.symm.trans hunknown
      | fewer hmore => cases hself.symm.trans hmore
      | stuck hone hrefused =>
          have hallow' : (a.vm.addBreakpoint position).AllowsBreakpoint position := hallow
          have hmem : position ∈ vm.breakpoints := by simp [hset]
          exact absurd hmem (hrefused (hallow'.of_keeps hconserves.toKeeps))
      | last hone =>
          have hsame : (vm.dropBreakpoint position).breakpoints = a.vm.breakpoints := by
            simp [Vm.dropBreakpoint, Vm.putBreakpoints, hset, List.filter_append,
              List.filter_eq_self]
            intro m i hmem hposition
            exact hfree (hposition ▸ hmem)
          refine ⟨vm.dropBreakpoint position, ?_, ?_⟩
          · exact ⟨⟨⟨hsame, hconserves.notifications, hconserves.capabilities, hconserves.tagged,
              hconserves.untagged, hconserves.threads, hconserves.methods⟩,
              ⟨hconserves.lastRef_le, hconserves.old_or_new⟩,
              fun hg => ⟨hg.isNull, (hconserves.globals ⟨hg.isNull, hg.get?⟩).get?⟩⟩,
              hconserves.globals_old⟩
          · simp [Agent.putBreakpoints, Agent.setVm, Table.erase_insert hnone]

theorem Holds.countsPositive {position : Option (MethodId × CodeIndex)}
    (hholds : Holds a position b) (hpos : CountsPositive a) : CountsPositive b := by
  intro p
  cases hholds with
  | none => exact hpos p
  | more hcount =>
      simp only [Agent.putBreakpoints, Table.get?_insert]
      split
      · simp
      · exact hpos p
  | first hnone hallow hfree =>
      simp only [Agent.putBreakpoints, Agent.setVm, Table.get?_insert]
      split
      · simp
      · exact hpos p

theorem Releases.countsPositive {position : Option (MethodId × CodeIndex)}
    (hreleases : Releases a position b) (hpos : CountsPositive a) : CountsPositive b := by
  intro p
  cases hreleases with
  | none | unknown => exact hpos p
  | fewer hcount =>
      simp only [Agent.putBreakpoints, Table.get?_insert]
      split
      · simp
      · exact hpos p
  | last hcount | stuck hcount hrefused =>
      simp only [Agent.putBreakpoints, Agent.setVm, Table.get?_erase]
      split
      · simp
      · exact hpos p

theorem Holds.ages {position : Option (MethodId × CodeIndex)} (hholds : Holds a position b) :
    a.vm.Ages b.vm := by
  obtain ⟨set, counts, rfl⟩ := hholds.eq
  exact .of_refs_eq rfl rfl

theorem Enables.ages {key : NotificationKey} (henables : Enables a key b) : a.vm.Ages b.vm := by
  obtain ⟨vm, enabled, held, hkeeps, rfl⟩ := henables.eq
  exact ⟨hkeeps.lastRef_le, hkeeps.old_or_new⟩

theorem Holds.tidy {position : Option (MethodId × CodeIndex)} (hholds : Holds a position b) :
    Tidy a b := by
  obtain ⟨set, counts, rfl⟩ := hholds.eq
  exact tidy_of_same (fun h => h) (held?_congr rfl rfl)

theorem Releases.tidy {position : Option (MethodId × CodeIndex)}
    (hreleases : Releases a position b) : Tidy a b := by
  obtain ⟨set, counts, rfl⟩ := hreleases.eq
  exact tidy_of_same (fun h => h) (held?_congr rfl rfl)

theorem Holds.idsBounded {position : Option (MethodId × CodeIndex)} (hholds : Holds a position b)
    (hids : IdsBounded a) : IdsBounded b := by
  obtain ⟨set, counts, rfl⟩ := hholds.eq
  exact hids.of_tracker_eq rfl

theorem Releases.idsBounded {position : Option (MethodId × CodeIndex)}
    (hreleases : Releases a position b) (hids : IdsBounded a) : IdsBounded b := by
  obtain ⟨set, counts, rfl⟩ := hreleases.eq
  exact hids.of_tracker_eq rfl

theorem Enables.idsBounded {key : NotificationKey} (henables : Enables a key b)
    (hids : IdsBounded a) : IdsBounded b := by
  obtain ⟨vm, enabled, held, hkeeps, rfl⟩ := henables.eq
  exact hids.of_tracker_eq rfl

/-- A registration gets all that it needs, or it is refused and leaves nothing behind. -/
theorem acquire_cases (registration : Registration) (hb : a.vm.RefsBounded)
    (hpos : CountsPositive a) :
    (∃ cause vm, a.vm.Conserves vm ∧
      (acquire registration).perform a = (.error (.refused cause), a.setVm vm)) ∨
      ∃ b c, Holds a registration.breakpoint b ∧ Enables b registration.notification c ∧
        Tidy a c ∧ (acquire registration).perform a = (.ok (), c) := by
  obtain ⟨position, key⟩ := registration
  cases position with
  | none =>
      rcases enable_cases key hb with ⟨cause, vm, hconserves, henable⟩ | ⟨c, henables, htidy, henable⟩
      · refine .inl ⟨cause, vm, hconserves, ?_⟩
        simp [acquire, perform_bind, attempt, henable]
      · refine .inr ⟨a, c, .none, henables, htidy, ?_⟩
        simp [acquire, perform_bind, attempt, henable]
  | some position =>
      rcases holdBreakpoint_cases a position with ⟨cause, hhold⟩ | ⟨b, hholds, hhold⟩
      · refine .inl ⟨cause, a.vm, .refl a.vm, ?_⟩
        simp [acquire, perform_bind, hhold, Agent.setVm]
      · rcases enable_cases key (hholds.ages.bounded hb) with
          ⟨cause, vm, hconserves, henable⟩ | ⟨c, henables, htidy, henable⟩
        · obtain ⟨c, hreleases, hrelease⟩ := releaseBreakpoint_releases (a := b.setVm vm)
            (hholds.countsPositive hpos position)
          obtain ⟨vm', hundone, rfl⟩ := hholds.undone hpos hconserves hreleases
          refine .inl ⟨cause, vm', hundone, ?_⟩
          simp [acquire, perform_bind, attempt, hhold, henable, hrelease]
        · refine .inr ⟨b, c, hholds, henables, hholds.tidy.trans hholds.idsBounded htidy, ?_⟩
          simp [acquire, perform_bind, attempt, hhold, henable]

theorem release_releases (registration : Registration) (hpos : CountsPositive a) :
    ∃ b c, Releases a registration.breakpoint b ∧ Disables b registration.notification c ∧
      (release registration).perform a = (.ok (), c) := by
  obtain ⟨position, key⟩ := registration
  cases position with
  | none =>
      obtain ⟨c, hdisables, hdisable⟩ := disable_disables a key
      refine ⟨a, c, .none, hdisables, ?_⟩
      simp [release, hdisable]
  | some position =>
      obtain ⟨b, hreleases, hrelease⟩ := releaseBreakpoint_releases (hpos position)
      obtain ⟨c, hdisables, hdisable⟩ := disable_disables b key
      refine ⟨b, c, hreleases, hdisables, ?_⟩
      simp [release, perform_bind, hrelease, hdisable]

/-- Removing a request succeeds. -/
theorem remove_releases (request : Request) (hpos : CountsPositive a) :
    ∃ b c, Releases (a.dropRequest request.id) request.registration.breakpoint b ∧
      Disables b request.registration.notification c ∧
        (remove request).perform a = (.ok (), c) := by
  obtain ⟨b, c, hreleases, hdisables, hrelease⟩ :=
    release_releases (a := a.dropRequest request.id) request.registration hpos
  refine ⟨b, c, hreleases, hdisables, ?_⟩
  simp only [Agent.dropRequest] at hrelease
  simp [remove, perform_bind, hrelease]

end Registration

end DebugAgent
