import DebugAgent.Proofs.Progress

/-!
# What is left of the machine

Whatever the client asks for, the agent's state changes by inspections, by what the machine is told
about breakpoints and notifications, by global references that come and go, and by entries in the
agent's own books.  `Move` lists these changes without saying when each is made: it is about the rest
of the machine, which none of them touches.  In particular threads are stopped and resumed by those
commands only that may do so.
-/

namespace DebugAgent

open DebugAgent.Action Command Tracking

/-- A change of the machine by what it is told to call back for. -/
inductive Vm.Told (vm : Vm) : Vm → Prop where
  | breakpoints (set : List (MethodId × CodeIndex)) : Told vm (vm.putBreakpoints set)
  | notifications (enabled : List (CallbackKind × Option HeapId)) :
      Told vm (vm.putNotifications enabled)

/-- A small change of the agent's state, by a command that does to threads what it may. -/
inductive Move (may : Control → Prop) (a : Agent) : Agent → Prop where
  | inspection {b} (h : Inspection may a b) : Move may a b
  | told {vm} (h : a.vm.Told vm) : Move may a (a.setVm vm)
  | holdRef (object : HeapId) : Move may a (a.setVm (a.vm.newRef .globalRef object).2)
  | freeRef (h : Handle) : Move may a (a.setVm (a.vm.deleteGlobalRef h))
  | tracker (tracker : Tracker) : Move may a { a with tracker }
  | requests (requests : RequestTable) : Move may a { a with requests }

variable {may : Control → Prop} {α β : Type}

theorem Command.Looks.moves {x : Command α} (hx : Looks may x) : x.Makes (Move may) :=
  hx.makes.mono fun _ _ => .inspection

theorem moves_setRequests {f : Agent → RequestTable} :
    (change (fun a => { a with requests := f a }) : Command Unit).Makes (Move may) :=
  makes_change fun a => .single (.requests (f a))

/-! ### The machine is told -/

namespace Vm

theorem makes_setBreakpoint (method : MethodId) (location : CodeIndex) :
    (setBreakpoint method location).Makes Told := by
  refine makes_bind (makes_inspect _) fun _ => makes_bind (makes_inspect _) fun decl => ?_
  refine makes_ite (makes_refuse _) (makes_bind (makes_look _) fun _ => ?_)
  exact makes_ite (makes_refuse _) (makes_change fun _ => .single (.breakpoints _))

theorem makes_clearBreakpoint (method : MethodId) (location : CodeIndex) :
    (clearBreakpoint method location).Makes Told := by
  refine makes_bind (makes_inspect _) fun _ => makes_bind (makes_inspect _) fun _ => ?_
  refine makes_bind (makes_look _) fun _ => ?_
  exact makes_ite (makes_change fun _ => .single (.breakpoints _)) (makes_refuse _)

theorem makes_setNotification (enable : Bool) (kind : CallbackKind) (thread : Option Handle) :
    (setNotification enable kind thread).Makes Told :=
  makes_bind (makes_inspect _) fun _ => makes_bind (makes_inspect _) fun _ =>
    makes_change fun _ => .single (.notifications _)

end Vm

/-! ### Setting and clearing requests -/

namespace Registration

theorem moves_withThread (id : ObjectId) {x : Handle → Command α}
    (hx : ∀ h, (x h).Makes (Move may)) : (withThread id x).Makes (Move may) := by
  refine makes_bind ((Opens.acquire id).makes.mono fun _ _ => .inspection) fun h => ?_
  refine makes_ensuring ?_ fun a => ?_
  · exact makes_bind (makes_look _) fun _ => makes_bind (makes_guard _ _) fun _ => hx h
  · exact Relation.ReflTransGen.mono (fun _ _ => .inspection) _ _
      (inspects_of_glances (Vm.glance_dropLocals [h] a.vm))

theorem moves_holdThread (thread : Option ObjectId) : (holdThread thread).Makes (Move may) := by
  cases thread with
  | none => exact makes_pure none
  | some id =>
      apply moves_withThread id
      intro h
      refine makes_bind (makes_update fun a => ?_) fun global => ?_
      · rw [Vm.newGlobalRef]
        split
        · exact .single (.holdRef _)
        · exact .refl
      · exact makes_bind (makes_guard _ _) fun _ => makes_pure _

theorem moves_freeThread (thread : Option Handle) : (freeThread thread).Makes (Move may) := by
  cases thread with
  | none => exact makes_pure ()
  | some global => exact makes_change fun _ => .single (.freeRef global)

theorem moves_enable (key : NotificationKey) : (enable key).Makes (Move may) := by
  apply makes_bind (makes_look _)
  intro notifications
  split
  · exact moves_setRequests
  · refine makes_bind (moves_holdThread key.2) fun thread => ?_
    refine makes_bind (makes_tryCall .told (Vm.makes_setNotification _ _ _)) fun outcome => ?_
    cases outcome with
    | ok _ => exact moves_setRequests
    | error e => exact makes_bind (moves_freeThread thread) fun _ => makes_refuse _

theorem moves_disable (key : NotificationKey) : (disable key).Makes (Move may) := by
  apply makes_bind (makes_look _)
  intro notifications
  split
  · exact makes_pure ()
  · apply makes_ite moves_setRequests
    refine makes_bind moves_setRequests fun _ => ?_
    refine makes_bind (makes_tryCall .told (Vm.makes_setNotification _ _ _)) fun _ => ?_
    exact moves_freeThread _

theorem moves_holdBreakpoint (position : MethodId × CodeIndex) :
    (holdBreakpoint position).Makes (Move may) := by
  apply makes_bind (makes_look _)
  intro breakpoints
  split
  · exact moves_setRequests
  · exact makes_bind (makes_call .told (Vm.makes_setBreakpoint _ _)) fun _ => moves_setRequests

theorem moves_releaseBreakpoint (position : MethodId × CodeIndex) :
    (releaseBreakpoint position).Makes (Move may) := by
  apply makes_bind (makes_look _)
  intro breakpoints
  split
  · exact makes_pure ()
  · exact makes_of_eq fun _ => rfl
  · refine makes_bind moves_setRequests fun _ => ?_
    exact makes_bind (makes_tryCall .told (Vm.makes_clearBreakpoint _ _)) fun _ => makes_pure ()
  · exact moves_setRequests

theorem moves_acquire (registration : Registration) :
    (acquire registration).Makes (Move may) := by
  obtain ⟨position, key⟩ := registration
  have henable : ((enable key).attempt : Command _).Makes (Move may) :=
    makes_attempt (moves_enable key)
  cases position with
  | none =>
      refine makes_bind henable fun outcome => ?_
      cases outcome with
      | ok _ => exact makes_pure ()
      | error cause => exact makes_refuse cause
  | some position =>
      refine makes_bind (moves_holdBreakpoint position) fun _ => makes_bind henable fun outcome => ?_
      cases outcome with
      | ok _ => exact makes_pure ()
      | error cause =>
          exact makes_bind (moves_releaseBreakpoint position) fun _ => makes_refuse cause

theorem moves_release (registration : Registration) :
    (release registration).Makes (Move may) := by
  obtain ⟨position, key⟩ := registration
  cases position with
  | none => exact moves_disable key
  | some position => exact makes_bind (moves_releaseBreakpoint position) fun _ => moves_disable key

theorem moves_register (kind : EventKind) (policy : SuspendPolicy)
    (modifiers : List EventModifier) : (register kind policy modifiers).Makes (Move may) := by
  refine makes_bind (looks_guard _ _).moves fun _ => ?_
  refine makes_bind (looks_mapM (looks_filterOf kind) modifiers).moves fun filters => ?_
  refine makes_bind (looks_ofExcept _).moves fun registration => ?_
  refine makes_bind (moves_acquire registration) fun _ => makes_bind (makes_look _) fun id => ?_
  exact makes_bind moves_setRequests fun _ => makes_pure id

theorem moves_remove (request : Request) : (remove request).Makes (Move may) :=
  makes_bind moves_setRequests fun _ => moves_release _

theorem moves_clear (kind : EventKind) (id : RequestId) : (clear kind id).Makes (Move may) := by
  apply makes_bind (makes_look _)
  intro requests
  split
  · exact makes_bind (makes_guard _ _) fun _ => moves_remove _
  · exact makes_refuse _

theorem moves_clearBreakpoints : clearBreakpoints.Makes (Move may) :=
  makes_bind (makes_look _) fun _ => makes_forM moves_remove _

end Registration

/-! ### Giving identifiers back -/

namespace Tracking

theorem moves_forget (id : ObjectId) (entry : Tracked) :
    (change (forget id entry) : Command Unit).Makes (Move may) :=
  makes_change fun a => .head (.freeRef entry.global) (.single (.tracker (a.tracker.remove id)))

theorem moves_release (id : ObjectId) : (Tracking.release id).Makes (Move may) :=
  makes_bind (makes_look _) fun _ => makes_bind (makes_require _ _) fun entry =>
    moves_forget id entry

theorem moves_dispose (id : ObjectId) (count : Nat) :
    (Tracking.dispose id count).Makes (Move may) := by
  refine makes_bind (makes_look _) fun tracker => makes_bind (makes_require _ _) fun entry => ?_
  exact makes_ite (moves_forget id entry) (makes_change fun _ => .single (.tracker _))

theorem moves_disposeObjects (requests : List DisposeRequest) :
    (Machine.disposeObjects requests).Makes (Move may) := by
  refine makes_forM (fun request => ?_) requests
  exact makes_map _ (makes_attempt (moves_dispose request.objectId request.count))

end Tracking

/-! ### Commands and callbacks -/

theorem Command.Deed.moves {x : Command Reply} (h : Deed may x) : x.Makes (Move may) := by
  have hdone : ∀ {x : Command Unit}, x.Makes (Move may) → (done x).Makes (Move may) :=
    fun hx => makes_bind hx fun _ => makes_pure _
  cases h with
  | looks hx => exact hx.moves
  | dispose requests => exact hdone (moves_disposeObjects requests)
  | set kindCode policy modifiers =>
      exact makes_map _ (makes_bind (looks_ofExcept _).moves fun kind =>
        Registration.moves_register kind policy modifiers)
  | clear kindCode id =>
      exact hdone (makes_bind (looks_ofExcept _).moves fun kind =>
        Registration.moves_clear kind id)
  | clearBreakpoints => exact hdone Registration.moves_clearBreakpoints

namespace Firing

theorem moves_visit (ctx : Context) (pass : Pass) (request : Request) :
    (visit ctx pass request).Makes (Move may) := by
  refine makes_bind (makes_look _) fun stepThread => ?_
  refine makes_bind (looks_allM (Filter.looks_check ctx stepThread) _).moves fun fires => ?_
  exact makes_ite (makes_bind moves_setRequests fun _ => makes_pure _) (makes_pure _)

theorem moves_process (c : Callback Handle) : (process c).Makes (Move may) := by
  refine makes_bind (makes_look _) fun requests => makes_ite (makes_pure _) ?_
  refine makes_bind (Capture.looks_capture _ c).moves fun ctx => ?_
  refine makes_bind (makes_look _) fun _ => ?_
  refine makes_bind (makes_foldlM (moves_visit ctx) _ _) fun pass => ?_
  exact makes_bind (makes_forM Registration.moves_remove _) fun _ => makes_pure _

end Firing

/-- Opening the session is a number of moves, but for the session itself. -/
theorem makes_opening {R : Agent → Agent → Prop} (canDeliver : Bool)
    (hmove : ∀ {a b}, Move Control.Any a b → R a b)
    (hsession : ∀ (a : Agent) (session : Option Session), R a { a with session }) :
    (Agent.opening canDeliver).Makes R := by
  refine makes_bind (makes_look _) fun _ => makes_bind (makes_guard _ _) fun _ => ?_
  refine makes_bind (makes_guard _ _) fun _ => ?_
  refine makes_bind ((Registration.moves_enable _).mono fun _ _ => hmove) fun _ => ?_
  exact makes_change fun a => .single (hsession a _)

/-! ### Whether threads can be attached -/

section Attaching

variable {a b : Agent}

theorem Inspection.attachFails (h : Inspection may a b) : b.vm.attachFails = a.vm.attachFails := by
  cases h with
  | glance h =>
      cases h with
      | closeRef h =>
          obtain ⟨refs, heq⟩ := a.vm.deleteRef_eq .localRef h
          exact (congrArg Vm.attachFails heq :)
      | openRef | raise | clearException | countFieldRead => rfl
  | attach _ caller => exact attachFails_attach a.vm caller
  | halt _ h => cases h <;> rfl
  | resume _ h => cases h; rfl
  | recount | enrol => rfl

theorem Move.attachFails (h : Move may a b) : b.vm.attachFails = a.vm.attachFails := by
  cases h with
  | inspection h => exact h.attachFails
  | told h => cases h <;> rfl
  | freeRef h =>
      obtain ⟨refs, heq⟩ := a.vm.deleteRef_eq .globalRef h
      exact (congrArg Vm.attachFails heq :)
  | holdRef | tracker | requests => rfl

/-- Native threads can be attached in both states or in neither. -/
abbrev AttachesAlike (a b : Agent) : Prop := b.vm.attachFails = a.vm.attachFails

/-- Whether threads can be attached does not depend on what is answered. -/
theorem attachFails_answer {x : Command α} (hx : x.Makes AttachesAlike) (caller : NativeThread)
    (a : Agent) : (answer caller x a).2.vm.attachFails = a.vm.attachFails := by
  have hlooks : Looks Control.Any (attach caller) := .attach trivial caller
  have hattach : (attach caller).Makes AttachesAlike :=
    hlooks.moves.mono fun _ _ => Move.attachFails
  rw [answer_snd]
  exact (makes_bind hattach fun _ => hx).same (f := fun b => b.vm.attachFails) id a

/-- A command succeeds only where native threads can be attached, and there they still can be after
it. -/
theorem attaches_of_answer {x : Command α} (hx : x.Makes AttachesAlike) {caller : NativeThread}
    {r : α} (hanswer : answer caller x a = (.ok r, b)) : b.vm.attachFails = false := by
  have hsame := attachFails_answer hx caller a
  rw [hanswer] at hsame
  cases hbefore : a.vm.attachFails with
  | false => exact hsame.trans hbefore
  | true =>
      rw [answer_of_not_attaching hbefore] at hanswer
      cases hanswer

theorem attachesAlike_ofClient (caller : NativeThread) (command : ClientCommand) :
    (ofClient caller command).Makes AttachesAlike :=
  (deed_ofClient caller command).moves.mono fun _ _ => Move.attachFails

theorem attachesAlike_opening (canDeliver : Bool) :
    (Agent.opening canDeliver).Makes AttachesAlike :=
  makes_opening canDeliver Move.attachFails fun _ _ => rfl

end Attaching

end DebugAgent
