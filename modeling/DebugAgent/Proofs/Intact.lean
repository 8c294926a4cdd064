import DebugAgent.Proofs.Calls
import DebugAgent.Proofs.Commands
import DebugAgent.Proofs.Progress

/-!
# Commands on intact states

A state of the agent is intact if its machine has no loose ends and no counter of the request table
stands for nothing.  Whatever the agent does at the boundary of a command, for whatever arguments, it
does not break on an intact state, and leaves one.
-/

namespace DebugAgent

open DebugAgent.Action Command

/-- What is named is there, and what is counted is there at least once. -/
structure Agent.Intact (a : Agent) : Prop where
  closed : a.vm.Closed
  breakpoints : a.requests.breakpoints.All fun count => 0 < count
  notifications : a.requests.notifications.All fun held => 0 < held.count

variable {a : Agent} {may : Control → Prop} {α : Type}

theorem Agent.Intact.setVm (h : a.Intact) {vm : Vm} (hc : vm.Closed) : (a.setVm vm).Intact :=
  ⟨hc, h.breakpoints, h.notifications⟩

/-! ### Calls of the machine -/

namespace Command

theorem safe_native {x : Action Vm ProtocolError α} (hx : x.Safe Vm.Closed) :
    (native x).Safe Agent.Intact :=
  safe_within hx (fun _ h => h.closed) fun _ _ h hc => h.setVm hc

theorem safe_call {x : Call α} (hx : x.Safe Vm.Closed) : (call x).Safe Agent.Intact :=
  safe_native (safe_mapCause _ hx)

theorem safe_tryCall {x : Call α} (hx : x.Safe Vm.Closed) : (tryCall x).Safe Agent.Intact :=
  safe_native (safe_attempt hx)

theorem safe_touch {f : Vm → α × Vm} (hf : ∀ vm, vm.Closed → (f vm).2.Closed) :
    (touch f).Safe Agent.Intact :=
  safe_update fun a h => h.setVm (hf a.vm h.closed)

theorem safe_adjust {f : Vm → Vm} (hf : ∀ vm, vm.Closed → (f vm).Closed) :
    (adjust f).Safe Agent.Intact :=
  safe_change fun a h => h.setVm (hf a.vm h.closed)

theorem closed_dropLocals (hs : List Handle) {vm : Vm} (hc : vm.Closed) :
    (hs.foldl dropLocal vm).Closed := by
  induction hs generalizing vm with
  | nil => exact hc
  | cons h hs ih =>
      apply ih
      rw [dropLocal]
      split
      · exact hc
      · exact hc.deleteRef .localRef h

theorem safe_withLocals (hs : List Handle) {x : Command α} (hx : x.Safe Agent.Intact) :
    (withLocals hs x).Safe Agent.Intact :=
  safe_ensuring hx fun _ h => h.setVm (closed_dropLocals hs h.closed)

theorem safe_clearing {x : Command α} (hx : x.Safe Agent.Intact) :
    (Reading.clearing x).Safe Agent.Intact :=
  safe_bind hx fun _ =>
    safe_bind (safe_adjust fun _ hc => hc.clearException) fun _ => safe_pure _

theorem safe_attach (caller : NativeThread) : (attach caller).Safe Agent.Intact :=
  safe_bind (safe_look _) fun _ => safe_bind (safe_guard _ _) fun _ =>
    safe_adjust fun _ hc => hc.attach caller

theorem safe_trackNew (h : Handle) : (Tracking.trackNew h).Safe Agent.Intact := by
  have hset : ∀ tracker, (Tracking.setTracker tracker).Safe Agent.Intact :=
    fun tracker => safe_change fun _ ha => ⟨ha.closed, ha.breakpoints, ha.notifications⟩
  refine safe_ite (safe_pure _) (safe_bind (safe_call (Vm.safe_getTag h)) fun tag => ?_)
  refine safe_bind (safe_look _) fun tracker => ?_
  split
  · exact safe_bind (hset _) fun _ => safe_pure _
  · refine safe_bind (safe_call (Vm.safe_setTag h _)) fun _ => ?_
    refine safe_bind (safe_touch fun _ hc => hc.newGlobalRef h) fun global => ?_
    exact safe_bind (safe_guard _ _) fun _ => safe_bind (hset _) fun _ => safe_pure _

/-! ### Commands that look -/

theorem Opens.safe {x : Command α} {owned : α → List Handle} (h : Opens x owned) :
    x.Safe Agent.Intact := by
  cases h with
  | acquire id =>
      apply safe_bind (safe_look _)
      intro tracker
      split
      · exact safe_touch fun _ hc => hc.newLocalRef _
      · exact safe_pure _
  | another h => exact safe_touch fun _ hc => hc.newLocalRef h
  | objectClass h => exact safe_native (Vm.safe_objectClassRef h)
  | superclass cls => exact safe_touch fun _ hc => hc.superclassRef cls
  | declaringClass method => exact safe_call (Vm.safe_methodDeclaringClass method)
  | loadedClasses => exact safe_call Vm.safe_loadedClasses
  | interfaces cls => exact safe_call (Vm.safe_implementedInterfaces cls)
  | allThreads => exact safe_call Vm.safe_allThreads
  | threadGroups => exact safe_call Vm.safe_topThreadGroups
  | currentThread caller => exact safe_tryCall (Vm.safe_currentThread caller)
  | threadInfo thread => exact safe_call (Vm.safe_threadInfo thread)
  | localVariable thread depth slot kind => exact safe_call (Vm.safe_getLocal thread depth slot kind)
  | receiver thread => exact safe_tryCall (Vm.safe_getLocal thread 0 0 .object)
  | staticField cls field kind =>
      exact safe_clearing (safe_touch fun _ hc => hc.staticField cls field kind)
  | instanceField object field kind =>
      exact safe_clearing (safe_native (Vm.safe_instanceField object field kind))
  | arrayElement array index =>
      exact safe_clearing (safe_native (Vm.safe_arrayElement array index))

theorem Looks.safe {x : Command α} (h : Looks may x) : x.Safe Agent.Intact := by
  induction h with
  | pure a => exact safe_pure a
  | look f => exact safe_look f
  | inspect f => exact safe_inspect f
  | bind _ _ ihx ihf => exact safe_bind ihx ihf
  | bracket hx _ hg ih =>
      apply safe_bind hx.safe
      intro r
      rw [hg]
      exact safe_withLocals _ (ih r)
  | attach _ caller => exact safe_attach caller
  | trackNew h => exact safe_trackNew h
  | suspendThread _ caller h => exact safe_call (Vm.safe_suspendThread caller h)
  | suspendThreads _ caller hs => exact safe_call (Vm.safe_suspendThreads caller hs)
  | resumeThread _ h => exact safe_call (Vm.safe_resumeThread h)
  | resumeThreads _ hs => exact safe_call (Vm.safe_resumeThreads hs)
  | arrayLength array => exact safe_native (Vm.safe_arrayLength array)
  | stringChars h => exact safe_native (Vm.safe_stringChars h)
  | arrayRegion array kind first length =>
      exact safe_clearing (safe_native (Vm.safe_arrayRegion array kind first length))

end Command

/-! ### Setting and clearing requests -/

namespace Registration

theorem safe_withThread (id : ObjectId) {x : Handle → Command α}
    (hx : ∀ h, (x h).Safe Agent.Intact) : (Tracking.withThread id x).Safe Agent.Intact :=
  safe_bind (Opens.acquire id).safe fun h => safe_withLocals [h] <|
    safe_bind (safe_look _) fun _ => safe_bind (safe_guard _ _) fun _ => hx h

theorem safe_holdThread (thread : Option ObjectId) : (holdThread thread).Safe Agent.Intact := by
  cases thread with
  | none => exact safe_pure none
  | some id =>
      apply safe_withThread id
      intro h
      refine safe_bind (safe_touch fun _ hc => hc.newGlobalRef h) fun global => ?_
      exact safe_bind (safe_guard _ _) fun _ => safe_pure _

theorem safe_freeThread (thread : Option Handle) : (freeThread thread).Safe Agent.Intact := by
  cases thread with
  | none => exact safe_pure ()
  | some global => exact safe_adjust fun _ hc => hc.deleteRef .globalRef global

theorem safe_setNotifications {notifications : Table NotificationKey Notification}
    (hpos : notifications.All fun held => 0 < held.count) :
    (setNotifications notifications).Safe Agent.Intact :=
  safe_change fun _ ha => ⟨ha.closed, ha.breakpoints, hpos⟩

theorem safe_setBreakpoints {breakpoints : Table (MethodId × CodeIndex) Nat}
    (hpos : breakpoints.All fun count => 0 < count) :
    (setBreakpoints breakpoints).Safe Agent.Intact :=
  safe_change fun _ ha => ⟨ha.closed, hpos, ha.notifications⟩

theorem safe_enable (key : NotificationKey) : (enable key).Safe Agent.Intact := by
  refine fun a ha => .look ?_
  split
  · exact safe_setNotifications (ha.notifications.insert key (Nat.succ_pos _)) a ha
  · refine safe_bind (safe_holdThread key.2) (fun thread => ?_) a ha
    refine safe_bind (safe_tryCall (Vm.safe_setNotification _ _ _)) fun outcome => ?_
    cases outcome with
    | ok _ => exact safe_setNotifications (ha.notifications.insert key Nat.one_pos)
    | error e => exact safe_bind (safe_freeThread thread) fun _ => safe_refuse _

/-- A counter that is taken down is more than 1. -/
theorem safe_disable (key : NotificationKey) : (disable key).Safe Agent.Intact := by
  refine fun a ha => .look ?_
  split
  · exact .pure () ha
  · rename_i held hheld
    split
    · rename_i hmore
      exact safe_setNotifications (ha.notifications.insert key (Nat.sub_pos_of_lt hmore)) a ha
    · refine safe_bind (safe_setNotifications (ha.notifications.erase key)) (fun _ => ?_) a ha
      refine safe_bind (safe_tryCall (Vm.safe_setNotification _ _ _)) fun _ => ?_
      exact safe_freeThread held.thread

theorem safe_holdBreakpoint (position : MethodId × CodeIndex) :
    (holdBreakpoint position).Safe Agent.Intact := by
  refine fun a ha => .look ?_
  split
  · exact safe_setBreakpoints (ha.breakpoints.insert position (Nat.succ_pos _)) a ha
  · refine safe_bind (safe_call (Vm.safe_setBreakpoint _ _)) (fun _ => ?_) a ha
    exact safe_setBreakpoints (ha.breakpoints.insert position Nat.one_pos)

/-- A counter that is taken down is at least 1. -/
theorem safe_releaseBreakpoint (position : MethodId × CodeIndex) :
    (releaseBreakpoint position).Safe Agent.Intact := by
  refine fun a ha => .look ?_
  split
  · exact .pure () ha
  · rename_i hzero
    exact absurd (ha.breakpoints hzero) (Nat.lt_irrefl 0)
  · refine safe_bind (safe_setBreakpoints (ha.breakpoints.erase position)) (fun _ => ?_) a ha
    exact safe_bind (safe_tryCall (Vm.safe_clearBreakpoint _ _)) fun _ => safe_pure ()
  · rename_i count hone hcount
    have hpos : 0 < count := Nat.pos_of_ne_zero fun hzero => hone (hzero ▸ rfl)
    exact safe_setBreakpoints (ha.breakpoints.insert position hpos) a ha

theorem safe_acquire (registration : Registration) :
    (acquire registration).Safe Agent.Intact := by
  obtain ⟨position, key⟩ := registration
  have henable : ((enable key).attempt : Command _).Safe Agent.Intact :=
    safe_attempt (safe_enable key)
  cases position with
  | none =>
      refine safe_bind henable fun outcome => ?_
      cases outcome with
      | ok _ => exact safe_pure ()
      | error cause => exact safe_refuse cause
  | some position =>
      refine safe_bind (safe_holdBreakpoint position) fun _ => safe_bind henable fun outcome => ?_
      cases outcome with
      | ok _ => exact safe_pure ()
      | error cause => exact safe_bind (safe_releaseBreakpoint position) fun _ => safe_refuse cause

/-- What a request holds is given back. -/
theorem safe_release (registration : Registration) :
    (release registration).Safe Agent.Intact := by
  obtain ⟨position, key⟩ := registration
  cases position with
  | none => exact safe_disable key
  | some position => exact safe_bind (safe_releaseBreakpoint position) fun _ => safe_disable key

theorem safe_remove (request : Request) : (remove request).Safe Agent.Intact :=
  safe_bind (safe_change fun _ ha => ⟨ha.closed, ha.breakpoints, ha.notifications⟩) fun _ =>
    safe_release request.registration

theorem safe_register (kind : EventKind) (policy : SuspendPolicy)
    (modifiers : List EventModifier) : (register kind policy modifiers).Safe Agent.Intact := by
  have hfilters : Looks Control.Any (modifiers.mapM (filterOf kind)) :=
    looks_mapM (looks_filterOf kind) modifiers
  refine safe_bind (safe_guard _ _) fun _ => safe_bind hfilters.safe fun filters => ?_
  refine safe_bind (safe_inspect _) fun registration => ?_
  refine safe_bind (safe_acquire registration) fun _ => ?_
  refine safe_bind (safe_look _) fun id => safe_bind ?_ fun _ => safe_pure id
  exact safe_change fun _ ha => ⟨ha.closed, ha.breakpoints, ha.notifications⟩

theorem safe_clear (kind : EventKind) (id : RequestId) : (clear kind id).Safe Agent.Intact := by
  apply safe_bind (safe_look _)
  intro requests
  split
  · exact safe_bind (safe_guard _ _) fun _ => safe_remove _
  · exact safe_refuse _

theorem safe_clearBreakpoints : clearBreakpoints.Safe Agent.Intact :=
  safe_bind (safe_look _) fun _ => safe_forM safe_remove _

end Registration

/-! ### Giving identifiers back -/

namespace Tracking

theorem safe_forget (id : ObjectId) (entry : Tracked) :
    (change (forget id entry) : Command Unit).Safe Agent.Intact :=
  safe_change fun _ ha =>
    ⟨ha.closed.deleteRef .globalRef entry.global, ha.breakpoints, ha.notifications⟩

theorem safe_release (id : ObjectId) : (Tracking.release id).Safe Agent.Intact :=
  safe_bind (safe_look _) fun _ => safe_bind (safe_require _ _) fun entry => safe_forget id entry

theorem safe_dispose (id : ObjectId) (count : Nat) :
    (Tracking.dispose id count).Safe Agent.Intact := by
  refine safe_bind (safe_look _) fun tracker => safe_bind (safe_require _ _) fun entry => ?_
  refine safe_ite (safe_forget id entry) (safe_change fun _ ha => ?_)
  exact ⟨ha.closed, ha.breakpoints, ha.notifications⟩

end Tracking

/-! ### At the boundary -/

namespace Command

theorem Deed.safe {x : Command Reply} (h : Deed may x) : x.Safe Agent.Intact := by
  have hdone : ∀ {x : Command Unit}, x.Safe Agent.Intact → (done x).Safe Agent.Intact :=
    fun hx => safe_bind hx fun _ => safe_pure _
  cases h with
  | looks hx => exact hx.safe
  | dispose requests =>
      refine hdone (safe_forM (fun request => ?_) requests)
      exact safe_map _ (safe_attempt (Tracking.safe_dispose request.objectId request.count))
  | set kindCode policy modifiers =>
      exact safe_map _ (safe_bind (safe_inspect _) fun kind =>
        Registration.safe_register kind policy modifiers)
  | clear kindCode id =>
      exact hdone (safe_bind (safe_inspect _) fun kind => Registration.safe_clear kind id)
  | clearBreakpoints => exact hdone Registration.safe_clearBreakpoints

theorem safe_ofClient (caller : NativeThread) (command : ClientCommand) :
    (ofClient caller command).Safe Agent.Intact :=
  (deed_ofClient caller command).safe

end Command

namespace Firing

theorem safe_visit (ctx : Context) (pass : Pass) (request : Request) :
    (visit ctx pass request).Safe Agent.Intact := by
  refine safe_bind (safe_look _) fun stepThread => ?_
  have hcheck : Looks Control.Any (request.filters.allM (Filter.check ctx stepThread)) :=
    looks_allM (Filter.looks_check ctx stepThread) request.filters
  refine safe_bind hcheck.safe fun fires => ?_
  refine safe_ite (safe_bind ?_ fun _ => safe_pure _) (safe_pure _)
  exact safe_change fun _ ha => ⟨ha.closed, ha.breakpoints, ha.notifications⟩

theorem safe_process (c : Callback Handle) : (process c).Safe Agent.Intact := by
  have hcapture : ∀ wantsReceiver, Looks Control.Any (Capture.capture wantsReceiver c) :=
    fun wantsReceiver => Capture.looks_capture wantsReceiver c
  refine safe_bind (safe_look _) fun requests => safe_ite (safe_pure _) ?_
  refine safe_bind (hcapture _).safe fun ctx => ?_
  refine safe_bind (safe_look _) fun _ => safe_bind (safe_foldlM (safe_visit ctx) _ _) fun pass => ?_
  exact safe_bind (safe_forM Registration.safe_remove _) fun _ => safe_pure _

end Firing

end DebugAgent
