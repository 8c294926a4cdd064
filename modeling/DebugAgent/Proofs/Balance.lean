import DebugAgent.Proofs.Locals

/-!
# Every command gives back what it takes

No command of the client, the opening of the session included, and no callback leaves a local
reference behind or an exception pending, however it ends.  For commands that only look this is an
induction on how they are put together; what is left are the commands on event requests and on
identifiers given back, the opening of the session, and the way of a callback through the agent.
-/

namespace DebugAgent

open DebugAgent.Action Command Tracking

namespace Command

variable {α β : Type} {raises : Bool} {owned : α → List Handle}

/-! ### The machine seen from a command -/

theorem lends_native {x : Action Vm ProtocolError α} (hx : Lends id raises owned x) :
    Lends Agent.vm raises owned (native x) :=
  fun a hb => hx a.vm hb

theorem lends_call {x : Call α} (hx : Lends id raises owned x) :
    Lends Agent.vm raises owned (call x) :=
  lends_native (lends_mapCause JvmtiError.toProtocol hx)

theorem lends_tryCall {x : Call α} (hx : Lends id false owned x) :
    Lends Agent.vm false (ifOk owned) (tryCall x) :=
  lends_native (lends_attempt hx)

theorem balanced_tryCall {x : Call α} (hx : Balanced id x) : Balanced Agent.vm (tryCall x) :=
  lends_native (balanced_attempt hx)

theorem lends_touch {f : Vm → α × Vm} (h : ∀ vm : Vm, vm.RefsBounded →
    vm.Opened raises (owned (f vm).1) (f vm).2) : Lends Agent.vm raises owned (touch f) :=
  lends_update fun a hb => h a.vm hb

theorem balanced_adjust {f : Vm → Vm} (h : ∀ vm : Vm, vm.RefsBounded →
    vm.Opened false [] (f vm)) : Balanced Agent.vm (adjust f) :=
  balanced_change fun a hb => h a.vm hb

/-- A change that leaves the machine alone. -/
theorem balanced_aside {f : Agent → Agent} (h : ∀ a, (f a).vm = a.vm) :
    Balanced Agent.vm (change f : Command Unit) :=
  balanced_change fun a _ => by
    rw [h a]
    exact .refl _

/-- Whatever exception a read raises is cleared. -/
theorem lends_clearing {x : Command α} (hx : Lends Agent.vm true owned x) :
    Lends Agent.vm false owned (Reading.clearing x) := by
  intro a hb
  have hopened := hx a hb
  simp only [Reading.clearing, perform_bind]
  cases hperform : x.perform a with
  | mk result b =>
      rw [hperform] at hopened
      cases result with
      | ok r => exact Vm.Opened.clearException hopened
      | error stop => exact hopened

theorem Opens.lends {x : Command α} (h : Opens x owned) : Lends Agent.vm false owned x := by
  cases h with
  | acquire id =>
      apply lends_bind (balanced_look _)
      intro tracker
      split
      · exact lends_touch fun _ hb => Vm.opened_newLocalRef hb _
      · exact fun a _ => Vm.opened_null a.vm
  | another h => exact lends_touch fun _ hb => Vm.opened_newLocalRef hb h
  | objectClass h => exact lends_native (Vm.lends_objectClassRef h)
  | superclass cls => exact lends_touch fun _ hb => Vm.opened_superclassRef hb cls
  | declaringClass method => exact lends_call (Vm.lends_methodDeclaringClass method)
  | loadedClasses => exact lends_call (Vm.lends_newLocals Vm.classIds)
  | interfaces cls => exact lends_call (Vm.lends_implementedInterfaces cls)
  | allThreads => exact lends_call (Vm.lends_newLocals Vm.liveThreadIds)
  | threadGroups => exact lends_call (Vm.lends_newLocals fun _ => [Vm.systemGroup])
  | currentThread caller => exact lends_tryCall (Vm.lends_currentThread caller)
  | threadInfo thread => exact lends_call (Vm.lends_threadInfo thread)
  | localVariable thread depth slot kind =>
      exact lends_call (Vm.lends_getLocal thread depth slot kind)
  | receiver thread => exact lends_tryCall (Vm.lends_getLocal thread 0 0 .object)
  | staticField cls field kind =>
      exact lends_clearing (lends_touch fun _ hb => Vm.opened_staticField hb cls field kind)
  | instanceField object field kind =>
      exact lends_clearing (lends_native (Vm.lends_instanceField object field kind))
  | arrayElement array index =>
      exact lends_clearing (lends_native (Vm.lends_arrayElement array index))

/-- A bracket takes all that was handed out. -/
theorem balanced_bracket {x : Command α} {f : α → Command β} (hx : Lends Agent.vm false owned x)
    (hf : ∀ r, Balanced Agent.vm (f r)) :
    Balanced Agent.vm (x >>= fun r => withLocals (owned r) (f r)) := by
  apply balanced_of_opened
  intro a hb
  have hopened := hx a hb
  rw [perform_bind]
  cases hperform : x.perform a with
  | mk result b =>
      rw [hperform] at hopened
      cases result with
      | error stop => exact hopened
      | ok r =>
          have hused := (hf r).opened (Vm.Ages.bounded (Vm.Opened.ages hopened) hb)
          have hboth := Vm.Opened.trans hopened hused
          rw [List.append_nil] at hboth
          exact hboth.dropLocals

theorem balanced_attach (caller : NativeThread) : Balanced Agent.vm (attach caller) := by
  refine balanced_bind (balanced_look _) fun _ => balanced_bind (balanced_guard _ _) fun _ => ?_
  apply balanced_adjust
  intro vm _
  rw [Vm.attach]
  split
  · exact .refl vm
  · exact .of_refs_eq rfl rfl fun _ => rfl

/-- An object is known by a global reference, which is none of the local ones. -/
theorem balanced_trackNew (h : Handle) : Balanced Agent.vm (trackNew h) := by
  apply lends_ite (balanced_pure _)
  refine balanced_bind (lends_call (Vm.balanced_getTag h)) fun tag => ?_
  refine balanced_bind (balanced_look _) fun tracker => ?_
  dsimp only
  generalize (if 0 < tag then tracker.entries.get? tag.toNat else none) = known
  cases known with
  | some entry => exact balanced_bind (balanced_aside fun _ => rfl) fun _ => balanced_pure _
  | none =>
      have hglobal : ∀ vm : Vm, vm.RefsBounded → vm.Opened false [] (vm.newGlobalRef h).2 := by
        intro vm hb
        rw [Vm.newGlobalRef]
        split
        · exact Vm.opened_newGlobal hb _
        · exact .refl vm
      refine balanced_bind (lends_call (Vm.balanced_setTag h _)) fun _ => ?_
      refine balanced_bind (lends_touch hglobal) fun global => ?_
      refine balanced_bind (balanced_guard _ _) fun _ => ?_
      exact balanced_bind (balanced_aside fun _ => rfl) fun _ => balanced_pure _

/-- A command that only looks gives back every reference that it takes. -/
theorem Looks.balanced {x : Command α} (h : Looks Control.Any x) : Balanced Agent.vm x := by
  induction h with
  | pure a => exact balanced_pure a
  | look f => exact balanced_look f
  | inspect f => exact balanced_inspect f
  | bind _ _ ihx ihf => exact balanced_bind ihx ihf
  | bracket hx _ hg ih =>
      rw [funext hg]
      exact balanced_bracket hx.lends ih
  | attach _ caller => exact balanced_attach caller
  | trackNew h => exact balanced_trackNew h
  | suspendThread _ caller h => exact lends_call (Vm.balanced_suspendThread caller h)
  | suspendThreads _ caller hs => exact lends_call (Vm.balanced_suspendThreads caller hs)
  | resumeThread _ h => exact lends_call (Vm.balanced_resumeThread h)
  | resumeThreads _ hs => exact lends_call (Vm.balanced_resumeThreads hs)
  | arrayLength array => exact lends_native (Vm.balanced_arrayLength array)
  | stringChars h => exact lends_native (Vm.balanced_stringChars h)
  | arrayRegion array kind first length =>
      exact lends_clearing (lends_native (Vm.lends_arrayRegion array kind first length))

end Command

/-! ### Giving identifiers back -/

namespace Tracking

theorem balanced_setTracker (tracker : Tracker) : Balanced Agent.vm (setTracker tracker) :=
  balanced_aside fun _ => rfl

theorem balanced_forget (id : ObjectId) (entry : Tracked) :
    Balanced Agent.vm (change (forget id entry) : Command Unit) :=
  balanced_change fun a _ => Vm.opened_deleteGlobalRef a.vm entry.global

theorem balanced_dispose (id : ObjectId) (count : Nat) :
    Balanced Agent.vm (Tracking.dispose id count) := by
  refine balanced_bind (balanced_look _) fun tracker => ?_
  refine balanced_bind (balanced_require _ _) fun entry => ?_
  dsimp only
  split
  · exact balanced_forget id entry
  · exact balanced_setTracker _

theorem balanced_disposeObjects (requests : List DisposeRequest) :
    Balanced Agent.vm (Machine.disposeObjects requests) := by
  refine balanced_forM (fun request => ?_) requests
  have hdispose := balanced_dispose request.objectId request.count
  exact balanced_map _ (balanced_attempt hdispose)

end Tracking

/-! ### Setting and clearing requests -/

namespace Registration

theorem balanced_holdThread (thread : Option ObjectId) :
    Balanced Agent.vm (holdThread thread) := by
  cases thread with
  | none => exact balanced_pure none
  | some id =>
      apply balanced_bracket (Opens.acquire id).lends
      intro h
      have hglobal : ∀ vm : Vm, vm.RefsBounded → vm.Opened false [] (vm.newGlobalRef h).2 := by
        intro vm hb
        rw [Vm.newGlobalRef]
        split
        · exact Vm.opened_newGlobal hb _
        · exact .refl vm
      refine balanced_bind (balanced_look _) fun _ => balanced_bind (balanced_guard _ _) fun _ => ?_
      refine balanced_bind (lends_touch hglobal) fun global => ?_
      exact balanced_bind (balanced_guard _ _) fun _ => balanced_pure _

theorem balanced_freeThread (thread : Option Handle) : Balanced Agent.vm (freeThread thread) := by
  cases thread with
  | none => exact balanced_pure ()
  | some global => exact balanced_adjust fun vm _ => Vm.opened_deleteGlobalRef vm global

theorem balanced_setNotifications (notifications : Table NotificationKey Notification) :
    Balanced Agent.vm (setNotifications notifications) :=
  balanced_aside fun _ => rfl

theorem balanced_setBreakpoints (breakpoints : Table (MethodId × CodeIndex) Nat) :
    Balanced Agent.vm (setBreakpoints breakpoints) :=
  balanced_aside fun _ => rfl

theorem balanced_enable (key : NotificationKey) : Balanced Agent.vm (enable key) := by
  refine balanced_bind (balanced_look _) fun notifications => ?_
  split
  · exact balanced_setNotifications _
  · refine balanced_bind (balanced_holdThread key.2) fun thread => ?_
    refine balanced_bind (balanced_tryCall (Vm.balanced_setNotification true key.1 thread)) ?_
    intro enabled
    cases enabled with
    | ok _ => exact balanced_setNotifications _
    | error _ => exact balanced_bind (balanced_freeThread thread) fun _ => balanced_refuse _

theorem balanced_disable (key : NotificationKey) : Balanced Agent.vm (disable key) := by
  refine balanced_bind (balanced_look _) fun notifications => ?_
  split
  · exact balanced_pure ()
  · rename_i held _
    apply lends_ite (balanced_setNotifications _)
    refine balanced_bind (balanced_setNotifications _) fun _ => ?_
    refine balanced_bind (balanced_tryCall (Vm.balanced_setNotification false key.1 held.thread)) ?_
    exact fun _ => balanced_freeThread held.thread

theorem balanced_holdBreakpoint (position : MethodId × CodeIndex) :
    Balanced Agent.vm (holdBreakpoint position) := by
  refine balanced_bind (balanced_look _) fun breakpoints => ?_
  split
  · exact balanced_setBreakpoints _
  · exact balanced_bind (lends_call (Vm.balanced_setBreakpoint position.1 position.2)) fun _ =>
      balanced_setBreakpoints _

theorem balanced_releaseBreakpoint (position : MethodId × CodeIndex) :
    Balanced Agent.vm (releaseBreakpoint position) := by
  refine balanced_bind (balanced_look _) fun breakpoints => ?_
  split
  · exact balanced_pure ()
  · exact balanced_collapse
  · exact balanced_bind (balanced_setBreakpoints _) fun _ => balanced_bind
      (balanced_tryCall (Vm.balanced_clearBreakpoint position.1 position.2)) fun _ => balanced_pure _
  · exact balanced_setBreakpoints _

theorem balanced_acquire (registration : Registration) :
    Balanced Agent.vm (acquire registration) := by
  have henable := balanced_enable registration.notification
  unfold acquire
  cases registration.breakpoint with
  | none =>
      apply balanced_bind (balanced_attempt henable)
      intro enabled
      cases enabled with
      | ok _ => exact balanced_pure ()
      | error cause => exact balanced_refuse cause
  | some position =>
      apply balanced_bind (balanced_holdBreakpoint position)
      intro _
      apply balanced_bind (balanced_attempt henable)
      intro enabled
      cases enabled with
      | ok _ => exact balanced_pure ()
      | error cause =>
          exact balanced_bind (balanced_releaseBreakpoint position) fun _ => balanced_refuse cause

theorem balanced_release (registration : Registration) :
    Balanced Agent.vm (release registration) := by
  unfold release
  cases registration.breakpoint with
  | none => exact balanced_disable _
  | some position =>
      exact balanced_bind (balanced_releaseBreakpoint position) fun _ => balanced_disable _

theorem balanced_register (kind : EventKind) (policy : SuspendPolicy)
    (modifiers : List EventModifier) : Balanced Agent.vm (register kind policy modifiers) := by
  refine balanced_bind (balanced_guard _ _) fun _ => ?_
  refine balanced_bind (looks_mapM (looks_filterOf kind) modifiers).balanced fun filters => ?_
  refine balanced_bind (looks_ofExcept _).balanced fun registration => ?_
  refine balanced_bind (balanced_acquire registration) fun _ => ?_
  refine balanced_bind (balanced_look _) fun id => ?_
  exact balanced_bind (balanced_aside fun _ => rfl) fun _ => balanced_pure id

theorem balanced_remove (request : Request) : Balanced Agent.vm (remove request) :=
  balanced_bind (balanced_aside fun _ => rfl) fun _ => balanced_release request.registration

theorem balanced_clear (kind : EventKind) (id : RequestId) :
    Balanced Agent.vm (clear kind id) := by
  refine balanced_bind (balanced_look _) fun requests => ?_
  split
  · exact balanced_bind (balanced_guard _ _) fun _ => balanced_remove _
  · exact balanced_refuse _

theorem balanced_clearBreakpoints : Balanced Agent.vm clearBreakpoints :=
  balanced_bind (balanced_look _) fun _ => balanced_forM balanced_remove _

end Registration

/-- Every command of the client gives back what it takes. -/
theorem Command.Deed.balanced {may : Control → Prop} {x : Command Reply} (h : Deed may x) :
    Balanced Agent.vm x := by
  have hdone : ∀ {x : Command Unit}, Balanced Agent.vm x → Balanced Agent.vm (done x) :=
    fun hx => balanced_bind hx fun _ => balanced_pure _
  cases h with
  | looks hx => exact hx.any.balanced
  | dispose requests => exact hdone (balanced_disposeObjects requests)
  | set kindCode policy modifiers =>
      exact balanced_map _ (balanced_bind (looks_ofExcept _).balanced fun kind =>
        Registration.balanced_register kind policy modifiers)
  | clear kindCode id =>
      exact hdone (balanced_bind (looks_ofExcept _).balanced fun kind =>
        Registration.balanced_clear kind id)
  | clearBreakpoints => exact hdone Registration.balanced_clearBreakpoints

/-! ### The way of a callback -/

namespace Firing

theorem balanced_visit (ctx : Context) (pass : Pass) (request : Request) :
    Balanced Agent.vm (visit ctx pass request) := by
  refine balanced_bind (balanced_look _) fun stepThread => ?_
  have hall : Looks Control.Any (request.filters.allM (Filter.check ctx stepThread)) :=
    looks_allM (Filter.looks_check ctx stepThread) request.filters
  refine balanced_bind hall.balanced fun fires => ?_
  cases fires with
  | true => exact balanced_bind (balanced_aside fun _ => rfl) fun _ => balanced_pure _
  | false => exact balanced_pure pass

theorem balanced_process (c : Callback Handle) : Balanced Agent.vm (process c) := by
  refine balanced_bind (balanced_look _) fun requests => ?_
  apply lends_ite (balanced_pure none)
  refine balanced_bind (Capture.looks_capture _ c).balanced fun ctx => ?_
  refine balanced_bind (balanced_look _) fun requests => ?_
  refine balanced_bind (balanced_foldlM (balanced_visit ctx) _ _) fun pass => ?_
  exact balanced_bind (balanced_forM Registration.balanced_remove _) fun _ => balanced_pure _

end Firing

namespace Agent

/-- The machine of the second state has the local references of the first, and no exception of its
own. -/
abbrev Settled (a b : Agent) : Prop := a.vm.Opened false [] b.vm

theorem settled_answer {α : Type} {x : Command α} (hx : Balanced Agent.vm x)
    (caller : NativeThread) {a : Agent} (hb : a.vm.RefsBounded) :
    Settled a (answer caller x a).2 := by
  rw [answer_snd]
  exact (balanced_bind (balanced_attach caller) fun _ => hx).opened hb

theorem settled_serve (caller : NativeThread) (command : ClientCommand) {a : Agent}
    (hb : a.vm.RefsBounded) : Settled a (Agent.serve caller command a).2 := by
  simp only [Agent.serve]
  split
  · exact .refl a.vm
  · exact settled_answer (deed_ofClient caller command).balanced caller hb

theorem balanced_opening (canDeliver : Bool) : Balanced Agent.vm (opening canDeliver) := by
  refine balanced_bind (balanced_look _) fun _ => balanced_bind (balanced_guard _ _) fun _ => ?_
  refine balanced_bind (balanced_guard _ _) fun _ => ?_
  exact balanced_bind (Registration.balanced_enable _) fun _ => balanced_aside fun _ => rfl

theorem settled_attach (caller : NativeThread) (canDeliver : Bool) {a : Agent}
    (hb : a.vm.RefsBounded) : Settled a (Agent.attach caller canDeliver a).2 :=
  settled_answer (balanced_opening canDeliver) caller hb

theorem settled_send (fired : Fired) {a : Agent} (hb : a.vm.RefsBounded) :
    Settled a (Delivery.send fired a) := by
  simp only [Delivery.send]
  split
  · exact .refl a.vm
  · cases htarget : fired.suspend with
    | none => exact .refl a.vm
    | some target => exact settled_answer (looks_applySuspension target).balanced .delivery hb

theorem settled_onCallback (caller : NativeThread) (c : Callback Handle) {a : Agent}
    (hb : a.vm.RefsBounded) : Settled a (a.onCallback caller c) := by
  have hprocess := settled_answer (Firing.balanced_process c) caller hb
  rw [Agent.onCallback]
  split
  · rename_i fired b hanswer
    rw [hanswer] at hprocess
    exact hprocess.trans (settled_send fired (hprocess.ages.bounded hb))
  · rename_i hanswer
    rwa [hanswer] at hprocess

end Agent

/-! ### Callbacks of the machine -/

namespace Vm

variable {vm vm' : Vm}

/-- The references that a callback carries. -/
def carried (c : Callback Handle) : List Handle := c.thread?.toList ++ c.other?.toList

theorem opened_optionalLocal (hb : vm.RefsBounded) (object : Option HeapId) :
    Opened false vm (object.map fun _ => (optionalLocal object vm).1).toList
      (optionalLocal object vm).2 := by
  cases object with
  | none => exact .refl vm
  | some object => exact opened_newLocal hb object

theorem opened_enterCallback (hb : vm.RefsBounded) (c : Callback HeapId) :
    Opened false vm (carried (vm.enterCallback c).1) (vm.enterCallback c).2 := by
  let near := optionalLocal c.thread? vm
  let far := optionalLocal c.other? near.2
  have hnear := opened_optionalLocal hb c.thread?
  have hfar := opened_optionalLocal (hnear.ages.bounded hb) c.other?
  have hmarked : Opened false far.2 [] (vm.enterCallback c).2 := by
    rw [enterCallback]
    dsimp only
    split <;> exact .of_refs_eq rfl rfl fun _ => rfl
  have hcarried : carried (vm.enterCallback c).1 =
      (c.thread?.map fun _ => near.1).toList ++ (c.other?.map fun _ => far.1).toList := by
    rw [carried, show (vm.enterCallback c).1 = c.withObjects near.1 far.1 from rfl,
      Callback.thread?_withObjects, Callback.other?_withObjects]
  rw [hcarried]
  have hall := (hnear.trans hfar).trans hmarked
  rwa [List.append_nil] at hall

/-- No reference that a callback carries is null. -/
theorem isNull_of_carried {c : Callback HeapId} {h : Handle}
    (hmem : h ∈ carried (vm.enterCallback c).1) : h.isNull = false := by
  have hlocal : ∀ (object : Option HeapId) (vm : Vm),
      ∀ h ∈ (object.map fun _ => (optionalLocal object vm).1).toList, h.isNull = false := by
    intro object vm h hh
    cases object with
    | none => cases hh
    | some object =>
        rw [List.mem_singleton.mp hh]
        exact isNull_newRef vm .localRef object
  rw [carried, show (vm.enterCallback c).1 = c.withObjects (optionalLocal c.thread? vm).1
    (optionalLocal c.other? (optionalLocal c.thread? vm).2).1 from rfl,
    Callback.thread?_withObjects, Callback.other?_withObjects] at hmem
  rcases List.mem_append.mp hmem with hthread | hother
  · exact hlocal _ _ h hthread
  · exact hlocal _ _ h hother

/-- Taking away a reference that was handed out. -/
theorem Opened.without {h? : Option Handle} {hs : List Handle}
    (ho : Opened false vm (h?.toList ++ hs) vm') (hvalid : ∀ h ∈ h?, h.isNull = false) :
    Opened false vm hs (vm'.without h?) := by
  cases h? with
  | none => exact ho
  | some h =>
      refine ⟨ho.ages.trans ⟨Nat.le_refl _, ?_⟩, ?_, ho.calm⟩
      · exact fun href => .inl (Table.get?_erase_eq_some.mp href).2
      · intro raw object
        rw [ho.locals]
        simp only [Vm.without, Table.get?_erase_eq_some]
        constructor
        · rintro ⟨hget, hfree⟩
          have hne : raw ≠ h.raw := (hfree h List.mem_cons_self (hvalid h rfl)).symm
          exact ⟨⟨hne, hget⟩, fun g hg => hfree g (List.mem_cons_of_mem h hg)⟩
        · rintro ⟨⟨hne, hget⟩, hfree⟩
          refine ⟨hget, fun g hg hnull => ?_⟩
          rcases List.mem_cons.mp hg with rfl | hg
          · exact hne.symm
          · exact hfree g hg hnull

end Vm

namespace Agent

/-- The references that a callback carries are taken away when it ends. -/
theorem settled_deliver (caller : NativeThread) (c : Callback HeapId) {a : Agent}
    (hb : a.vm.RefsBounded) : Settled a (Agent.deliver caller c a).2 := by
  simp only [Agent.deliver]
  split
  · have hentered := Vm.opened_enterCallback hb c
    have hcalled := settled_onCallback caller (a.vm.enterCallback c).1
      (a := a.setVm (a.vm.enterCallback c).2) (hentered.ages.bounded hb)
    have hboth := hentered.trans hcalled
    rw [List.append_nil] at hboth
    let called := ((a.setVm (a.vm.enterCallback c).2).onCallback caller (a.vm.enterCallback c).1).vm
    obtain ⟨inCallback, heq⟩ := Vm.leaveCallback_eq called c (a.vm.enterCallback c).1
    have hmarks : Vm.Opened false called [] { called with inCallback } :=
      .of_refs_eq rfl rfl fun _ => rfl
    have hunmarked := hboth.trans hmarks
    rw [List.append_nil] at hunmarked
    have hthread := hunmarked.without fun h hh =>
      Vm.isNull_of_carried (List.mem_append_left _ (Option.mem_toList.mpr hh))
    rw [← List.append_nil (Option.toList _)] at hthread
    have hother := hthread.without fun h hh =>
      Vm.isNull_of_carried (List.mem_append_right _ (Option.mem_toList.mpr hh))
    show Vm.Opened false a.vm [] _
    rw [heq]
    exact hother
  · exact .refl a.vm

end Agent

/-! ### Counting -/

/-- Machines with the same references of a kind have as many of them. -/
theorem Vm.refCount_congr {vm vm' : Vm} {kind : RefKind}
    (hsame : ∀ raw object, vm.refs.get? raw = some ⟨object, kind⟩ ↔
      vm'.refs.get? raw = some ⟨object, kind⟩) : vm'.refCount kind = vm.refCount kind := by
  have hperm : (vm'.refsOf kind).Perm (vm.refsOf kind) := by
    apply (List.perm_ext_iff_of_nodup (nodup_refsOf vm' kind) (nodup_refsOf vm kind)).mpr
    rintro ⟨raw, object, found⟩
    rw [mem_refsOf, mem_refsOf]
    constructor
    · rintro ⟨hget, rfl⟩
      exact ⟨(hsame raw object).mpr hget, rfl⟩
    · rintro ⟨hget, rfl⟩
      exact ⟨(hsame raw object).mp hget, rfl⟩
  rw [refCount_eq_length, refCount_eq_length, hperm.length_eq]

/-- A machine is left with as many local references as it had, and with no exception pending that was
not pending before. -/
structure Vm.Restored (before after : Vm) : Prop where
  locals : after.localCount = before.localCount
  exception : after.exceptionPending = true → before.exceptionPending = true

theorem Vm.Opened.restored {before after : Vm} (h : before.Opened false [] after) :
    before.Restored after where
  locals := refCount_congr fun raw object => by simpa using h.locals raw object
  exception := h.calm rfl

/-- Whatever came before and however it ends: every command of the client, the opening of the
session, everything that happens in the machine and every callback leaves the machine restored. -/
theorem machine_restored (past : Past) (caller : NativeThread) :
    (∀ command, past.agent.vm.Restored (Agent.serve caller command past.agent).2.vm) ∧
      (∀ canDeliver, past.agent.vm.Restored (Agent.attach caller canDeliver past.agent).2.vm) ∧
      (∀ c, past.agent.vm.Restored (Agent.deliver caller c past.agent).2.vm) ∧
      ∀ c, past.agent.vm.Restored (past.agent.onCallback caller c).vm := by
  have hb : past.agent.vm.RefsBounded := past.inOrder.refs
  refine ⟨fun command => ?_, fun canDeliver => ?_, fun c => ?_, fun c => ?_⟩
  · exact (Agent.settled_serve caller command hb).restored
  · exact (Agent.settled_attach caller canDeliver hb).restored
  · exact (Agent.settled_deliver caller c hb).restored
  · exact (Agent.settled_onCallback caller c hb).restored

end DebugAgent
