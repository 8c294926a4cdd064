import DebugAgent.Proofs.Fired
import DebugAgent.Proofs.Moves
import DebugAgent.Proofs.Naming

/-!
# Native threads that stop themselves

The native threads of the agent are threads of the machine like any other: they are listed with the
others and get identifiers.  One that asks for its own suspension would never come back, so all
threads are stopped but the one that asks.  Nothing of the kind is done where a single thread is
stopped.  A command that names the thread of its caller is passed on to the machine, and so is the
policy of an event that happened in the thread that delivers it.

The machine counts how often a native thread asked for its own suspension.  This module says which
operations raise the count; all others leave it alone.
-/

namespace DebugAgent

open DebugAgent.Action Command
open Relation (ReflTransGen)

variable {a b : Agent} {may : Control → Prop}

/-! ### The machine is asked -/

namespace Vm

/-- A reference is to the thread object of a native thread. -/
def isOwn (vm : Vm) (caller : NativeThread) (thread : Handle) : Bool :=
  (vm.attached.get? caller).any fun own => vm.target? thread = some own

/-- The machine after it has counted a native thread that asks for its own suspension. -/
def noteOwn (caller : NativeThread) (thread : Handle) (vm : Vm) : Vm :=
  match vm.attached.get? caller with
  | some own =>
      if vm.target? thread = some own then { vm with selfSuspensions := vm.selfSuspensions + 1 }
      else vm
  | none => vm

variable {vm vm' : Vm} {caller : NativeThread}

theorem isOwn_congr (hattached : vm'.attached = vm.attached) (hrefs : vm'.refs = vm.refs)
    (caller : NativeThread) (thread : Handle) :
    vm'.isOwn caller thread = vm.isOwn caller thread := by
  simp [isOwn, target?, hattached, hrefs]

theorem noteOwn_leaves (caller : NativeThread) (thread : Handle) (vm : Vm) :
    (vm.noteOwn caller thread).selfSuspensions =
        vm.selfSuspensions + (if vm.isOwn caller thread then 1 else 0) ∧
      (vm.noteOwn caller thread).attached = vm.attached ∧
        (vm.noteOwn caller thread).refs = vm.refs := by
  rw [noteOwn, isOwn]
  cases vm.attached.get? caller with
  | none => exact ⟨rfl, rfl, rfl⟩
  | some own => by_cases hown : vm.target? thread = some own <;> simp [hown]

theorem Resumes.leaves (h : vm.Resumes vm') :
    vm'.selfSuspensions = vm.selfSuspensions ∧ vm'.attached = vm.attached ∧ vm'.refs = vm.refs := by
  cases h with
  | thread => exact ⟨rfl, rfl, rfl⟩

/-- Suspending a thread is counted if it is the caller's own, and then at most a thread changes. -/
theorem suspendOne_leaves (caller : NativeThread) (thread : Handle) (vm : Vm) :
    let after := ((suspendOne caller thread).perform vm).2
    after.selfSuspensions = vm.selfSuspensions + (if vm.isOwn caller thread then 1 else 0) ∧
      after.attached = vm.attached ∧ after.refs = vm.refs := by
  intro after
  let kept (near : Vm) := (near.selfSuspensions, near.attached, near.refs)
  have hlocated : ReflTransGen (fun near later => kept later = kept near)
      (vm.noteOwn caller thread) after := by
    refine makes_locating (fun near id body _ => ?_) _
    dsimp only
    split
    · exact .refl
    · split
      · exact .refl
      · split
        · exact .refl
        · exact .single rfl
  have hkept : kept after = kept (vm.noteOwn caller thread) := by
    generalize after = last at hlocated ⊢
    induction hlocated with
    | refl => rfl
    | tail _ hlast ih => exact hlast.trans ih
  obtain ⟨hown, hrest⟩ := Prod.mk.inj hkept
  obtain ⟨hattached, hrefs⟩ := Prod.mk.inj hrest
  obtain ⟨hnoted, hattached', hrefs'⟩ := noteOwn_leaves caller thread vm
  exact ⟨hown.trans hnoted, hattached.trans hattached', hrefs.trans hrefs'⟩

theorem own_suspendThread (caller : NativeThread) (thread : Handle) (vm : Vm) :
    ((suspendThread caller thread).perform vm).2.selfSuspensions =
      vm.selfSuspensions +
        if vm.grants Capabilities.canSuspend && vm.isOwn caller thread then 1 else 0 := by
  cases hgrant : vm.grants Capabilities.canSuspend with
  | false => simp [suspendThread, perform_bind, demand, hgrant]
  | true =>
      simp [suspendThread, perform_bind, demand_ok hgrant, (suspendOne_leaves caller thread vm).1]

/-- Suspending threads that are not the caller's own is not counted. -/
theorem own_suspendThreads {threads : List Handle}
    (hothers : ∀ thread ∈ threads, vm.isOwn caller thread = false) :
    ((suspendThreads caller threads).perform vm).2.selfSuspensions = vm.selfSuspensions := by
  cases hgrant : vm.grants Capabilities.canSuspend with
  | false => simp [suspendThreads, perform_bind, demand, hgrant]
  | true =>
      let Same (near : Vm) : Prop :=
        near.selfSuspensions = vm.selfSuspensions ∧ near.attached = vm.attached ∧
          near.refs = vm.refs
      have hsame : Same ((suspendThreads caller threads).perform vm).2 := by
        rw [suspendThreads, perform_bind, perform_inspect, demand_ok hgrant]
        refine mapM_preserves (P := Same) ?_ ⟨rfl, rfl, rfl⟩
        rintro thread hmem near ⟨hown, hattached, hrefs⟩
        have hother : near.isOwn caller thread = false :=
          (isOwn_congr hattached hrefs caller thread).trans (hothers thread hmem)
        obtain ⟨hown', hattached', hrefs'⟩ := suspendOne_leaves caller thread near
        rw [perform_attempt_snd]
        refine ⟨?_, hattached'.trans hattached, hrefs'.trans hrefs⟩
        simpa [hother] using hown'.trans (congrArg (· + _) hown)
      exact hsame.1

end Vm

/-! ### What leaves the count alone -/

theorem Inspection.own (h : Inspection may a b) (hmay : ¬ may .stop) :
    b.vm.selfSuspensions = a.vm.selfSuspensions := by
  cases h with
  | glance h =>
      cases h with
      | closeRef h =>
          obtain ⟨refs, heq⟩ := a.vm.deleteRef_eq .localRef h
          exact (congrArg Vm.selfSuspensions heq :)
      | openRef | raise | clearException | countFieldRead => rfl
  | attach _ caller =>
      change (a.vm.attach caller).2.selfSuspensions = _
      rw [Vm.attach]
      split <;> rfl
  | halt hstop => exact absurd hstop hmay
  | resume _ h => exact h.leaves.1
  | recount => rfl
  | enrol => rfl

theorem Move.own (h : Move may a b) (hmay : ¬ may .stop) :
    b.vm.selfSuspensions = a.vm.selfSuspensions := by
  cases h with
  | inspection h => exact h.own hmay
  | told h => cases h <;> rfl
  | freeRef h =>
      obtain ⟨refs, heq⟩ := a.vm.deleteRef_eq .globalRef h
      exact (congrArg Vm.selfSuspensions heq :)
  | holdRef | tracker | requests => rfl

/-! ### Stopping all threads -/

namespace Vm

variable {vm : Vm}

theorem attached_newLocals (ids : List HeapId) (vm : Vm) :
    (newLocals ids vm).2.attached = vm.attached := by
  induction ids generalizing vm with
  | nil => rfl
  | cons id ids ih => exact ih (vm.newLocal id).2

theorem own_newLocals (ids : List HeapId) (vm : Vm) :
    (newLocals ids vm).2.selfSuspensions = vm.selfSuspensions := by
  induction ids generalizing vm with
  | nil => rfl
  | cons id ids ih => exact ih (vm.newLocal id).2

/-- All that is left out of the threads are those that the current one is. -/
theorem mem_others {current : Handle} {own : HeapId} (hcurrent : vm.target? current = some own)
    {threads : List Handle} {h : Handle} :
    h ∈ Suspension.others vm current threads ↔ h ∈ threads ∧ vm.target? h ≠ some own := by
  have hvalid := isNull_eq_false_of_target hcurrent
  simp [Suspension.others, hvalid, isSameObject, hcurrent]

/-- What is left out of the threads is the caller's own. -/
theorem isOwn_of_mem_others {caller : NativeThread} {current : Handle} {own : HeapId}
    (hown : vm.attached.get? caller = some own) (hcurrent : vm.target? current = some own)
    {threads : List Handle} {thread : Handle}
    (hmem : thread ∈ Suspension.others vm current threads) : vm.isOwn caller thread = false := by
  have hother := ((mem_others hcurrent).mp hmem).2
  simp [isOwn, hown, hother]

end Vm

theorem dropLocals_own (hs : List Handle) (vm : Vm) :
    (hs.foldl dropLocal vm).selfSuspensions = vm.selfSuspensions := by
  induction hs generalizing vm with
  | nil => rfl
  | cons h hs ih =>
      obtain ⟨refs, heq⟩ := vm.deleteRef_eq .localRef h
      rw [List.foldl_cons, ih, dropLocal, Vm.deleteLocalRef, heq]
      split <;> rfl

namespace Suspension

/-- Suspends all live threads but the current one. -/
def suspendListed (caller : NativeThread) (current : Handle) : Command Unit := do
  let threads ← call Vm.allThreads
  withLocals threads do
    let targets ← see fun vm => others vm current threads
    let _ ← call (Vm.suspendThreads caller targets)

/-- The machine suspends the threads that are listed; then the references to them are dropped. -/
theorem perform_suspendListed (caller : NativeThread) (current : Handle) (a : Agent) :
    let listed := Vm.newLocals a.vm.liveThreadIds a.vm
    ((suspendListed caller current).perform a).2.vm = listed.1.foldl dropLocal
      ((Vm.suspendThreads caller (others listed.2 current listed.1)).perform listed.2).2 := by
  intro listed
  have hall : (call Vm.allThreads).perform a = (.ok listed.1, a.setVm listed.2) :=
    perform_call_ok rfl
  have hcall : ((call (Vm.suspendThreads caller (others listed.2 current listed.1))).perform
      (a.setVm listed.2)).2.vm =
        ((Vm.suspendThreads caller (others listed.2 current listed.1)).perform listed.2).2 := by
    rw [call, perform_within]
    exact perform_mapCause_snd _ _ _
  rw [suspendListed, perform_bind, hall]
  dsimp only
  rw [perform_withLocals, ← hcall, perform_bind, see, perform_look]
  dsimp only [Agent.setVm]
  rw [perform_bind]
  generalize (call _).perform _ = outcome
  obtain ⟨stop | results, after⟩ := outcome <;> rfl

/-- Suspending the threads that are listed, but for the caller's own. -/
theorem own_suspendListed {caller : NativeThread} {current : Handle}
    (hcurrent : ∀ own, a.vm.attached.get? caller = some own → a.vm.target? current = some own)
    (hb : a.vm.RefsBounded) :
    ((suspendListed caller current).perform a).2.vm.selfSuspensions = a.vm.selfSuspensions := by
  let listed := Vm.newLocals a.vm.liveThreadIds a.vm
  have hothers : ∀ thread ∈ others listed.2 current listed.1,
      listed.2.isOwn caller thread = false := by
    intro thread hmem
    cases hattached : a.vm.attached.get? caller with
    | none => simp [Vm.isOwn, listed, Vm.attached_newLocals, hattached]
    | some own =>
        have hattached' : listed.2.attached.get? caller = some own := by
          simp only [listed, Vm.attached_newLocals, hattached]
        have htarget : listed.2.target? current = some own :=
          Vm.target?_newLocals_of_some hb (hcurrent own hattached) _
        exact Vm.isOwn_of_mem_others hattached' htarget hmem
  rw [perform_suspendListed, dropLocals_own]
  exact (Vm.own_suspendThreads hothers).trans (Vm.own_newLocals _ _)

/-- Nobody is left to come back if the caller stops itself, so it is left out. -/
theorem own_suspendAll (hb : a.vm.RefsBounded) (caller : NativeThread) :
    ((suspendAll caller).perform a).2.vm.selfSuspensions = a.vm.selfSuspensions := by
  rw [suspendAll, perform_bind]
  cases hattached : a.vm.attached.get? caller with
  | none =>
      have hcurrent : (Vm.currentThread caller).perform a.vm =
          (.error (.refused .unattachedThread), a.vm) := by
        simp [Vm.currentThread, perform_bind, hattached]
      rw [perform_tryCall_refused hcurrent]
      refine (dropLocals_own _ _).trans (own_suspendListed (fun own hown => ?_) hb)
      cases hattached.symm.trans hown
  | some own =>
      have hcurrent : (Vm.currentThread caller).perform a.vm =
          (.ok (a.vm.newLocal own).1, (a.vm.newLocal own).2) := by
        simp [Vm.currentThread, perform_bind, hattached]
      have hbounded := (Vm.ages_newRef a.vm .localRef own).bounded hb
      rw [perform_tryCall_ok hcurrent]
      refine (dropLocals_own _ _).trans (own_suspendListed (fun other hother => ?_) hbounded)
      cases hattached.symm.trans hother
      exact Vm.target?_newRef a.vm .localRef own

end Suspension

/-! ### Stopping one thread -/

namespace Agent

/-- A native thread that suspends the thread behind an identifier suspends itself: it can be
attached, suspension is granted, and the identifier names its own thread, which has not ended. -/
def stopsItself (a : Agent) (caller : NativeThread) (id : ObjectId) : Bool :=
  let (own, vm) := a.vm.attach caller
  !a.vm.attachFails && vm.grants Capabilities.canSuspend &&
    a.tracker.target? vm id = some own && vm.isLiveThread own

end Agent

/-- Once a native thread is attached, it has its thread. -/
theorem Vm.attached_attach (vm : Vm) (caller : NativeThread) :
    (vm.attach caller).2.attached.get? caller = some (vm.attach caller).1 := by
  cases hattached : vm.attached.get? caller with
  | some own => simp [attach, hattached]
  | none => simp [attach, hattached, allocate]

theorem Suspension.own_suspend (hb : a.vm.RefsBounded) {caller : NativeThread} {own : HeapId}
    (hown : a.vm.attached.get? caller = some own) (id : ObjectId) :
    ((suspend caller id).perform a).2.vm.selfSuspensions = a.vm.selfSuspensions +
      if a.vm.grants Capabilities.canSuspend && a.tracker.target? a.vm id = some own &&
        a.vm.isLiveThread own then 1 else 0 := by
  cases hnamed : a.tracker.target? a.vm id with
  | none => simp [suspend, perform_withThread_dead hnamed]
  | some thread =>
      cases hlive : a.vm.isLiveThread thread with
      | false =>
          have hnot : thread = own → a.vm.isLiveThread own = false := fun hsame => hsame ▸ hlive
          rw [suspend, perform_withThread_ended hb hnamed hlive]
          by_cases hsame : thread = own
          · simp [hnot hsame, Agent.spend, Agent.setVm, Vm.spend]
          · simp [hsame, Agent.spend, Agent.setVm, Vm.spend]
      | true =>
          let h := (a.vm.newLocal thread).1
          have hself : (a.opened thread).vm.isOwn caller h = decide (thread = own) := by
            have hattached : (a.opened thread).vm.attached.get? caller = some own := hown
            have htarget : (a.opened thread).vm.target? h = some thread :=
              Vm.target?_newRef a.vm .localRef thread
            simp [Vm.isOwn, hattached, htarget]
          have hstopped : ((call (Vm.suspendThread caller h)).perform
              (a.opened thread)).2.vm.selfSuspensions = a.vm.selfSuspensions +
                if a.vm.grants Capabilities.canSuspend && thread = own then 1 else 0 := by
            rw [call, perform_within, perform_mapCause_snd]
            exact hself ▸ Vm.own_suspendThread caller h (a.opened thread).vm
          rw [suspend, perform_withThread_live hnamed hlive, perform_withLocal]
          refine (dropLocals_own [h] _).trans (hstopped.trans ?_)
          by_cases hsame : thread = own
          · simp [← hsame, hlive]
          · simp [hsame]

theorem own_attach (vm : Vm) (caller : NativeThread) :
    (vm.attach caller).2.selfSuspensions = vm.selfSuspensions := by
  rw [Vm.attach]
  split <;> rfl

/-- What is answered leaves the count alone, whatever comes of the attaching, if the command does. -/
theorem own_answer {α : Type} {caller : NativeThread} {x : Command α} {count : Nat}
    (hrefused : a.vm.attachFails = true → count = 0)
    (hx : a.vm.attachFails = false →
      (x.perform (a.setVm (a.vm.attach caller).2)).2.vm.selfSuspensions =
        a.vm.selfSuspensions + count) :
    (answer caller x a).2.vm.selfSuspensions = a.vm.selfSuspensions + count := by
  cases hfails : a.vm.attachFails with
  | true => simp [answer_snd, perform_bind, attach, see, hfails, hrefused hfails]
  | false => rw [answer_snd_of_attaching hfails, hx hfails]

theorem own_answer_of_same {α : Type} {x : Command α}
    (hx : x.Makes fun a b => b.vm.selfSuspensions = a.vm.selfSuspensions) (caller : NativeThread)
    (a : Agent) : (answer caller x a).2.vm.selfSuspensions = a.vm.selfSuspensions :=
  @own_answer a α caller x 0 (fun _ => rfl) fun _ =>
    (Makes.same (f := fun b : Agent => b.vm.selfSuspensions) id hx _).trans (own_attach a.vm caller)

theorem own_answer_of_moves {α : Type} {x : Command α} (hx : x.Makes (Move may))
    (hmay : ¬ may .stop) (caller : NativeThread) (a : Agent) :
    (answer caller x a).2.vm.selfSuspensions = a.vm.selfSuspensions :=
  own_answer_of_same (hx.mono fun _ _ h => h.own hmay) caller a

theorem own_answer_suspend (hb : a.vm.RefsBounded) (caller : NativeThread) (id : ObjectId) :
    (answer caller (Suspension.suspend caller id) a).2.vm.selfSuspensions =
      a.vm.selfSuspensions + if a.stopsItself caller id then 1 else 0 := by
  have hbounded := Vm.bounded_attach hb caller
  refine own_answer (fun hfails => by simp [Agent.stopsItself, hfails]) fun hfails => ?_
  have hown := Vm.attached_attach a.vm caller
  have hattached : (a.setVm (a.vm.attach caller).2).vm.selfSuspensions = a.vm.selfSuspensions :=
    own_attach a.vm caller
  rw [Suspension.own_suspend (a := a.setVm (a.vm.attach caller).2) hbounded hown id, hattached,
    Agent.stopsItself, hfails]
  rfl

theorem own_answer_suspendAll (hb : a.vm.RefsBounded) (caller : NativeThread) :
    (answer caller (Suspension.suspendAll caller) a).2.vm.selfSuspensions =
      a.vm.selfSuspensions := by
  have hbounded := Vm.bounded_attach hb caller
  refine @own_answer a _ caller _ 0 (fun _ => rfl) fun _ => ?_
  exact (Suspension.own_suspendAll (a := a.setVm (a.vm.attach caller).2) hbounded caller).trans
    (own_attach a.vm caller)

/-! ### The debugged world -/

namespace Vm

/-- Two machines on which native threads have asked for their own suspension equally often. -/
def SameOwn (vm vm' : Vm) : Prop := vm'.selfSuspensions = vm.selfSuspensions

theorem sameOwn_changeClass (id : HeapId) (f : ClassBody → ClassBody) :
    (changeClass id f).Makes SameOwn :=
  makes_bind (makes_look _) fun body? => makes_bind (makes_expect body?) fun _ =>
    makes_change fun _ => .single rfl

theorem sameOwn_changeThread (id : HeapId) (f : ThreadBody → ThreadBody) :
    (changeThread id f).Makes SameOwn :=
  makes_bind (makes_look _) fun body? => makes_bind (makes_expect body?) fun _ =>
    makes_change fun _ => .single rfl

theorem sameOwn_addField (decl : FieldDecl) : (addField decl).Makes SameOwn :=
  makes_bind (makes_update fun _ => .single rfl) fun _ =>
    makes_bind (sameOwn_changeClass _ _) fun _ => makes_pure _

theorem sameOwn_addMethod (cls : HeapId) (spec : MethodSpec) : (addMethod cls spec).Makes SameOwn :=
  makes_bind (makes_update fun _ => .single rfl) fun _ =>
    makes_bind (sameOwn_changeClass _ _) fun _ => makes_pure _

theorem sameOwn_setField (object : HeapId) (field : FieldId) (value : Stored) :
    (setField object field value).Makes SameOwn := by
  refine makes_bind (makes_look _) fun target? => makes_bind (makes_expect target?) fun target => ?_
  split
  · exact makes_change fun _ => .single rfl
  · exact makes_pure _

theorem sameOwn_newArray (signature : String) (elements : List Stored) :
    (newArray signature elements).Makes SameOwn := by
  have hallocate : ∀ cls, (update (allocate cls (.array elements)) : Build HeapId).Makes SameOwn :=
    fun cls => makes_update fun _ => .single rfl
  apply makes_bind (makes_look _)
  intro known
  cases known with
  | some id => exact hallocate id
  | none => exact makes_bind (makes_update fun _ => .single rfl) hallocate

theorem sameOwn_poisonField (field : FieldId) : (poisonField field).Makes SameOwn := by
  refine makes_change fun vm => .single ?_
  rw [SameOwn]
  split <;> rfl

theorem eq_of_sameOwn {α : Type} {x : Build α} (hx : x.Makes SameOwn) (vm : Vm) :
    (vm.after x).selfSuspensions = vm.selfSuspensions := by
  have hseries : ∀ {vm'}, ReflTransGen SameOwn vm vm' →
      vm'.selfSuspensions = vm.selfSuspensions := by
    intro vm' hseries
    induction hseries with
    | refl => rfl
    | tail _ hlast ih => exact hlast.trans ih
  exact hseries (hx vm)

theorem Setup.own_apply (vm : Vm) (step : Setup) :
    (step.apply vm).selfSuspensions = vm.selfSuspensions := by
  cases step with
  | takeRef | defineClass | defineSubclass | defineInterface | newObject | newString | spawnThread
  | setAttachFails | setProperty => rfl
  | addInterface | setClassStatus | setClassModifiers | setSourceFile | setGenericSignature =>
      exact eq_of_sameOwn (sameOwn_changeClass _ _) vm
  | addStaticField | addInstanceField => exact eq_of_sameOwn (sameOwn_addField _) vm
  | addMethod => exact eq_of_sameOwn (sameOwn_addMethod _ _) vm
  | setField => exact eq_of_sameOwn (sameOwn_setField _ _ _) vm
  | newArray => exact eq_of_sameOwn (sameOwn_newArray _ _) vm
  | failSuspend | setThreadState | terminateThread | pushFrame | popFrame | setTopLocation
  | setLocal => exact eq_of_sameOwn (sameOwn_changeThread _ _) vm
  | poisonField => exact eq_of_sameOwn (sameOwn_poisonField _) vm

end Vm

/-! ### Callbacks -/

namespace Agent

/-- The thread that delivers an event set stops itself for it: the set stops the thread of the event,
and that is the delivering thread's own. -/
def deliveryStopsItself (a : Agent) (fired : Fired) : Bool :=
  a.session.isSome &&
    match fired.suspend with
    | some (.thread thread) => a.stopsItself .delivery thread
    | _ => false

/-- Answering a callback has the delivering thread stop itself. -/
def callbackStopsItself (a : Agent) (caller : NativeThread) (c : Callback Handle) : Bool :=
  (a.fired? caller c).any (answer caller (Firing.process c) a).2.deliveryStopsItself

/-- An operation has a native thread ask for its own suspension. -/
def asksOwn (a : Agent) : Op → Bool
  | .command caller (.suspendThread id) => a.stopsItself caller id
  | .callback caller c => a.callbackStopsItself caller c
  | .deliver caller c =>
      let (carried, vm) := a.vm.enterCallback c
      a.vm.delivers c && (a.setVm vm).callbackStopsItself caller carried
  | _ => false

end Agent

theorem own_send (hb : a.vm.RefsBounded) (fired : Fired) :
    (Delivery.send fired a).vm.selfSuspensions =
      a.vm.selfSuspensions + if a.deliveryStopsItself fired then 1 else 0 := by
  rw [Delivery.send, Agent.deliveryStopsItself]
  cases hsession : a.session with
  | none => simp
  | some session =>
      change (Delivery.suspendFor fired.suspend a).vm.selfSuspensions = _
      cases hsuspend : fired.suspend with
      | none => rfl
      | some target =>
          cases target with
          | thread thread => exact own_answer_suspend hb .delivery thread
          | all => exact own_answer_suspendAll hb .delivery

theorem own_onCallback (ho : Orderly a) (caller : NativeThread) (c : Callback Handle) :
    (a.onCallback caller c).vm.selfSuspensions =
      a.vm.selfSuspensions + if a.callbackStopsItself caller c then 1 else 0 := by
  have hmoves : (Firing.process c).Makes (Move fun _ => False) := Firing.moves_process c
  have hprocessed : (answer caller (Firing.process c) a).2.vm.selfSuspensions =
      a.vm.selfSuspensions := own_answer_of_moves hmoves (fun h => h) caller a
  have hbounded := (ho.evolves ((answered caller c ho).evolves ho)).refs
  rw [Agent.onCallback_eq, Agent.callbackStopsItself]
  cases a.fired? caller c with
  | none => simp [hprocessed]
  | some fired => simp [own_send hbounded, hprocessed]

theorem own_enterCallback (c : Callback HeapId) (vm : Vm) :
    (vm.enterCallback c).2.selfSuspensions = vm.selfSuspensions := by
  cases c <;> rfl

theorem own_leaveCallback (c : Callback HeapId) (carried : Callback Handle) (vm : Vm) :
    (vm.leaveCallback c carried).selfSuspensions = vm.selfSuspensions := by
  obtain ⟨inCallback, refs, hleave⟩ := Vm.leaveCallback_leaves vm c carried
  rw [hleave]

/-! ### Operations and runs -/

theorem answer_done_snd (caller : NativeThread) (x : Command Unit) (a : Agent) :
    (answer caller (done x) a).2 = (answer caller x a).2 := by
  rw [answer_snd, answer_snd, perform_bind, perform_bind]
  split
  · exact perform_done_snd x _
  · rfl

theorem own_serve (hb : a.vm.RefsBounded) (caller : NativeThread) (command : ClientCommand) :
    (Agent.serve caller command a).2.vm.selfSuspensions =
      a.vm.selfSuspensions + if a.asksOwn (.command caller command) then 1 else 0 := by
  have hquiet : ¬ command.Does .stop →
      (answer caller (ofClient caller command) a).2.vm.selfSuspensions = a.vm.selfSuspensions :=
    fun hnot => own_answer_of_moves (deed_ofClient caller command).moves hnot caller a
  cases command with
  | suspend =>
      change (answer caller (done (Suspension.suspendAll caller)) a).2.vm.selfSuspensions = _
      rw [answer_done_snd]
      exact own_answer_suspendAll hb caller
  | suspendThread thread =>
      change (answer caller (done (Suspension.suspend caller thread)) a).2.vm.selfSuspensions = _
      rw [answer_done_snd]
      exact own_answer_suspend hb caller thread
  | capabilities => rfl
  | _ => exact hquiet fun h => h

theorem own_apply (ho : Orderly a) (op : Op) :
    (a.apply op).vm.selfSuspensions =
      a.vm.selfSuspensions + if a.asksOwn op then 1 else 0 := by
  have hquiet : ∀ {α : Type} {x : Command α} (caller : NativeThread),
      x.Makes (Move fun _ => False) →
      (answer caller x a).2.vm.selfSuspensions = a.vm.selfSuspensions :=
    fun caller hx => own_answer_of_moves hx (fun h => h) caller a
  cases op with
  | setup step => exact step.own_apply a.vm
  | command caller command => exact own_serve ho.refs caller command
  | attach caller canDeliver =>
      have henable : (Registration.enable (.vmDeath, none)).Makes (Move fun _ => False) :=
        Registration.moves_enable _
      refine own_answer_of_same (makes_bind (makes_look _) fun _ => ?_) caller a
      refine makes_bind (makes_guard _ _) fun _ => makes_bind (makes_guard _ _) fun _ => ?_
      refine makes_bind (henable.mono fun _ _ h => h.own fun hstop => hstop) fun _ => ?_
      exact makes_change fun _ => .single rfl
  | closeSession => rfl
  | drain =>
      rw [Agent.apply, Agent.drain]
      cases a.session <;> rfl
  | deliver caller c =>
      rw [Agent.apply, Agent.deliver, Agent.asksOwn]
      cases a.vm.delivers c with
      | false => rfl
      | true =>
          let entered := a.setVm (a.vm.enterCallback c).2
          have hentered : Orderly entered := ho.change
            (.machine (Vm.conserves_of_touches (Vm.touch_enterCallback c a.vm) ho.refs).toKeeps)
          have hcount : entered.vm.selfSuspensions = a.vm.selfSuspensions :=
            own_enterCallback c a.vm
          have hcalled := own_onCallback hentered caller (a.vm.enterCallback c).1
          rw [hcount] at hcalled
          exact (own_leaveCallback c _ _).trans hcalled
  | callback caller c => exact own_onCallback ho caller c
  | trackNew caller h => exact hquiet caller (Looks.trackNew h).moves
  | trackObject caller h declared =>
      exact hquiet caller (Tracking.looks_trackObject h declared).moves
  | trackClass caller h => exact hquiet caller (Tracking.looks_trackClass h).moves
  | release caller id => exact hquiet caller (Tracking.moves_release id)
  | dispose caller id count => exact hquiet caller (Tracking.moves_dispose id count)

/-- How often an operation of a run has a native thread ask for its own suspension. -/
def Agent.ownSuspensions (a : Agent) : List Op → Nat
  | [] => 0
  | op :: ops => (if a.asksOwn op then 1 else 0) + (a.apply op).ownSuspensions ops

theorem own_run (ho : Orderly a) (ops : List Op) :
    (a.run ops).vm.selfSuspensions = a.vm.selfSuspensions + a.ownSuspensions ops := by
  induction ops generalizing a with
  | nil => rfl
  | cons op ops ih =>
      rw [Agent.run_cons, ih (ho.leads (leads_apply op ho)), own_apply ho, Agent.ownSuspensions,
        Nat.add_assoc]

theorem ownSuspensions_eq_zero (a : Agent) (ops : List Op) :
    a.ownSuspensions ops = 0 ↔
      ∀ before op after, ops = before ++ op :: after → (a.run before).asksOwn op = false := by
  induction ops generalizing a with
  | nil => simp [Agent.ownSuspensions]
  | cons first ops ih =>
      rw [Agent.ownSuspensions, Nat.add_eq_zero_iff, ih]
      constructor
      · rintro ⟨hfirst, hrest⟩ before op after heq
        cases before with
        | nil =>
            cases heq
            simpa using hfirst
        | cons _ before =>
            cases heq
            exact hrest before op after rfl
      · intro hall
        have hfirst : a.asksOwn first = false := hall [] first ops rfl
        refine ⟨by rw [hfirst]; rfl, fun before op after heq => ?_⟩
        exact hall (first :: before) op after (congrArg (first :: ·) heq)

/-- The machine counts one suspension for each operation by which a native thread stops itself, and
none for any other.  So none is counted in a run exactly if no native thread suspends its own thread
by an identifier, and none delivers an event of its own thread under a policy that stops it. -/
theorem self_suspensions_counted (past : Past) (ops : List Op) :
    let a := past.agent
    (a.run ops).vm.selfSuspensions = a.vm.selfSuspensions + a.ownSuspensions ops ∧
      ((a.run ops).vm.selfSuspensions = a.vm.selfSuspensions ↔
        ∀ before op after, ops = before ++ op :: after →
          (a.run before).asksOwn op = false) := by
  intro a
  have hrun := own_run (a := a) past.inOrder.toOrderly ops
  refine ⟨hrun, ?_⟩
  rw [hrun, Nat.add_eq_left, ownSuspensions_eq_zero]

/-- A native thread lists the threads, finds its own among them and suspends it. -/
theorem own_thread_suspended :
    (Agent.reached [] {}
      [.command (.client 0) .allThreads,
        .command (.client 0) (.suspendThread 1)]).vm.selfSuspensions ≠ 0 := by
  decide +kernel

end DebugAgent
