import DebugAgent.Proofs.StepRequests
import DebugAgent.Proofs.Unbroken

/-!
# What a thread shows of its steps

The machine reports a step by its method and its code index.  The rest is asked for: whether a
native thread can be attached and objects can be tagged, what the class is called that declares the
method, in which line the code index is, and how many frames the thread has.  A request looks at
nothing else as long as its filters name no object, and none of this says where on the heap an
object is or by which identifier the client knows it.

Nothing that the agent does makes a difference to it.  It is the debugged world that goes on.
-/

namespace DebugAgent

open DebugAgent.Action Command Tracking
open Relation (ReflTransGen)

variable {may : Control → Prop} {α : Type} {a b : Agent} {thread object : HeapId}

/-! ### Operations on the machine -/

/-- The operation is one of the debugged world. -/
def Op.isWorldly : Op → Bool
  | .setup _ => true
  | _ => false

/-- A relation between a machine and a later one that holds whatever the agent does in between. -/
structure Vm.Spanned (R : Vm → Vm → Prop) : Prop where
  refl : ∀ vm, R vm vm
  trans : ∀ {vm vm' vm''}, R vm vm' → R vm' vm'' → R vm vm''
  move : ∀ {may : Control → Prop} {a b : Agent}, Move may a b → R a.vm b.vm
  enter : ∀ vm c, R vm (Vm.enterCallback c vm).2
  leave : ∀ vm c carried, R vm (Vm.leaveCallback c carried vm)

namespace Vm.Spanned

variable {R : Vm → Vm → Prop} (hR : Vm.Spanned R)
include hR

theorem makes {x : Command α} (hx : x.Makes (Move may)) :
    x.Makes fun a b : Agent => R a.vm b.vm :=
  hx.mono fun _ _ => hR.move

theorem perform {x : Command α} (hx : x.Makes fun a b : Agent => R a.vm b.vm) (a : Agent) :
    R a.vm (x.perform a).2.vm :=
  hx.preserves (P := fun b : Agent => R a.vm b.vm) (fun h hb => hR.trans hb h) (hR.refl a.vm)

theorem answer {x : Command α} (hx : x.Makes fun a b : Agent => R a.vm b.vm)
    (caller : NativeThread) (a : Agent) : R a.vm (answer caller x a).2.vm := by
  have hattach : Looks Control.Any (Command.attach caller) := .attach trivial caller
  rw [answer_snd]
  exact hR.perform (makes_bind (hR.makes hattach.moves) fun _ => hx) a

/-- A command that makes small changes is answered. -/
theorem answerMoves {x : Command α} (hx : x.Makes (Move may)) (caller : NativeThread) (a : Agent) :
    R a.vm (Command.answer caller x a).2.vm :=
  hR.answer (hR.makes hx) caller a

theorem opening (canDeliver : Bool) :
    (Agent.opening canDeliver).Makes fun a b : Agent => R a.vm b.vm :=
  makes_opening canDeliver hR.move fun a _ => hR.refl a.vm

theorem send (fired : Fired) (a : Agent) : R a.vm (Delivery.send fired a).vm := by
  rw [Delivery.send]
  split
  · exact hR.refl a.vm
  · cases fired.suspend with
    | none => exact hR.refl a.vm
    | some target => exact hR.answerMoves (looks_applySuspension target).moves .delivery a

/-- A captured callback goes through the table. -/
theorem passed {kind : EventKind} {ctx : Context} {seen : Agent}
    (hspend : ∀ (vm : Vm) (count : Nat), R vm (vm.spend count))
    (hpassed : Passed seen kind ctx b) : R seen.vm b.vm := by
  obtain ⟨used, hremoves⟩ := hpassed.removal
  have hremoved := hR.perform
    (hR.makes (makes_forM (@Registration.moves_remove Control.Any) (seen.expiring kind ctx)))
    ((seen.advance kind ctx).spend used)
  rw [hremoves] at hremoved
  exact hR.trans (hspend seen.vm used) hremoved

theorem onCallback (caller : NativeThread) (c : Callback Handle) (a : Agent) :
    R a.vm (a.onCallback caller c).vm := by
  have hprocessed := hR.answerMoves (@Firing.moves_process Control.Any c) caller a
  rw [Agent.onCallback_eq]
  split
  · exact hR.trans hprocessed (hR.send _ _)
  · exact hprocessed

theorem apply {op : Op} (hop : op.isWorldly = false) (a : Agent) : R a.vm (a.apply op).vm := by
  cases op with
  | setup => cases hop
  | command caller command =>
      cases command with
      | capabilities => exact hR.refl a.vm
      | _ => exact hR.answerMoves (deed_ofClient caller _).moves caller a
  | attach caller canDeliver => exact hR.answer (hR.opening canDeliver) caller a
  | closeSession => exact hR.refl a.vm
  | drain =>
      rw [Agent.apply, Agent.drain]
      split <;> exact hR.refl a.vm
  | deliver caller c =>
      rw [Agent.apply, Agent.deliver]
      split
      · let entered := a.vm.enterCallback c
        have hcalled := hR.onCallback caller entered.1 (a.setVm entered.2)
        exact hR.trans (hR.enter a.vm c) (hR.trans hcalled (hR.leave _ c _))
      · exact hR.refl a.vm
  | callback caller c => exact hR.onCallback caller c a
  | trackNew caller h => exact hR.answerMoves (@Looks.trackNew Control.Any h).moves caller a
  | trackObject caller h declared =>
      exact hR.answerMoves (@looks_trackObject Control.Any h declared).moves caller a
  | trackClass caller h =>
      exact hR.answerMoves (@looks_trackClass Control.Any h).moves caller a
  | release caller id => exact hR.answerMoves (@moves_release Control.Any id) caller a
  | dispose caller id count =>
      exact hR.answerMoves (@moves_dispose Control.Any id count) caller a

end Vm.Spanned

/-! ### The debugged world -/

namespace Vm

variable {vm vm' vm'' : Vm}

theorem classAt?_setThread {body : ThreadBody} (hbody : vm.threadAt? thread = some body)
    (later : ThreadBody) : (vm.setBody thread (.thread later)).classAt? = vm.classAt? := by
  funext other
  rw [classAt?_eq, heap_setBody, classAt?_eq]
  split
  · rename_i hsame
    subst hsame
    rw [threadAt?_eq] at hbody
    obtain ⟨⟨cls, tag, held⟩, hobject, hheld⟩ := Option.bind_eq_some_iff.mp hbody
    rw [hobject]
    cases held with
    | thread => rfl
    | _ => cases hheld
  · rfl

/-- A change of the machine that the debugged world does not notice, or at most by threads that are
suspended or resumed. -/
structure KeepsWorld (vm vm' : Vm) : Prop where
  attachFails : vm'.attachFails = vm.attachFails
  capabilities : vm'.capabilities = vm.capabilities
  methods : vm'.methods = vm.methods
  classes : vm'.classAt? = vm.classAt?
  threads : ∀ {thread body}, vm.threadAt? thread = some body →
    ∃ later, vm'.threadAt? thread = some later ∧ later.frames = body.frames ∧
      hasAny later.state ThreadState.terminated = hasAny body.state ThreadState.terminated

namespace KeepsWorld

theorem of_heap_eq (hheap : vm'.heap = vm.heap) (hattach : vm'.attachFails = vm.attachFails)
    (hcapabilities : vm'.capabilities = vm.capabilities) (hmethods : vm'.methods = vm.methods) :
    vm.KeepsWorld vm' where
  attachFails := hattach
  capabilities := hcapabilities
  methods := hmethods
  classes := by
    funext id
    rw [classAt?_eq, hheap, ← classAt?_eq]
  threads := fun hthread => ⟨_, (threadAt?_congr hheap _).trans hthread, rfl, rfl⟩

theorem refl (vm : Vm) : vm.KeepsWorld vm := of_heap_eq rfl rfl rfl rfl

theorem trans (h : vm.KeepsWorld vm') (h' : vm'.KeepsWorld vm'') : vm.KeepsWorld vm'' where
  attachFails := h'.attachFails.trans h.attachFails
  capabilities := h'.capabilities.trans h.capabilities
  methods := h'.methods.trans h.methods
  classes := h'.classes.trans h.classes
  threads := by
    intro thread body hbody
    obtain ⟨near, hnear, hframes, hended⟩ := h.threads hbody
    obtain ⟨later, hlater, hframes', hended'⟩ := h'.threads hnear
    exact ⟨later, hlater, hframes'.trans hframes, hended'.trans hended⟩

theorem isThread (h : vm.KeepsWorld vm') (hthread : (vm.threadAt? thread).isSome) :
    (vm'.threadAt? thread).isSome := by
  obtain ⟨body, hbody⟩ := Option.isSome_iff_exists.mp hthread
  obtain ⟨later, hlater, -⟩ := h.threads hbody
  exact Option.isSome_of_eq_some hlater

theorem setTagAt (vm : Vm) (id : HeapId) (tag : Int) : vm.KeepsWorld (vm.setTagAt id tag) where
  attachFails := rfl
  capabilities := rfl
  methods := rfl
  classes := by
    funext other
    rw [classAt?_eq, heap_setTagAt, classAt?_eq]
    split
    · cases vm.heap[other]? <;> rfl
    · rfl
  threads := fun hthread => ⟨_, (threadAt?_setTagAt vm id tag _).trans hthread, rfl, rfl⟩

/-- The state of a thread changes, and it does not end by that. -/
theorem setThread {body later : ThreadBody} (hbody : vm.threadAt? thread = some body)
    (hframes : later.frames = body.frames) (hended : hasAny later.state ThreadState.terminated =
      hasAny body.state ThreadState.terminated) :
    vm.KeepsWorld (vm.setBody thread (.thread later)) where
  attachFails := rfl
  capabilities := rfl
  methods := rfl
  classes := classAt?_setThread hbody later
  threads := by
    intro other before hbefore
    rw [threadAt?_setThread hbody]
    split
    · rename_i hsame
      subst hsame
      cases hbefore.symm.trans hbody
      exact ⟨later, rfl, hframes, hended⟩
    · exact ⟨before, hbefore, rfl, rfl⟩

theorem attach (vm : Vm) (caller : NativeThread) : vm.KeepsWorld (vm.attach caller).2 where
  attachFails := attachFails_attach vm caller
  capabilities := (frame_attach caller).capabilities
  methods := by
    rw [Vm.attach]
    split <;> rfl
  classes := funext (classAt?_attach vm caller)
  threads := fun hthread => ⟨_, threadAt?_attach hthread caller, rfl, rfl⟩

theorem enterCallback (vm : Vm) (c : Callback HeapId) : vm.KeepsWorld (vm.enterCallback c).2 := by
  cases c <;> exact .of_heap_eq rfl rfl rfl rfl

theorem leaveCallback (vm : Vm) (c : Callback HeapId) (carried : Callback Handle) :
    vm.KeepsWorld (vm.leaveCallback c carried) := by
  obtain ⟨inCallback, refs, hleave⟩ := Vm.leaveCallback_leaves vm c carried
  rw [hleave]
  exact .of_heap_eq rfl rfl rfl rfl

end KeepsWorld

end Vm

theorem hasAny_and {flags kept : Int32} (hkept : kept &&& flags = flags) (mask : Int32) :
    hasAny (mask &&& kept) flags = hasAny mask flags := by
  rw [hasAny, Int32.and_assoc, hkept, hasAny]

theorem Inspection.keepsWorld (h : Inspection may a b) : a.vm.KeepsWorld b.vm := by
  cases h with
  | glance h =>
      cases h with
      | closeRef h =>
          obtain ⟨refs, heq⟩ := a.vm.deleteRef_eq .localRef h
          rw [Agent.setVm, Vm.deleteLocalRef, heq]
          exact .of_heap_eq rfl rfl rfl rfl
      | openRef | raise | clearException | countFieldRead => exact .of_heap_eq rfl rfl rfl rfl
  | attach _ caller => exact .attach a.vm caller
  | halt _ h =>
      cases h with
      | own => exact .of_heap_eq rfl rfl rfl rfl
      | @thread id body hbody =>
          refine .setThread hbody rfl ?_
          rw [ThreadBody.halted, hasAny_or]
          exact Bool.or_false _
  | resume _ h =>
      cases h with
      | thread hbody => exact .setThread hbody rfl (hasAny_and (by decide) _)
  | recount => exact .refl a.vm
  | @enrol object =>
      exact .trans (.setTagAt a.vm object _) (.of_heap_eq rfl rfl rfl rfl)

/-- Commands and callbacks change the agent, and leave the debugged world alone. -/
theorem Move.keepsWorld (h : Move may a b) : a.vm.KeepsWorld b.vm := by
  cases h with
  | inspection h => exact h.keepsWorld
  | told h => cases h <;> exact .of_heap_eq rfl rfl rfl rfl
  | freeRef h =>
      obtain ⟨refs, heq⟩ := a.vm.deleteRef_eq .globalRef h
      rw [Agent.setVm, Vm.deleteGlobalRef, heq]
      exact .of_heap_eq rfl rfl rfl rfl
  | holdRef => exact .of_heap_eq rfl rfl rfl rfl
  | tracker | requests => exact .refl a.vm

/-- The command leaves the debugged world alone, whatever comes of it. -/
def Command.KeepsWorld (x : Command α) : Prop := x.Makes fun a b : Agent => a.vm.KeepsWorld b.vm

theorem Command.KeepsWorld.perform {x : Command α} (hx : x.KeepsWorld) (a : Agent) :
    a.vm.KeepsWorld (x.perform a).2.vm :=
  hx.preserves (P := fun b : Agent => a.vm.KeepsWorld b.vm) (fun h hb => hb.trans h) (.refl a.vm)

theorem keepsWorld_of_moves {x : Command α} (hx : x.Makes (Move may)) : x.KeepsWorld :=
  hx.mono fun _ _ => Move.keepsWorld

theorem Command.Looks.keepsWorld {x : Command α} (hx : Looks may x) : x.KeepsWorld :=
  keepsWorld_of_moves hx.moves

theorem Vm.KeepsWorld.spanned : Vm.Spanned Vm.KeepsWorld where
  refl := .refl
  trans := .trans
  move := Move.keepsWorld
  enter := .enterCallback
  leave := .leaveCallback

/-- The debugged world is changed by itself only. -/
theorem keepsWorld_apply {op : Op} (hop : op.isWorldly = false) (a : Agent) :
    a.vm.KeepsWorld (a.apply op).vm :=
  Vm.KeepsWorld.spanned.apply hop a

/-! ### What is seen of a thread -/

/-- What there is to see of the steps of a thread. -/
structure StepView where
  attachFails : Bool
  tags : Bool
  /-- The signature of the class that declares a method. -/
  declaredIn : MethodId → Option String
  lineAt : MethodId → CodeIndex → Option Int
  frameDepth : Option Int

namespace Vm

/-- The signature of the class that declares a method. -/
def declaredIn (vm : Vm) (method : MethodId) : Option String :=
  (vm.methods.get? method).bind fun decl => (vm.classAt? decl.cls).map ClassBody.signature

/-- Number of frames of a thread that has not ended. -/
def depthOf? (vm : Vm) (thread : HeapId) : Option Int :=
  (vm.threadAt? thread).bind fun body =>
    if hasAny body.state ThreadState.terminated then none else some body.frames.length

def stepView (vm : Vm) (thread : HeapId) : StepView where
  attachFails := vm.attachFails
  tags := vm.grants Capabilities.canTagObjects
  declaredIn := vm.declaredIn
  lineAt := vm.lineAt
  frameDepth := vm.depthOf? thread

variable {vm vm' : Vm}

theorem declaredIn_congr (hmethods : vm'.methods = vm.methods)
    (hclasses : vm'.classAt? = vm.classAt?) : vm'.declaredIn = vm.declaredIn := by
  funext method
  rw [declaredIn, hmethods, hclasses, declaredIn]

theorem lineAt_congr (hcapabilities : vm'.capabilities = vm.capabilities)
    (hmethods : vm'.methods = vm.methods) : vm'.lineAt = vm.lineAt := by
  funext method index
  have htable : vm'.lineNumberTable method = vm.lineNumberTable method := by
    rw [lineNumberTable, codeOf, demand, grants_congr hcapabilities, methodOf, hmethods]
    rfl
  rw [lineAt, htable, lineAt]

namespace KeepsWorld

theorem declaredIn (h : vm.KeepsWorld vm') : vm'.declaredIn = vm.declaredIn :=
  declaredIn_congr h.methods h.classes

theorem lineAt (h : vm.KeepsWorld vm') : vm'.lineAt = vm.lineAt :=
  lineAt_congr h.capabilities h.methods

theorem depthOf? (h : vm.KeepsWorld vm') (hthread : (vm.threadAt? thread).isSome) :
    vm'.depthOf? thread = vm.depthOf? thread := by
  obtain ⟨body, hbody⟩ := Option.isSome_iff_exists.mp hthread
  obtain ⟨later, hlater, hframes, hended⟩ := h.threads hbody
  simp only [Vm.depthOf?, hbody, hlater, Option.bind_some, hframes, hended]

theorem stepView (h : vm.KeepsWorld vm') (hthread : (vm.threadAt? thread).isSome) :
    vm'.stepView thread = vm.stepView thread := by
  simp only [Vm.stepView, h.attachFails, grants_congr h.capabilities, h.declaredIn, h.lineAt,
    h.depthOf? hthread]

end KeepsWorld

end Vm

/-! ### Calls and returns -/

/-- Number of frames of a thread that has not ended. -/
def ThreadBody.depth? (body : ThreadBody) : Option Int :=
  if hasAny body.state ThreadState.terminated then none else some body.frames.length

/-- A thread calls a method, goes on in it, returns from it or ends. -/
def Vm.Setup.runsCode : Setup → Bool
  | .pushFrame .. | .popFrame _ | .setTopLocation .. | .setLocal .. | .terminateThread _ => true
  | _ => false

namespace Vm

variable {vm vm' : Vm} {step : Setup}

/-- Running code changes one thread, in a way that its number of frames alone decides the next. -/
theorem Setup.apply_of_runsCode (hstep : step.runsCode) :
    ∃ (id : HeapId) (f : ThreadBody → ThreadBody) (next : Option Int → Option Int),
      (∀ vm, step.apply vm = vm.after (changeThread id f)) ∧
        ∀ body, (f body).depth? = next body.depth? := by
  cases step with
  | pushFrame id =>
      refine ⟨id, _, fun depth => depth.map (· + 1), fun _ => rfl, fun body => ?_⟩
      by_cases hended : hasAny body.state ThreadState.terminated <;>
        simp [ThreadBody.depth?, hended]
  | popFrame id =>
      refine ⟨id, _, fun depth => depth.map fun count => max (count - 1) 0, fun _ => rfl,
        fun body => ?_⟩
      have hcount : ((body.frames.length - 1 : Nat) : Int) =
          max (body.frames.length - 1 : Int) 0 := by
        omega
      by_cases hended : hasAny body.state ThreadState.terminated <;>
        simp [ThreadBody.depth?, hended, hcount]
  | setTopLocation id | setLocal id =>
      refine ⟨id, _, fun depth => depth, fun _ => rfl, fun body => ?_⟩
      simp [ThreadBody.depth?]
  | terminateThread id =>
      have hended : hasAny ThreadState.terminated ThreadState.terminated := by decide
      exact ⟨id, _, fun _ => none, fun _ => rfl, fun body => if_pos hended⟩
  | _ => cases hstep

/-- A thread that runs code shows the number of frames that it has then, others show the same. -/
theorem stepView_changeThread (id : HeapId) {f : ThreadBody → ThreadBody}
    {next : Option Int → Option Int} (hnext : ∀ body, (f body).depth? = next body.depth?)
    (hthread : (vm.threadAt? thread).isSome) :
    ((vm.after (changeThread id f)).threadAt? thread).isSome ∧
      (vm.after (changeThread id f)).stepView thread =
        { vm.stepView thread with
          frameDepth := if thread = id then next (vm.stepView thread).frameDepth
            else (vm.stepView thread).frameDepth } := by
  obtain ⟨body, hbody⟩ := Option.isSome_iff_exists.mp hthread
  rw [after_changeThread]
  cases hchanged : vm.threadAt? id with
  | none =>
      have hother : thread ≠ id := by
        rintro rfl
        cases hbody.symm.trans hchanged
      exact ⟨hthread, by simp [hother]⟩
  | some before =>
      have hlater := threadAt?_setThread hchanged (f before) thread
      have hdeclared : (vm.setBody id (.thread (f before))).declaredIn = vm.declaredIn :=
        declaredIn_congr rfl (classAt?_setThread hchanged (f before))
      have hlines : (vm.setBody id (.thread (f before))).lineAt = vm.lineAt := lineAt_congr rfl rfl
      rw [Option.elim_some, stepView, hdeclared, hlines, depthOf?, hlater, stepView, depthOf?]
      by_cases hsame : thread = id
      · subst hsame
        cases hbody.symm.trans hchanged
        have hdepth := hnext body
        rw [ThreadBody.depth?, ThreadBody.depth?] at hdepth
        rw [if_pos rfl, if_pos rfl, Option.bind_some, hbody, Option.bind_some, hdepth]
        exact ⟨rfl, rfl⟩
      · rw [if_neg hsame, if_neg hsame]
        exact ⟨hthread, rfl⟩

/-- Machines that show the same of a thread still do when the same code is run in both. -/
theorem stepView_of_runsCode (hstep : step.runsCode)
    (hview : vm.stepView thread = vm'.stepView thread) (hthread : (vm.threadAt? thread).isSome)
    (hthread' : (vm'.threadAt? thread).isSome) :
    ((step.apply vm).threadAt? thread).isSome ∧ ((step.apply vm').threadAt? thread).isSome ∧
      (step.apply vm).stepView thread = (step.apply vm').stepView thread := by
  obtain ⟨id, f, next, happly, hnext⟩ := Setup.apply_of_runsCode hstep
  obtain ⟨hkept, hshown⟩ := stepView_changeThread id hnext hthread
  obtain ⟨hkept', hshown'⟩ := stepView_changeThread id hnext hthread'
  rw [happly, happly, hshown, hshown', hview]
  exact ⟨hkept, hkept', rfl⟩

end Vm

end DebugAgent
